import SingleUse.Command.Lint
import SingleUse.Proofs.Walking
import Mathlib.Data.List.Perm.Basic
import Mathlib.Data.String.Basic

/-!
# Collecting files

Paths are ordered by their components.  A sorted set of paths is told by its members, so the files
that several arguments stand for do not depend on the order of the arguments or on repetitions.
An argument that is not there becomes a failure.  What ends the run is an argument that may not be
looked up, or a directory where that happens to what is found there, where what is below cannot be
listed, or where the listing is no text.
-/

namespace SingleUse

/-! ### The order of paths -/

namespace SourcePath

variable {as bs cs : List String} {p q : SourcePath}

theorem precede_cons_iff {a b : String} :
  precede (a :: as) (b :: bs) ↔ a < b ∨ a = b ∧ precede as bs
  := by
  simp [precede]

theorem precede_total (as bs : List String) :
  precede as bs ∨ precede bs as
  := by
  induction as generalizing bs with
  | nil => exact .inl (by cases bs <;> rfl)
  | cons a as ih =>
    cases bs with
    | nil => exact .inr rfl
    | cons b bs =>
      rw [precede_cons_iff, precede_cons_iff]
      rcases lt_trichotomy a b with hlt | rfl | hlt
      · exact .inl (.inl hlt)
      · exact (ih bs).imp (fun h => .inr ⟨rfl, h⟩) fun h => .inr ⟨rfl, h⟩
      · exact .inr (.inl hlt)

theorem precede_trans (h : precede as bs) (h' : precede bs cs) :
  precede as cs
  := by
  induction as generalizing bs cs with
  | nil => cases cs <;> rfl
  | cons a as ih =>
    cases bs with
    | nil => cases h
    | cons b bs =>
      cases cs with
      | nil => cases h'
      | cons c cs =>
        rw [precede_cons_iff] at h h' ⊢
        rcases h with hlt | ⟨rfl, h⟩
        · rcases h' with hlt' | ⟨rfl, -⟩
          · exact .inl (hlt.trans hlt')
          · exact .inl hlt
        · rcases h' with hlt' | ⟨rfl, h'⟩
          · exact .inl hlt'
          · exact .inr ⟨rfl, ih h h'⟩

theorem precede_antisymm (h : precede as bs) (h' : precede bs as) :
  as = bs
  := by
  induction as generalizing bs with
  | nil =>
    cases bs with
    | nil => rfl
    | cons => cases h'
  | cons a as ih =>
    cases bs with
    | nil => cases h
    | cons b bs =>
      rw [precede_cons_iff] at h h'
      rcases h with hlt | ⟨rfl, h⟩
      · rcases h' with hlt' | ⟨rfl, -⟩
        · exact absurd hlt' hlt.asymm
        · exact absurd hlt (lt_irrefl _)
      · rcases h' with hlt' | ⟨-, h'⟩
        · exact absurd hlt' (lt_irrefl _)
        · rw [ih h h']

/-- Whether a path is one that a text may stand for: with one of the roots, or none, and without
slashes in its components. -/
structure IsClean (p : SourcePath) : Prop where
  root : p.root = "" ∨ p.root = "/" ∨ p.root = "//"
  parts : ∀ part ∈ p.parts, '/' ∉ part.toList

theorem isClean_ofText (text : String) :
  (ofText text).IsClean
  := by
  constructor
  · rw [ofText]
    dsimp only
    fun_cases rootOf text.toList <;> simp
  · intro part hpart
    rw [ofText] at hpart
    have hpart := List.mem_of_mem_filter hpart
    rw [Text.split, List.mem_map] at hpart
    obtain ⟨piece, hpiece, rfl⟩ := hpart
    rw [String.toList_ofList]
    exact Text.notMem_of_mem_pieces hpiece

theorem IsClean.join (hp : p.IsClean) (hq : q.IsClean) :
  (p.join q).IsClean
  := by
  rw [SourcePath.join]
  split
  · refine ⟨hp.root, fun part hpart => ?_⟩
    exact (List.mem_append.mp hpart).elim (hp.parts part) (hq.parts part)
  · exact hq

/-- A root is no component, as it has slashes. -/
theorem IsClean.notMem_parts (hp : p.IsClean) {root : String} (hroot : root = "/" ∨ root = "//") :
  root ∉ p.parts
  := by
  intro hmem
  apply hp.parts root hmem
  rcases hroot with rfl | rfl <;> decide

/-- Paths that texts stand for are told by their components. -/
theorem IsClean.eq_of_components_eq (hp : p.IsClean) (hq : q.IsClean)
    (h : p.components = q.components) :
  p = q
  := by
  rcases p with ⟨root, parts⟩
  rcases q with ⟨root', parts'⟩
  simp only [components] at h
  split_ifs at h with hnone hnone' hnone'
  · rw [hnone, hnone', h]
  · exact absurd (by rw [h]; exact List.mem_cons_self)
      (hp.notMem_parts (hq.root.resolve_left hnone'))
  · exact absurd (by rw [← h]; exact List.mem_cons_self)
      (hq.notMem_parts (hp.root.resolve_left hnone))
  · rw [(List.cons.inj h).1, (List.cons.inj h).2]

theorem IsClean.eq_of_le (hp : p.IsClean) (hq : q.IsClean) (h : p.le q) (h' : q.le p) :
  p = q
  := hp.eq_of_components_eq hq (precede_antisymm h h')

theorem nodup_eraseDups : ∀ paths : List SourcePath, paths.eraseDups.Nodup
  | [] => .nil
  | p :: rest => by
    rw [List.eraseDups_cons, List.nodup_cons]
    constructor
    · simp [List.mem_eraseDups]
    · exact nodup_eraseDups _
termination_by paths => paths.length
decreasing_by exact Nat.lt_succ_of_le (List.length_filter_le _ _)

variable {paths paths' : List SourcePath}

theorem nodup_sortedSet (paths : List SourcePath) :
  (sortedSet paths).Nodup
  := (List.mergeSort_perm _ _).nodup_iff.mpr (nodup_eraseDups paths)

theorem pairwise_le_sortedSet (paths : List SourcePath) :
  (sortedSet paths).Pairwise fun p q => p.le q
  := by
  apply List.pairwise_mergeSort
  · intro p q r
    exact precede_trans
  · intro p q
    rw [Bool.or_eq_true]
    exact precede_total p.components q.components

/-- A sorted set is sorted strictly. -/
theorem pairwise_sortedSet (hclean : ∀ p ∈ paths, p.IsClean) :
  (sortedSet paths).Pairwise fun p q => p.le q ∧ ¬ q.le p
  := by
  have hmem : ∀ p ∈ sortedSet paths, p.IsClean := fun p hp => hclean p (mem_sortedSet.mp hp)
  apply ((pairwise_le_sortedSet paths).and (nodup_sortedSet paths)).imp_of_mem
  rintro p q hp hq ⟨hle, hne⟩
  exact ⟨hle, fun hle' => hne ((hmem p hp).eq_of_le (hmem q hq) hle hle')⟩

/-- A sorted set is told by its members. -/
theorem sortedSet_congr (hclean : ∀ p ∈ paths, p.IsClean) (h : ∀ p, p ∈ paths ↔ p ∈ paths') :
  sortedSet paths = sortedSet paths'
  := by
  apply List.Perm.eq_of_pairwise _ (pairwise_le_sortedSet paths) (pairwise_le_sortedSet paths')
  · rw [List.perm_ext_iff_of_nodup (nodup_sortedSet paths) (nodup_sortedSet paths')]
    intro p
    rw [mem_sortedSet, mem_sortedSet, h]
  · intro p q hp hq
    have hp := hclean p (mem_sortedSet.mp hp)
    have hq := hclean q ((h q).mpr (mem_sortedSet.mp hq))
    exact hp.eq_of_le hq

end SourcePath

/-! ### What a path stands for -/

namespace Workspace

/-- A name of too many bytes is looked for in no workspace. -/
theorem isOverlong_of_isName (w : Workspace) {name : String} (hname : SourcePath.IsName name)
    (hnull : '\x00' ∉ name.toList) (hlong : nameLimit < name.utf8ByteSize) :
  w.isOverlong (.ofText name)
  := by
  have htext : SourcePath.text ⟨"", [name]⟩ = name := by
    simp [SourcePath.text]
  have hpath : SourcePath.ofText name = ⟨"", [name]⟩ := by
    have hback := @SourcePath.ofText_text [name] (by simpa using hname) (by simp)
    rwa [htext] at hback
  have hbare : SourcePath.hasNull ⟨"", [name]⟩ = false := by
    rw [SourcePath.hasNull, htext]
    simpa using hnull
  have hmeets : w.meetsOverlong [] [name] := by
    simp [meetsOverlong, isDirAt, isTop, hlong]
  rw [hpath, isOverlong, hbare, startOf, if_pos rfl, hmeets]
  simp

theorem utf8Len_replicate (n : Nat) :
  String.utf8Len (List.replicate n 'x') = n
  := by
  induction n with
  | zero => rfl
  | succ n ih =>
    rw [List.replicate_succ, String.utf8Len_cons, ih]
    rfl

theorem isOverlong_replicate (w : Workspace) {n : Nat} (hn : nameLimit < n) :
  w.isOverlong (.ofText (String.ofList (List.replicate n 'x')))
  := by
  have hpos : n ≠ 0 := by
    rintro rfl
    cases hn
  have hchars : ∀ c ∈ (String.ofList (List.replicate n 'x')).toList, c = 'x' := by
    intro c hc
    rw [String.toList_ofList] at hc
    exact List.eq_of_mem_replicate hc
  have hx : 'x' ∈ (String.ofList (List.replicate n 'x')).toList := by
    simp [hpos]
  apply w.isOverlong_of_isName
  · constructor
    · exact fun heq => by simp [heq] at hx
    · exact fun heq => by simp [heq] at hx
    · exact fun heq => by simp [heq] at hx
    · exact fun hc => absurd (hchars _ hc) (by decide)
  · exact fun hc => absurd (hchars _ hc) (by decide)
  · rw [String.utf8ByteSize_ofList, utf8Len_replicate]
    exact hn

end Workspace

namespace Discovery

variable {d : Discovery} {w : Workspace} {p : SourcePath}

/-- The errors that may end the expansion of a path.  The path itself may be refused.  In a
directory for which there is a listing, that may be no text, or a path that it gives may be refused;
in one without, a directory may be one that is not listed, or what is found by its name may be
refused. -/
inductive Stops (d : Discovery) (w : Workspace) (p : SourcePath) : Error → Prop where
  | refused {e : Error} (h : w.refusal? p = some e) : Stops d w p e
  | notText {listing : Bytes} {e : Utf8.DecodeError} (hdir : w.isDir p)
      (hlisting : d.listing p = some listing) (h : Utf8.decode listing = .error e) :
      Stops d w p (.decode e)
  | listed {listing : Bytes} {text : String} {q : SourcePath} {e : Error} (hdir : w.isDir p)
      (hlisting : d.listing p = some listing) (htext : Utf8.decode listing = .ok text)
      (hq : q ∈ d.listed text) (h : w.refusal? (p.join q) = some e) : Stops d w p e
  | unlisted {q : SourcePath} {e : Error} (hdir : w.isDir p) (hlisting : d.listing p = none)
      (hq : q ∈ d.scannedDirs w p) (h : w.listRefusal? (p.join q) = some e) : Stops d w p e
  | found {q : SourcePath} {e : Error} (hdir : w.isDir p) (hlisting : d.listing p = none)
      (hq : q ∈ d.scannedPaths w p) (h : w.refusal? (p.join q) = some e) : Stops d w p e

/-- Whether nothing ends the expansion of a path. -/
def Reaches (d : Discovery) (w : Workspace) (p : SourcePath) : Prop := ∀ e, ¬ d.Stops w p e

/-- What ends a walk ends the expansion. -/
theorem stops_of_candidates {e : Error} (hdir : w.isDir p) (h : d.candidates w p = .error e) :
  d.Stops w p e
  := by
  rw [candidates] at h
  split at h
  · rename_i listing hlisting
    rw [tracked] at h
    split at h
    · rename_i e' hdecode
      obtain rfl := Except.error.inj h
      exact .notText hdir hlisting hdecode
    · rename_i text htext
      split at h
      · rename_i e' hfirst
        obtain ⟨q, hq, hrefused⟩ := List.exists_of_findSome?_eq_some hfirst
        obtain rfl := Except.error.inj h
        exact .listed hdir hlisting htext hq hrefused
      · cases h
  · rename_i hlisting
    rw [scanned] at h
    split at h
    · rename_i e' hfirst
      obtain rfl := Except.error.inj h
      rcases Option.or_eq_some_iff.mp hfirst with hfirst | ⟨-, hfirst⟩
      · obtain ⟨q, hq, hrefused⟩ := List.exists_of_findSome?_eq_some hfirst
        exact .unlisted hdir hlisting hq hrefused
      · obtain ⟨q, hq, hrefused⟩ := List.exists_of_findSome?_eq_some hfirst
        exact .found hdir hlisting hq hrefused
    · cases h

/-- Nothing ends the expansion of a path that is not refused and below which a walk has found its
candidates. -/
theorem reaches_of_candidates (hself : w.refusal? p = none) {found : List SourcePath}
    (h : d.candidates w p = .ok found) :
  d.Reaches w p
  := by
  intro e hstops
  cases hstops with
  | refused hrefused => cases hself.symm.trans hrefused
  | notText hdir hlisting hdecode =>
    rw [candidates, hlisting] at h
    simp only [tracked, hdecode] at h
    cases h
  | @listed listing text q e hdir hlisting htext hq hrefused =>
    rw [candidates, hlisting] at h
    simp only [tracked, htext] at h
    split at h
    · cases h
    · rename_i hnone
      cases (List.findSome?_eq_none_iff.mp hnone q hq).symm.trans hrefused
  | @unlisted q e hdir hlisting hq hrefused =>
    rw [candidates, hlisting] at h
    simp only [scanned] at h
    split at h
    · cases h
    · rename_i hnone
      have hnone := (Option.or_eq_none_iff.mp hnone).1
      cases (List.findSome?_eq_none_iff.mp hnone q hq).symm.trans hrefused
  | @found q e hdir hlisting hq hrefused =>
    rw [candidates, hlisting] at h
    simp only [scanned] at h
    split at h
    · cases h
    · rename_i hnone
      have hnone := (Option.or_eq_none_iff.mp hnone).2
      cases (List.findSome?_eq_none_iff.mp hnone q hq).symm.trans hrefused

/-- Nothing ends the expansion of a path that is not refused and leads to no directory. -/
theorem reaches_of_not_isDir (hself : w.refusal? p = none) (hdir : w.isDir p = false) :
  d.Reaches w p
  := by
  intro e hstops
  cases hstops with
  | refused hrefused => cases hself.symm.trans hrefused
  | notText hthere => cases hdir.symm.trans hthere
  | listed hthere => cases hdir.symm.trans hthere
  | unlisted hthere => cases hdir.symm.trans hthere
  | found hthere => cases hdir.symm.trans hthere

/-- A path whose expansion nothing ends stands for files, or it is not there. -/
theorem exists_expand (hextra : d.exclusions.Textual)
    (hreach : d.Reaches w p) :
  if w.exists? p then ∃ found, d.expand w p = .ok found
  else d.expand w p = .error (.noSuchPath p.text)
  := by
  have hself : w.refusal? p = none :=
    Option.eq_none_iff_forall_ne_some.mpr fun e hrefused => hreach e (.refused hrefused)
  rw [expand, hself]
  dsimp only
  split
  · rename_i hthere
    rw [if_neg (by simp [hthere])]
    split
    · rename_i hdir
      cases hfound : d.candidates w p with
      | error e => exact absurd (stops_of_candidates hdir hfound) (hreach e)
      | ok found =>
        obtain ⟨walked, hwalk, -⟩ := exists_walk hextra hfound
        exact ⟨walked, hwalk⟩
    · split
      · exact ⟨_, rfl⟩
      · exact ⟨_, rfl⟩
  · rename_i hthere
    rw [if_pos (by simp [hthere])]

/-- The expansion of any other path fails with an error that ends it. -/
theorem expand_of_not_reaches (hreach : ¬ d.Reaches w p) :
  ∃ e, d.Stops w p e ∧ d.expand w p = .error e
  := by
  rw [expand]
  cases hself : w.refusal? p with
  | some e => exact ⟨e, .refused hself, rfl⟩
  | none =>
    have hdir : w.isDir p := by
      by_contra hdir
      exact hreach (reaches_of_not_isDir hself (Bool.eq_false_iff.mpr hdir))
    have hthere : w.exists? p := by
      rw [Workspace.exists?, hdir, Bool.true_or]
    cases hfound : d.candidates w p with
    | ok found => exact absurd (reaches_of_candidates hself hfound) hreach
    | error e =>
      refine ⟨e, stops_of_candidates hdir hfound, ?_⟩
      dsimp only
      rw [if_neg (by simp [hthere]), if_pos hdir, walk_eq, hfound]
      rfl

/-- An error that ends the expansion of a path does not say that the path is not there. -/
theorem Stops.ne_noSuchPath {e : Error} (h : d.Stops w p e) (path : String) :
  e ≠ .noSuchPath path
  := by
  have hlookup : ∀ q, w.refusal? q ≠ some (.noSuchPath path) := by
    intro q
    rw [Workspace.refusal?]
    split_ifs
    · simp
    · simp
    · simp
  rintro rfl
  cases h with
  | refused h => exact hlookup _ h
  | listed _ _ _ _ h => exact hlookup _ h
  | found _ _ _ h => exact hlookup _ h
  | unlisted _ _ _ h =>
    rw [Workspace.listRefusal?] at h
    split_ifs at h
    · cases h
    · split at h
      · cases h
      · cases h

/-- A listed path is read from its line. -/
theorem isClean_of_mem_listed {listing : String} (h : p ∈ d.listed listing) :
  p.IsClean
  := by
  rw [listed, List.mem_filterMap] at h
  obtain ⟨line, -, h⟩ := h
  dsimp only at h
  split at h
  · obtain rfl := Option.some.inj h
    exact SourcePath.isClean_ofText _
  · cases h

/-- All paths that a path stands for are paths that texts may stand for. -/
theorem isClean_of_expand (hw : w.Sound) (hp : p.IsClean) {found : List SourcePath}
    (h : d.expand w p = .ok found) :
  ∀ q ∈ found, q.IsClean
  := by
  rw [expand] at h
  split at h
  · cases h
  split_ifs at h with hthere hdir hsupported
  · obtain ⟨here, hlocate, hhere⟩ := Workspace.isDir_iff.mp hdir
    rw [walk_eq] at h
    obtain ⟨candidates, hcandidates, h⟩ := exists_ok_of_bind h
    obtain ⟨kept, hkept, h⟩ := exists_ok_of_bind h
    obtain rfl := Except.ok.inj h
    intro path hpath
    obtain ⟨q, hq, rfl⟩ := List.mem_map.mp hpath
    rw [filterM_eq hkept] at hq
    have hq := List.mem_of_mem_filter (List.mem_of_mem_filter hq)
    apply hp.join
    rw [Discovery.candidates] at hcandidates
    split at hcandidates
    · rename_i listing _
      rw [tracked] at hcandidates
      split at hcandidates
      · cases hcandidates
      · split at hcandidates
        · cases hcandidates
        · obtain rfl := Except.ok.inj hcandidates
          exact isClean_of_mem_listed (List.mem_of_mem_filter hq)
    · rw [scanned] at hcandidates
      split at hcandidates
      · cases hcandidates
      · obtain rfl := Except.ok.inj hcandidates
        have hbelow := List.mem_of_mem_filter (SourcePath.mem_sortedSet.mp hq)
        obtain ⟨⟨hroot, -, hnames⟩, -⟩ := Workspace.of_mem_below hw hlocate hhere hbelow
        exact ⟨.inl hroot, fun part hpart => (hnames part hpart).notMem⟩
  · obtain rfl := Except.ok.inj h
    simpa using hp
  · obtain rfl := Except.ok.inj h
    simp

theorem discover_singleton (d : Discovery) (w : Workspace) (p : SourcePath) :
  d.discover w [p] = (d.expand w p).map SourcePath.sortedSet
  := by
  rw [discover]
  cases hexpand : d.expand w p with
  | error e => simp [hexpand, Except.map, bind, Except.bind]
  | ok found => simp [hexpand, Except.map, bind, Except.bind, pure, Except.pure]

end Discovery

/-! ### What several arguments stand for -/

namespace Lint

variable {lint : Lint} {w : Workspace} {raw : String} {paths : List String}

/-- The files that an argument stands for. -/
def found (lint : Lint) (w : Workspace) (raw : String) : List SourcePath :=
  (lint.discovery.expand w (.ofText raw)).toOption.getD []

/-- The failure of an argument that is not there. -/
def failureOf (raw : String) : Failure where
  path := raw
  reason := (Error.noSuchPath (SourcePath.ofText raw).text).message

/-- The failures of the arguments that are not there, in their order. -/
def missing (w : Workspace) (paths : List String) : List Failure :=
  (paths.filter fun raw => !w.exists? (.ofText raw)).map failureOf

theorem filesOf_eq (hextra : lint.discovery.exclusions.Textual)
    (hreach : lint.discovery.Reaches w (.ofText raw)) :
  lint.filesOf w raw = .ok
    (if w.exists? (.ofText raw) then .ok (SourcePath.sortedSet (lint.found w raw))
    else .error (failureOf raw))
  := by
  have hexpand := Discovery.exists_expand hextra hreach
  unfold filesOf
  rw [Discovery.discover_singleton]
  split at hexpand
  · rename_i hthere
    obtain ⟨found, hfound⟩ := hexpand
    rw [if_pos hthere, Lint.found, hfound]
    simp only [Except.map, Except.toOption, Option.getD_some]
  · rename_i hthere
    rw [if_neg hthere, hexpand]
    simp only [Except.map, failureOf]

/-- Whether a run fails with what ends the expansion of one of its arguments. -/
def StopsAt (lint : Lint) (w : Workspace) (paths : List String) (e : Error) : Prop :=
  ∃ raw ∈ paths, lint.discovery.Stops w (.ofText raw) e
    ∧ lint.discovery.expand w (.ofText raw) = .error e

theorem filesOf_of_not_reaches (hreach : ¬ lint.discovery.Reaches w (.ofText raw)) :
  ∃ e, lint.discovery.Stops w (.ofText raw) e
    ∧ lint.discovery.expand w (.ofText raw) = .error e ∧ lint.filesOf w raw = .error e
  := by
  obtain ⟨e, hstops, hexpand⟩ := Discovery.expand_of_not_reaches hreach
  refine ⟨e, hstops, hexpand, ?_⟩
  unfold filesOf
  rw [Discovery.discover_singleton, hexpand]
  cases e with
  | noSuchPath path => exact absurd rfl (hstops.ne_noSuchPath path)
  | _ => rfl

/-- Where nothing ends the expansion of an argument, the files of each of them are gathered. -/
theorem gather_eq (hextra : lint.discovery.exclusions.Textual)
    (hreach : ∀ raw ∈ paths, lint.discovery.Reaches w (.ofText raw)) :
  lint.gather w paths = .ok
    ((paths.filter fun raw => w.exists? (.ofText raw)).flatMap fun raw =>
      SourcePath.sortedSet (lint.found w raw), missing w paths)
  := by
  induction paths with
  | nil => rfl
  | cons raw rest ih =>
    have ih := ih fun raw hraw => hreach raw (List.mem_cons_of_mem _ hraw)
    rw [gather, filesOf_eq hextra (hreach raw List.mem_cons_self), ih]
    by_cases hthere : w.exists? (.ofText raw)
    · simp [missing, hthere, bind, Except.bind, pure, Except.pure]
    · simp [missing, hthere, bind, Except.bind, pure, Except.pure]

/-- What ends the expansion of an argument ends the gathering. -/
theorem gather_of_not_reaches
    (hextra : lint.discovery.exclusions.Textual)
    (hreach : ¬ ∀ raw ∈ paths, lint.discovery.Reaches w (.ofText raw)) :
  ∃ e, lint.StopsAt w paths e ∧ lint.gather w paths = .error e
  := by
  induction paths with
  | nil => simp at hreach
  | cons raw rest ih =>
    rw [gather]
    by_cases hfirst : lint.discovery.Reaches w (.ofText raw)
    · have hrest : ¬ ∀ raw ∈ rest, lint.discovery.Reaches w (.ofText raw) := by
        intro h
        apply hreach
        simpa using ⟨hfirst, h⟩
      obtain ⟨e, ⟨later, hlater, hstops⟩, hgather⟩ := ih hrest
      refine ⟨e, ⟨later, List.mem_cons_of_mem _ hlater, hstops⟩, ?_⟩
      rw [filesOf_eq hextra hfirst, hgather]
      rfl
    · obtain ⟨e, hstops, hexpand, hfiles⟩ := filesOf_of_not_reaches hfirst
      refine ⟨e, ⟨raw, List.mem_cons_self, hstops, hexpand⟩, ?_⟩
      rw [hfiles]
      rfl

theorem found_of_not_exists
    (hextra : lint.discovery.exclusions.Textual)
    (hreach : lint.discovery.Reaches w (.ofText raw)) (hthere : ¬ w.exists? (.ofText raw)) :
  lint.found w raw = []
  := by
  have hexpand := Discovery.exists_expand hextra hreach
  rw [if_neg hthere] at hexpand
  rw [found, hexpand]
  rfl

theorem isClean_of_mem_found (hw : w.Sound) {path : SourcePath} (h : path ∈ lint.found w raw) :
  path.IsClean
  := by
  cases hexpand : lint.discovery.expand w (.ofText raw) with
  | error e => simp [found, hexpand, Except.toOption] at h
  | ok found' =>
    apply Discovery.isClean_of_expand hw (SourcePath.isClean_ofText raw) hexpand
    simpa [found, hexpand, Except.toOption] using h

/-- What is collected: the files that the arguments stand for, sorted strictly, and the failures of
the arguments that are not there, in the order of the arguments.  The files are the same for all
arguments with the same members, in any order and any number. -/
structure Collects (lint : Lint) (w : Workspace) (paths : List String)
    (files : List SourcePath) (failures : List Failure) : Prop where
  eq : lint.collect w paths = .ok (files, failures)
  sorted : files.Pairwise fun p q => p.le q ∧ ¬ q.le p
  mem : ∀ path, path ∈ files ↔ ∃ raw ∈ paths, ∃ found,
    lint.discovery.expand w (.ofText raw) = .ok found ∧ path ∈ found
  missing : failures = (paths.filter fun raw => !w.exists? (.ofText raw)).map failureOf
  congr : ∀ paths', (∀ raw, raw ∈ paths' ↔ raw ∈ paths) →
    ∃ failures', lint.collect w paths' = .ok (files, failures')

theorem collect_eq (hextra : lint.discovery.exclusions.Textual)
    (hw : w.Sound) (hreach : ∀ raw ∈ paths, lint.discovery.Reaches w (.ofText raw)) :
  lint.collect w paths = .ok (SourcePath.sortedSet (paths.flatMap (lint.found w)), missing w paths)
  := by
  rw [collect, gather_eq hextra hreach]
  have hsame : SourcePath.sortedSet (paths.flatMap (lint.found w))
      = SourcePath.sortedSet ((paths.filter fun raw => w.exists? (.ofText raw)).flatMap fun raw =>
        SourcePath.sortedSet (lint.found w raw)) := by
    apply SourcePath.sortedSet_congr
    · intro path hpath
      obtain ⟨raw, -, hpath⟩ := List.mem_flatMap.mp hpath
      exact isClean_of_mem_found hw hpath
    · intro path
      simp only [List.mem_flatMap, List.mem_filter, SourcePath.mem_sortedSet]
      constructor
      · rintro ⟨raw, hraw, hpath⟩
        refine ⟨raw, ⟨hraw, ?_⟩, hpath⟩
        by_contra hthere
        rw [found_of_not_exists hextra (hreach raw hraw) hthere] at hpath
        cases hpath
      · rintro ⟨raw, ⟨hraw, -⟩, hpath⟩
        exact ⟨raw, hraw, hpath⟩
  rw [hsame]
  rfl

/-- Where nothing ends the expansion of an argument, files are collected. -/
theorem exists_collects
    (hextra : lint.discovery.exclusions.Textual)
    (hw : w.Sound) (hreach : ∀ raw ∈ paths, lint.discovery.Reaches w (.ofText raw)) :
  ∃ files failures, lint.Collects w paths files failures
  := by
  have hclean : ∀ path ∈ paths.flatMap (lint.found w), path.IsClean := by
    intro path hpath
    obtain ⟨raw, -, hpath⟩ := List.mem_flatMap.mp hpath
    exact isClean_of_mem_found hw hpath
  use SourcePath.sortedSet (paths.flatMap (lint.found w)), missing w paths
  constructor
  · exact collect_eq hextra hw hreach
  · exact SourcePath.pairwise_sortedSet hclean
  · intro path
    rw [SourcePath.mem_sortedSet, List.mem_flatMap]
    apply exists_congr
    intro raw
    apply and_congr_right
    intro _
    cases hexpand : lint.discovery.expand w (.ofText raw) with
    | error e => simp [found, hexpand, Except.toOption]
    | ok found' => simp [found, hexpand, Except.toOption]
  · rfl
  · intro paths' hmem
    use missing w paths'
    rw [collect_eq hextra hw fun raw hraw => hreach raw ((hmem raw).mp hraw)]
    congr 2
    apply SourcePath.sortedSet_congr
    · intro path hpath
      obtain ⟨raw, -, hpath⟩ := List.mem_flatMap.mp hpath
      exact isClean_of_mem_found hw hpath
    · intro path
      simp only [List.mem_flatMap, hmem]

theorem collect_of_not_reaches
    (hextra : lint.discovery.exclusions.Textual)
    (hreach : ¬ ∀ raw ∈ paths, lint.discovery.Reaches w (.ofText raw)) :
  ∃ e, lint.StopsAt w paths e ∧ lint.collect w paths = .error e
  := by
  obtain ⟨e, hstops, hgather⟩ := gather_of_not_reaches hextra hreach
  refine ⟨e, hstops, ?_⟩
  rw [collect, hgather]
  rfl

end Lint

end SingleUse
