import SingleUse.Proofs.Sweep
import Mathlib.Data.List.Induction
import Mathlib.Data.List.Perm.Basic

/-!
# Sifting

Which of several fixes are applied together.  They are taken *greedily*: whether a fix is applied is
decided by those before it that are.  The decisions are told by the positions in the list, as the
same fix may stand there twice.  Fixes that overlap none of one another are all applied, and since
their edits keep apart, the order in which they come does not show in the source.
-/

namespace SingleUse.Fix

variable {fixes : List Fix} {chosen : Nat → Bool}

/-! ### Choices of positions -/

/-- The fixes at the chosen positions. -/
def pick (chosen : Nat → Bool) (fixes : List Fix) : List Fix :=
  (fixes.zipIdx.filter fun entry => chosen entry.2).map (·.1)

theorem mem_pick {fix : Fix} :
  fix ∈ pick chosen fixes ↔ ∃ i, fixes[i]? = some fix ∧ chosen i
  := by
  simp only [pick, List.mem_map, List.mem_filter, List.mem_zipIdx_iff_getElem?]
  constructor
  · rintro ⟨⟨fix, i⟩, ⟨hfix, hi⟩, rfl⟩
    exact ⟨i, hfix, hi⟩
  · rintro ⟨i, hfix, hi⟩
    exact ⟨(fix, i), ⟨hfix, hi⟩, rfl⟩

/-- The fixes at the chosen positions keep their order. -/
theorem pick_sublist (chosen : Nat → Bool) (fixes : List Fix) :
  (pick chosen fixes).Sublist fixes
  := by
  have hsublist : (fixes.zipIdx.filter fun entry => chosen entry.2).Sublist fixes.zipIdx :=
    List.filter_sublist
  have hmap := hsublist.map (·.1)
  rwa [List.zipIdx_map_fst] at hmap

/-- Each fix stands at a position that is chosen or at one that is not. -/
theorem pick_append_perm (chosen : Nat → Bool) (fixes : List Fix) :
  (pick chosen fixes ++ pick (fun i => !chosen i) fixes).Perm fixes
  := by
  have hperm := List.filter_append_perm (fun entry : Fix × Nat => chosen entry.2) fixes.zipIdx
  have hmap := hperm.map (·.1)
  rwa [List.map_append, List.zipIdx_map_fst] at hmap

/-- Choices that agree on the positions of a list pick the same fixes. -/
theorem pick_congr {chosen' : Nat → Bool} (h : ∀ i < fixes.length, chosen i = chosen' i) :
  pick chosen fixes = pick chosen' fixes
  := by
  rw [pick, pick]
  congr 1
  apply List.filter_congr
  rintro ⟨fix, i⟩ hentry
  apply h
  rw [List.mem_zipIdx_iff_getElem?] at hentry
  apply (List.getElem?_eq_some_iff.mp hentry).1

theorem pick_concat (chosen : Nat → Bool) (fixes : List Fix) (fix : Fix) :
  pick chosen (fixes ++ [fix])
    = pick chosen fixes ++ if chosen fixes.length then [fix] else []
  := by
  rw [pick, List.zipIdx_append, List.filter_append, List.map_append, ← pick]
  simp only [List.zipIdx_singleton, Nat.zero_add, List.filter_cons, List.filter_nil]
  split <;> rfl

/-! ### Greedy choices -/

/-- Whether a choice of positions is *greedy*: a position is chosen exactly if its fix overlaps none
at the chosen positions before it. -/
def Greedy (fixes : List Fix) (chosen : Nat → Bool) : Prop :=
  ∀ i fix, fixes[i]? = some fix →
    (chosen i ↔ ∀ j other, j < i → fixes[j]? = some other → chosen j → fix.overlaps other = false)

/-- A fix at a position that is not chosen overlaps one at a chosen position before. -/
theorem Greedy.exists_overlaps (h : Greedy fixes chosen) {i : Nat} {fix : Fix}
    (hfix : fixes[i]? = some fix) (hi : chosen i = false) :
  ∃ j other, j < i ∧ fixes[j]? = some other ∧ chosen j ∧ fix.overlaps other
  := by
  have hsome := mt (h i fix hfix).mpr (by simp [hi])
  push Not at hsome
  obtain ⟨j, other, hj, hother, hchosen, hoverlaps⟩ := hsome
  exact ⟨j, other, hj, hother, hchosen, by simpa using hoverlaps⟩

/-- A longer list has the old fixes at the old positions, and the new one after them. -/
theorem getElem?_concat_iff {fix new : Fix} {i : Nat} :
  (fixes ++ [fix])[i]? = some new ↔ fixes[i]? = some new ∨ i = fixes.length ∧ new = fix
  := by
  rcases Nat.lt_trichotomy i fixes.length with hi | rfl | hi
  · simp [List.getElem?_append_left hi, Nat.ne_of_lt hi]
  · simp [eq_comm]
  · have hlong : (fixes ++ [fix]).length ≤ i := by
      rw [List.length_append, List.length_singleton]
      exact hi
    rw [List.getElem?_eq_none hlong, List.getElem?_eq_none (Nat.le_of_lt hi)]
    simp [Nat.ne_of_gt hi]

/-- Whether a further fix overlaps one that is picked settles its position. -/
theorem Greedy.concat (h : Greedy fixes chosen) (fix : Fix) :
  Greedy (fixes ++ [fix])
    (Function.update chosen fixes.length (!(pick chosen fixes).any fix.overlaps))
  := by
  have hold : ∀ j other, fixes[j]? = some other → j < fixes.length ∧
      Function.update chosen fixes.length (!(pick chosen fixes).any fix.overlaps) j = chosen j := by
    intro j other hother
    have hj := (List.getElem?_eq_some_iff.mp hother).1
    exact ⟨hj, Function.update_of_ne (Nat.ne_of_lt hj) _ chosen⟩
  intro i new hnew
  rcases getElem?_concat_iff.mp hnew with hfix | ⟨rfl, rfl⟩
  · obtain ⟨hi, hchosen⟩ := hold i new hfix
    rw [hchosen, h i new hfix]
    constructor
    · intro hnone j other hj hother hchosenj
      rcases getElem?_concat_iff.mp hother with hother | ⟨rfl, -⟩
      · exact hnone j other hj hother ((hold j other hother).2 ▸ hchosenj)
      · omega
    · intro hnone j other hj hother hchosenj
      apply hnone j other hj (getElem?_concat_iff.mpr (.inl hother))
      rwa [(hold j other hother).2]
  · rw [Function.update_self, Bool.not_eq_true', List.any_eq_false]
    constructor
    · intro hnone j other hj hother hchosenj
      rcases getElem?_concat_iff.mp hother with hother | ⟨rfl, -⟩
      · rw [(hold j other hother).2] at hchosenj
        simpa using hnone other (mem_pick.mpr ⟨j, hother, hchosenj⟩)
      · omega
    · intro hnone other hpicked
      obtain ⟨j, hother, hchosenj⟩ := mem_pick.mp hpicked
      obtain ⟨hj, hsame⟩ := hold j other hother
      rw [← hsame] at hchosenj
      simpa using hnone j other hj (getElem?_concat_iff.mpr (.inl hother)) hchosenj

/-! ### What is applied and what is deferred -/

/-- Sifting a list and then more fixes is sifting the list and, after what is kept of it, the
others. -/
theorem sift_append (fixes more : List Fix) :
  ∀ kept : List Fix, sift kept (fixes ++ more)
    = ((sift kept fixes).1 ++ (sift (kept ++ (sift kept fixes).1) more).1,
      (sift kept fixes).2 ++ (sift (kept ++ (sift kept fixes).1) more).2)
  := by
  induction fixes with
  | nil =>
    intro kept
    simp [sift]
  | cons fix rest ih =>
    intro kept
    rw [List.cons_append, sift, sift]
    split
    · simp [ih]
    · simp [ih]

/-- The last fix is applied if it overlaps none of those that are, and deferred otherwise. -/
theorem sift_concat (fixes : List Fix) (fix : Fix) :
  sift [] (fixes ++ [fix]) = if (sift [] fixes).1.any fix.overlaps
    then ((sift [] fixes).1, (sift [] fixes).2 ++ [fix])
    else ((sift [] fixes).1 ++ [fix], (sift [] fixes).2)
  := by
  rw [sift_append, List.nil_append, sift]
  split <;> simp [sift]

/-- Fixes are sifted by a greedy choice. -/
theorem exists_greedy (fixes : List Fix) :
  ∃ chosen, Greedy fixes chosen
    ∧ sift [] fixes = (pick chosen fixes, pick (fun i => !chosen i) fixes)
  := by
  induction fixes using List.reverseRecOn with
  | nil =>
    use fun _ => true
    simp [Greedy, sift, pick]
  | append_singleton fixes fix ih =>
    obtain ⟨chosen, hgreedy, hsift⟩ := ih
    use Function.update chosen fixes.length (!(pick chosen fixes).any fix.overlaps),
      hgreedy.concat fix
    have hsame : ∀ i < fixes.length,
        Function.update chosen fixes.length (!(pick chosen fixes).any fix.overlaps) i = chosen i :=
      fun i hi => Function.update_of_ne (Nat.ne_of_lt hi) _ chosen
    have hpicked := pick_congr hsame
    have hleft : pick (fun i => !Function.update chosen fixes.length
        (!(pick chosen fixes).any fix.overlaps) i) fixes = pick (fun i => !chosen i) fixes :=
      pick_congr fun i hi => by rw [hsame i hi]
    rw [sift_concat, hsift, pick_concat, pick_concat, hpicked, hleft, Function.update_self]
    cases (pick chosen fixes).any fix.overlaps <;> simp

/-- Of some fixes, those that are applied and those that are deferred stand at the positions of a
greedy choice and at the others, so both keep their order and together they are all fixes.  No two
that are applied overlap, and each that is deferred overlaps one that stands before it and is
applied.  Unless there is no fix at all, one is applied. -/
theorem applyAll_greedy (source : Bytes) (fixes : List Fix) :
  ∃ chosen, Greedy fixes chosen
    ∧ (applyAll source fixes).applied = pick chosen fixes
    ∧ (applyAll source fixes).deferred = pick (fun i => !chosen i) fixes
    ∧ (applyAll source fixes).applied.Sublist fixes
    ∧ (applyAll source fixes).deferred.Sublist fixes
    ∧ ((applyAll source fixes).applied ++ (applyAll source fixes).deferred).Perm fixes
    ∧ (applyAll source fixes).applied.Pairwise (fun a b => a.overlaps b = false)
    ∧ (∀ i fix, fixes[i]? = some fix → chosen i = false →
      ∃ j other, j < i ∧ fixes[j]? = some other ∧ chosen j ∧ fix.overlaps other)
    ∧ ((applyAll source fixes).applied = [] ↔ fixes = [])
  := by
  obtain ⟨chosen, hgreedy, hsift⟩ := exists_greedy fixes
  have happlied : (applyAll source fixes).applied = pick chosen fixes := congrArg Prod.fst hsift
  have hdeferred : (applyAll source fixes).deferred = pick (fun i => !chosen i) fixes :=
    congrArg Prod.snd hsift
  use chosen, hgreedy, happlied, hdeferred
  refine ⟨sift_sublist, ?_, ?_, pairwise_sift List.Pairwise.nil, ?_, ?_⟩
  · rw [hdeferred]
    apply pick_sublist
  · rw [happlied, hdeferred]
    apply pick_append_perm
  · intro i fix hfix
    exact hgreedy.exists_overlaps hfix
  · constructor
    · intro hnone
      cases fixes with
      | nil => rfl
      | cons first rest =>
        -- nothing stands before the first fix that it could overlap
        have hfirst : chosen 0 := by
          apply (hgreedy 0 first rfl).mpr
          intro j _ hj
          omega
        have hmem : first ∈ (applyAll source (first :: rest)).applied := by
          rw [happlied]
          exact mem_pick.mpr ⟨0, rfl, hfirst⟩
        simp [hnone] at hmem
    · rintro rfl
      rfl

/-- A fix that only overlaps a deferred one is applied, and so is one that replaces nothing, as
often as it comes; one that does replace something overlaps itself. -/
example :
  let fixes : List Fix := [⟨"a", [⟨⟨0, 3⟩, ""⟩]⟩, ⟨"b", [⟨⟨2, 6⟩, ""⟩]⟩, ⟨"c", [⟨⟨5, 8⟩, ""⟩]⟩,
    ⟨"c", [⟨⟨5, 8⟩, ""⟩]⟩, ⟨"d", []⟩, ⟨"d", []⟩]
  (applyAll [] fixes).applied.map (·.name) = ["a", "c", "d", "d"]
    ∧ (applyAll [] fixes).deferred.map (·.name) = ["b", "c"]
  := by decide

/-! ### Fixes that do not overlap -/

/-- Whether no two of the fixes overlap. -/
def Independent (fixes : List Fix) : Prop := fixes.Pairwise fun a b => a.overlaps b = false

instance (fixes : List Fix) : Decidable (Independent fixes) :=
  inferInstanceAs (Decidable (fixes.Pairwise fun a b => a.overlaps b = false))

/-- Independent fixes are so in any order. -/
theorem Independent.perm {fixes' : List Fix} (h : Independent fixes) (hperm : fixes'.Perm fixes) :
  Independent fixes'
  := by
  apply (hperm.pairwise_iff _).mpr h
  intro a b h
  rw [overlaps_symm, h]

/-- Independent fixes are all applied. -/
theorem Independent.sift_eq {kept : List Fix} (h : Independent (kept ++ fixes)) :
  sift kept fixes = (fixes, [])
  := by
  induction fixes generalizing kept with
  | nil => rfl
  | cons fix rest ih =>
    have hnone : kept.any fix.overlaps = false := by
      apply List.any_eq_false.mpr
      intro other hother
      rw [overlaps_symm, (List.pairwise_append.mp h).2.2 other hother fix List.mem_cons_self]
      exact Bool.false_ne_true
    have hrest : sift (kept ++ [fix]) rest = (rest, []) := by
      apply ih
      rwa [List.append_assoc]
    simp [sift, hnone, hrest]

/-- The order of independent fixes whose edits fit and keep apart does not matter: in each order all
of them are applied, none is deferred, and the source becomes the same. -/
theorem applyAll_of_perm {source : Bytes} (hfits : ∀ fix ∈ fixes, ∀ e ∈ fix.edits, e.Fits source)
    (hapart : ∀ fix ∈ fixes, Apart fix.edits) (h : Independent fixes) {fixes' : List Fix}
    (hperm : fixes'.Perm fixes) :
  (applyAll source fixes').source = (applyAll source fixes).source
    ∧ (applyAll source fixes').applied = fixes'
    ∧ (applyAll source fixes').deferred = []
  := by
  have hsift : sift [] fixes = (fixes, []) := Independent.sift_eq h
  have hsift' : sift [] fixes' = (fixes', []) := Independent.sift_eq (h.perm hperm)
  have hedits : (carriedOut source fixes').Perm (carriedOut source fixes) := by
    rw [carriedOut, carriedOut, applyAll, applyAll, hsift, hsift']
    exact hperm.flatMap_right _
  refine ⟨?_, congrArg Prod.fst hsift', congrArg Prod.snd hsift'⟩
  rw [source_applyAll hfits hapart,
    source_applyAll (fun fix hfix => hfits fix (hperm.mem_iff.mp hfix))
      fun fix hfix => hapart fix (hperm.mem_iff.mp hfix)]
  exact image_of_perm (fits_carriedOut hfits) (apart_carriedOut hapart) hedits

/-- Fixes for `abcdefgh` whose edits touch those of one another. -/
def touching : List Fix := [
  ⟨"a", [⟨⟨4, 5⟩, "[1]"⟩, ⟨⟨0, 2⟩, ""⟩]⟩,
  ⟨"b", [⟨⟨6, 8⟩, "2"⟩, ⟨⟨3, 4⟩, ""⟩]⟩,
  ⟨"c", [⟨⟨2, 3⟩, "é"⟩, ⟨⟨5, 6⟩, ""⟩]⟩]

/-- From the last to the first, these fixes turn `abcdefgh` into `é[1]2`, too. -/
theorem applyAll_of_perm_touching :
  (∀ fix ∈ touching, ∀ e ∈ fix.edits, e.Fits (Utf8.encode "abcdefgh"))
    ∧ (∀ fix ∈ touching, Apart fix.edits) ∧ Independent touching
    ∧ touching.reverse.Perm touching ∧ touching.reverse ≠ touching
    ∧ (applyAll (Utf8.encode "abcdefgh") touching.reverse).source = Utf8.encode "é[1]2"
    ∧ (applyAll (Utf8.encode "abcdefgh") touching.reverse).applied = touching.reverse
    ∧ (applyAll (Utf8.encode "abcdefgh") touching.reverse).deferred = []
  := by
  have hfits : ∀ fix ∈ touching, ∀ e ∈ fix.edits, e.Fits (Utf8.encode "abcdefgh") := by
    decide +kernel
  have hapart : ∀ fix ∈ touching, Apart fix.edits := by decide
  have hindependent : Independent touching := by decide
  obtain ⟨hsource, happlied, hdeferred⟩ :=
    applyAll_of_perm hfits hapart hindependent touching.reverse_perm
  refine ⟨hfits, hapart, hindependent, touching.reverse_perm, by decide, ?_, happlied, hdeferred⟩
  rw [hsource, source_applyAll hfits hapart]
  decide +kernel

end SingleUse.Fix
