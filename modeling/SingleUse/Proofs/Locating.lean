import SingleUse.Workspace
import Mathlib.Data.List.Nodup
import Mathlib.Tactic.Common

/-!
# Locating files

A file lies at a place: the names of the directories above it and its own name, after a root or
after steps upward from the current directory.  A relative path whose components are all names is
told by its text.  A path below a directory leads to the place that is put together from that of
the directory and the components of the path.
-/

namespace SingleUse

/-! ### Paths and their texts -/

namespace Text

theorem pieces_eq_splitOn (mark : Char) (text : List Char) :
  pieces mark text = text.splitOn mark
  := by
  induction text with
  | nil => rfl
  | cons c rest ih =>
    rw [pieces, ih, List.splitOn_cons_eq_if_modifyHead]
    cases hrest : rest.splitOn mark with
    | nil => exact absurd hrest (List.splitOn_ne_nil mark rest)
    | cons piece more => simp

/-- No piece of a text has the mark in it. -/
theorem notMem_of_mem_pieces {mark : Char} {text piece : List Char} (h : piece ∈ pieces mark text) :
  mark ∉ piece
  := by
  induction text generalizing piece with
  | nil => simp_all [pieces]
  | cons c rest ih =>
    rw [pieces] at h
    split at h
    · rename_i hnone
      rw [pieces_eq_splitOn] at hnone
      exact absurd hnone (List.splitOn_ne_nil mark rest)
    · rename_i first more hrest
      rw [hrest] at ih
      split at h
      · rcases List.mem_cons.mp h with rfl | h
        · exact List.not_mem_nil
        · exact ih h
      · rename_i hne
        rcases List.mem_cons.mp h with rfl | h
        · rw [List.mem_cons, not_or]
          exact ⟨fun heq => hne heq.symm, ih List.mem_cons_self⟩
        · exact ih (List.mem_cons_of_mem _ h)

/-- Texts that are put together with a mark between them are what the text is split into. -/
theorem split_intercalate {mark : Char} {separator : String}
    (hseparator : separator.toList = [mark]) {parts : List String}
    (hparts : ∀ part ∈ parts, mark ∉ part.toList) (hne : parts ≠ []) :
  split mark (separator.intercalate parts) = parts
  := by
  have hpieces : ∀ piece ∈ parts.map String.toList, mark ∉ piece := by
    simpa using hparts
  rw [split, pieces_eq_splitOn, String.toList_intercalate, hseparator,
    List.splitOn_intercalate mark hpieces (by simpa using hne), List.map_map]
  simp [Function.comp_def]

/-- Up to the first mark a text is what stands before it. -/
theorem takeWhile_append_mark {mark : Char} {chars : List Char} (h : mark ∉ chars)
    (rest : List Char) :
  (chars ++ mark :: rest).takeWhile (· ≠ mark) = chars
  := by
  rw [List.takeWhile_append_of_pos, List.takeWhile_cons_of_neg (by simp), List.append_nil]
  intro c hc
  exact decide_eq_true (ne_of_mem_of_not_mem hc h)

/-- What is put together from pieces ends with the last one. -/
theorem isSuffix_intercalate (mark : List Char) (pieces : List (List Char)) (last : List Char) :
  last <:+ mark.intercalate (pieces ++ [last])
  := by
  induction pieces with
  | nil => simp
  | cons piece rest ih =>
    rw [List.cons_append, List.intercalate_cons_of_ne_nil (by simp)]
    exact List.suffix_append_of_suffix ih

end Text

namespace SourcePath

/-- Whether a text is the name of a file or of a directory. -/
structure IsName (name : String) : Prop where
  ne_empty : name ≠ ""
  ne_here : name ≠ "."
  ne_up : name ≠ ".."
  notMem : '/' ∉ name.toList

instance (name : String) : Decidable (IsName name) :=
  decidable_of_iff (name ≠ "" ∧ name ≠ "." ∧ name ≠ ".." ∧ '/' ∉ name.toList)
    ⟨fun ⟨hempty, hhere, hup, hslash⟩ => ⟨hempty, hhere, hup, hslash⟩,
      fun h => ⟨h.ne_empty, h.ne_here, h.ne_up, h.notMem⟩⟩

variable {parts : List String}

/-- The text of a path begins with the first character of its first component, and so with no
slash. -/
theorem rootOf_intercalate {name : String} {rest : List String} (hname : IsName name) :
  rootOf ("/".intercalate (name :: rest)).toList = ""
  := by
  have hfirst : ∃ c text, ("/".intercalate (name :: rest)).toList = c :: text ∧ c ≠ '/' := by
    cases hchars : name.toList with
    | nil => exact absurd (String.toList_eq_nil_iff.mp hchars) hname.ne_empty
    | cons c chars =>
      have hslash : c ≠ '/' := by
        rintro rfl
        apply hname.notMem
        simp [hchars]
      rw [String.toList_intercalate, List.map_cons, hchars]
      cases rest with
      | nil => exact ⟨c, chars, by simp, hslash⟩
      | cons next rest =>
        rw [List.map_cons, List.intercalate_cons_cons]
        exact ⟨c, _, rfl, hslash⟩
  obtain ⟨c, text, heq, hslash⟩ := hfirst
  rw [heq]
  simp [rootOf, hslash]

/-- A relative path whose components are names is read back from its text. -/
theorem ofText_text (hparts : ∀ part ∈ parts, IsName part) (hne : parts ≠ []) :
  ofText (text ⟨"", parts⟩) = ⟨"", parts⟩
  := by
  have htext : text ⟨"", parts⟩ = "/".intercalate parts := by
    simp [text, hne]
  rw [htext, ofText,
    Text.split_intercalate rfl (fun part hpart => (hparts part hpart).notMem) hne]
  congr 1
  · cases parts with
    | nil => rfl
    | cons name rest => exact rootOf_intercalate (hparts name List.mem_cons_self)
  · rw [List.filter_eq_self]
    intro part hpart
    simpa using ⟨(hparts part hpart).ne_empty, (hparts part hpart).ne_here⟩

theorem text_ne_empty (hparts : ∀ part ∈ parts, IsName part) (hne : parts ≠ []) :
  text ⟨"", parts⟩ ≠ ""
  := by
  intro hempty
  have hback := ofText_text hparts hne
  rw [hempty] at hback
  exact hne (congrArg SourcePath.parts hback).symm

/-- The text of a path ends with its name. -/
theorem name_isSuffix_text (p : SourcePath) (hne : p.parts ≠ []) :
  p.name.toList <:+ p.text.toList
  := by
  obtain ⟨init, last, hlast⟩ : ∃ init last, p.parts = init ++ [last] :=
    ⟨_, _, (List.dropLast_concat_getLast hne).symm⟩
  have hname : p.name = last := by
    simp [name, hlast]
  have htext : p.text = p.root ++ "/".intercalate p.parts := by
    simp [text, hne]
  rw [htext, hname, hlast, String.toList_append, String.toList_intercalate, List.map_append]
  exact List.suffix_append_of_suffix (Text.isSuffix_intercalate _ _ _)

/-- Relative paths below the same directory are told apart there. -/
theorem eq_of_join_eq {directory p q : SourcePath} (hp : p.root = "") (hq : q.root = "")
    (h : directory.join p = directory.join q) :
  p = q
  := by
  obtain ⟨root, parts⟩ := p
  obtain ⟨root', parts'⟩ := q
  obtain rfl : root = "" := hp
  obtain rfl : root' = "" := hq
  simpa [join] using h

theorem mem_sortedSet {p : SourcePath} {paths : List SourcePath} :
  p ∈ sortedSet paths ↔ p ∈ paths
  := by
  rw [sortedSet, List.mem_mergeSort, List.mem_eraseDups]

end SourcePath

/-! ### Places -/

namespace Workspace

open SourcePath (IsName)

variable {w : Workspace} {here place : List String} {content : Content}

/-- Whether components are those of a file: names after a root or after steps upward. -/
def IsPlace (parts : List String) : Prop :=
  ∃ lead names, parts = lead ++ names ∧ names ≠ [] ∧ (∀ name ∈ names, IsName name)
    ∧ (lead = ["/"] ∨ lead = ["//"] ∨ ∀ up ∈ lead, up = "..")

/-- Whether a workspace is one of a file system: files have names, and no file is a directory. -/
structure Sound (w : Workspace) : Prop where
  places : ∀ file ∈ w.files, IsPlace file.1
  apart : ∀ file ∈ w.files, w.isDirAt file.1 = false

/-- A workspace with files below the current directory only is one of a file system. -/
theorem sound_of_isName
    (hnames : ∀ file ∈ w.files, file.1 ≠ [] ∧ ∀ name ∈ file.1, IsName name)
    (hapart : ∀ file ∈ w.files, w.isDirAt file.1 = false) :
  w.Sound
  := by
  constructor
  · intro file hfile
    exact ⟨[], file.1, rfl, (hnames file hfile).1, (hnames file hfile).2, by simp⟩
  · exact hapart

theorem isDir_iff {path : SourcePath} :
  w.isDir path ↔ ∃ here, w.locate? path = some here ∧ w.isDirAt here
  := by
  rw [isDir]
  cases w.locate? path <;> simp

theorem follow_append (w : Workspace) (here first rest : List String) :
  w.follow here (first ++ rest) = (w.follow here first).bind (w.follow · rest)
  := by
  induction first generalizing here with
  | nil => rfl
  | cons part first ih =>
    rw [List.cons_append, follow, follow]
    split
    · rfl
    · apply ih

/-- A directory is there if something lies below it. -/
theorem isDirAt_of_mem {rest : List String} (hfile : (here ++ rest, content) ∈ w.files)
    (hne : rest ≠ []) :
  w.isDirAt here
  := by
  have hany : w.files.any fun file => here.isPrefixOf file.1 && file.1 ≠ here := by
    rw [List.any_eq_true]
    exact ⟨_, hfile, by simpa using hne⟩
  rw [isDirAt, hany, Bool.or_true]

/-- From a directory on, names lead to the file that lies there. -/
theorem follow_of_mem {rest : List String} (hfile : (here ++ rest, content) ∈ w.files)
    (hnames : ∀ name ∈ rest, IsName name) :
  w.follow here rest = some (here ++ rest)
  := by
  induction rest generalizing here with
  | nil => simp [follow]
  | cons name rest ih =>
    have hdir : w.isDirAt here := isDirAt_of_mem hfile (by simp)
    have hup : name ≠ ".." := (hnames name List.mem_cons_self).ne_up
    rw [follow, if_neg (by simp [hdir]), if_neg hup]
    rw [List.append_cons here name rest] at hfile ⊢
    exact ih hfile fun name hname => hnames name (List.mem_cons_of_mem _ hname)

/-- What lies below a place has only names, if it does not begin with a root or a step upward. -/
theorem isName_of_isPlace {rest : List String} (hplace : IsPlace (here ++ rest))
    (hrooted : isRooted here = isRooted (here ++ rest)) (hup : rest.head? ≠ some "..") :
  ∀ name ∈ rest, IsName name
  := by
  obtain ⟨lead, names, heq, -, hnames, hlead⟩ := hplace
  rcases List.append_eq_append_iff.mp heq with ⟨up, rfl, rfl⟩ | ⟨between, -, rfl⟩
  · cases up with
    | nil => exact hnames
    | cons first up =>
      rcases hlead with hroot | hroot | hups
      · cases here with
        | nil => simp_all [isRooted]
        | cons => simp at hroot
      · cases here with
        | nil => simp_all [isRooted]
        | cons => simp at hroot
      · have hfirst : first = ".." := hups first (by simp)
        simp [hfirst] at hup
  · intro name hname
    exact hnames name (List.mem_append_right _ hname)

variable {directory p : SourcePath}

/-- The path to a place at or below another one is what is put behind that, which is on the same
root and does not begin with a step upward. -/
theorem relative?_eq_some_iff :
  relative? here place = some p ↔ ∃ rest, place = here ++ rest ∧ p = ⟨"", rest⟩
    ∧ isRooted here = isRooted (here ++ rest) ∧ rest.head? ≠ some ".."
  := by
  rw [relative?]
  constructor
  · intro h
    split at h
    · rename_i hbelow
      simp only [Bool.and_eq_true, List.isPrefixOf_iff_prefix, decide_eq_true_eq] at hbelow
      obtain ⟨⟨⟨rest, rfl⟩, hrooted⟩, hup⟩ := hbelow
      rw [List.drop_left] at h hup
      exact ⟨rest, rfl, (Option.some.inj h).symm, hrooted, hup⟩
    · cases h
  · rintro ⟨rest, rfl, rfl, hrooted, hup⟩
    rw [List.drop_left, if_pos]
    simpa using ⟨hrooted, hup⟩

/-- What lies below a directory has a relative path that consists of names and leads to a file from
there. -/
theorem of_mem_below (hw : w.Sound) (hlocate : w.locate? directory = some here)
    (hdir : w.isDirAt here) (hp : p ∈ w.below directory) :
  (p.root = "" ∧ p.parts ≠ [] ∧ ∀ name ∈ p.parts, IsName name)
    ∧ ∃ content, (here ++ p.parts, content) ∈ w.files
  := by
  simp only [below, hlocate, List.mem_filterMap] at hp
  obtain ⟨⟨place, content⟩, hfile, hp⟩ := hp
  obtain ⟨rest, rfl, rfl, hrooted, hup⟩ := relative?_eq_some_iff.mp hp
  refine ⟨⟨rfl, ?_, isName_of_isPlace (hw.places _ hfile) hrooted hup⟩, content, hfile⟩
  rintro rfl
  have hapart := hw.apart _ hfile
  rw [List.append_nil, hdir] at hapart
  cases hapart

/-- The place to which a relative path leads from a directory. -/
theorem locate?_join (hlocate : w.locate? directory = some here) (hroot : p.root = "") :
  w.locate? (directory.join p) = w.follow here p.parts
  := by
  rw [SourcePath.join, if_pos hroot, locate?, follow_append]
  rw [locate?] at hlocate
  rw [show startOf ⟨directory.root, directory.parts ++ p.parts⟩ = startOf directory from rfl,
    hlocate]
  rfl

/-- The directories on the way from a directory to a file below it are among those below it. -/
theorem take_mem_dirsBelow (hlocate : w.locate? directory = some here)
    (hp : p ∈ w.below directory) {n : Nat} (hn : n < p.parts.length) :
  ⟨"", p.parts.take n⟩ ∈ w.dirsBelow directory
  := by
  simp only [below, hlocate, List.mem_filterMap] at hp
  obtain ⟨⟨place, content⟩, hfile, hp⟩ := hp
  obtain ⟨rest, rfl, rfl, hrooted, hup⟩ := relative?_eq_some_iff.mp hp
  simp only [dirsBelow, hlocate]
  cases n with
  | zero => exact List.mem_cons_self
  | succ n =>
    have hne : rest ≠ [] := List.ne_nil_of_length_pos (Nat.zero_lt_of_lt hn)
    have hlength : n < rest.dropLast.length := by
      rw [List.length_dropLast]
      dsimp only at hn
      omega
    have hhead : rest.dropLast.head? = none ∨ rest.dropLast.head? = rest.head? := by
      rw [List.head?_dropLast]
      split
      · exact .inr rfl
      · exact .inl rfl
    have hparent : relative? here (here ++ rest).dropLast = some ⟨"", rest.dropLast⟩ := by
      apply relative?_eq_some_iff.mpr
      refine ⟨rest.dropLast, List.dropLast_append_of_ne_nil hne, rfl, ?_, ?_⟩
      · cases here with
        | nil =>
          rcases hhead with hnone | hsame
          · simp only [isRooted, List.nil_append, hnone, List.head?_nil]
          · simpa only [isRooted, List.nil_append, hsame] using hrooted
        | cons first here => rfl
      · rcases hhead with hnone | hsame
        · simp [hnone]
        · rwa [hsame]
    apply List.mem_cons_of_mem
    apply List.mem_flatMap.mpr
    refine ⟨⟨"", rest.dropLast⟩, ?_, ?_⟩
    · exact List.mem_filterMap.mpr ⟨_, List.mem_append_right _
        (List.mem_map.mpr ⟨_, hfile, rfl⟩), hparent⟩
    · refine List.mem_map.mpr ⟨n, List.mem_range.mpr hlength, ?_⟩
      rw [List.dropLast_eq_take, List.take_take, Nat.min_eq_left]
      rwa [List.length_dropLast] at hlength

/-- What lies below a directory is a file. -/
theorem isFile_join (hw : w.Sound) (hlocate : w.locate? directory = some here)
    (hdir : w.isDirAt here) (hp : p ∈ w.below directory) :
  w.isFile (directory.join p)
  := by
  obtain ⟨⟨hroot, -, hnames⟩, content, hfile⟩ := of_mem_below hw hlocate hdir hp
  rw [isFile, content?, locate?_join hlocate hroot, follow_of_mem hfile hnames, Option.bind_some,
    contentAt?, Option.isSome_map, List.find?_isSome]
  exact ⟨_, hfile, by simp⟩

/-- Whether all directories at and below one can be listed, and all that lies below it can be looked
up. -/
structure IsOpen (w : Workspace) (directory : SourcePath) : Prop where
  files : ∀ p ∈ w.below directory, w.refusal? (directory.join p) = none
  dirs : ∀ p ∈ w.dirsBelow directory,
    w.refusal? (directory.join p) = none ∧ w.listFault? (directory.join p) = none

/-- Where all directories can be listed the listing comes to all files. -/
theorem IsOpen.isSeen (hopen : w.IsOpen directory) (hlocate : w.locate? directory = some here)
    (hp : p ∈ w.below directory) :
  w.isSeen directory p
  := by
  rw [Workspace.isSeen, List.all_eq_true]
  intro n hn
  rw [Option.isNone_iff_eq_none]
  exact (hopen.dirs _ (take_mem_dirsBelow hlocate hp (List.mem_range.mp hn))).2

/-- A path that is not too long can be looked up if the system does not refuse it. -/
theorem refusal?_of_isOverlong (hlookup : w.lookupFault? p = none) (h : w.isOverlong p = false) :
  w.refusal? p = none
  := by
  rw [refusal?, if_neg (by simp [h]), hlookup]
  exact ite_self none

/-- A path that can be looked up is not too long. -/
theorem isOverlong_of_refusal? (h : w.refusal? p = none) :
  w.isOverlong p = false
  := by
  rw [refusal?] at h
  split at h
  · cases h
  · rename_i hlong
    exact Bool.eq_false_iff.mpr hlong

theorem IsOpen.listRefusal? (hopen : w.IsOpen directory) (hp : p ∈ w.dirsBelow directory) :
  w.listRefusal? (directory.join p) = none
  := by
  obtain ⟨hlookup, hlist⟩ := hopen.dirs p hp
  rw [Workspace.listRefusal?, isOverlong_of_refusal? hlookup, hlist]
  rfl

end Workspace

end SingleUse
