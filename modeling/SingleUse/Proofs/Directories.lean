import SingleUse.Proofs.Walking

/-!
# Directories

The pattern for a directory is its name between slashes, with stars around them, and the pattern for
an ending has stars and a slash before it.  A star crosses slashes, and a pattern is also tried
without its start `**/`, which is as if the path had one more slash at its start.  So such patterns
are told by the components of a path: what lies below a directory has its name among them, and not
at their end.
-/

namespace SingleUse

/-! ### Between two marks -/

namespace Text

variable {mark : Char} {chars name : List Char}

/-- Of characters with a mark after them only one sort stands before the first mark of a text. -/
theorem append_mark_isPrefix_iff (hname : mark ∉ name) (h : mark ∉ chars) (rest : List Char) :
  name ++ [mark] <+: chars ++ mark :: rest ↔ name = chars
  := by
  constructor
  · rintro ⟨tail, htail⟩
    rw [List.append_assoc, List.singleton_append] at htail
    have hname := takeWhile_append_mark hname tail
    rwa [htail, takeWhile_append_mark h rest, eq_comm] at hname
  · rintro rfl
    simp

/-- What begins with a mark does not begin within characters without one. -/
theorem mark_isInfix_append_iff (h : mark ∉ chars) (rest : List Char) :
  mark :: name <:+: chars ++ rest ↔ mark :: name <:+: rest
  := by
  induction chars with
  | nil => rfl
  | cons c chars ih =>
    rw [List.mem_cons, not_or] at h
    rw [List.cons_append, List.infix_cons_iff, ih h.2, List.cons_prefix_cons]
    simp [h.1]

/-- Two marks do not stand in a text with one. -/
theorem not_between_marks (h : mark ∉ chars) :
  ¬ mark :: name ++ [mark] <:+: mark :: chars
  := by
  intro hinfix
  have hcount := hinfix.sublist.count_le mark
  rw [List.cons_append, List.count_cons_self, List.count_append, List.count_singleton_self,
    List.count_cons_self, List.count_eq_zero_of_not_mem h] at hcount
  omega

/-- Between two marks stands a piece other than the last one, if a mark is put before the first
piece. -/
theorem between_marks_iff (hname : mark ∉ name) {pieces : List (List Char)}
    (hpieces : ∀ piece ∈ pieces, mark ∉ piece) :
  mark :: name ++ [mark] <:+: mark :: [mark].intercalate pieces ↔ name ∈ pieces.dropLast
  := by
  induction pieces with
  | nil =>
    have hnone : mark ∉ [mark].intercalate [] := List.not_mem_nil
    simpa using not_between_marks hnone
  | cons piece pieces ih =>
    obtain ⟨hpiece, hrest⟩ := List.forall_mem_cons.mp hpieces
    cases pieces with
    | nil => simpa using not_between_marks hpiece
    | cons next rest =>
      rw [List.intercalate_cons_cons, List.append_assoc, List.singleton_append,
        List.infix_cons_iff, List.cons_append, List.cons_prefix_cons,
        append_mark_isPrefix_iff hname hpiece, mark_isInfix_append_iff hpiece, ← List.cons_append,
        ih hrest, List.dropLast_cons_cons, List.mem_cons]
      simp

end Text

/-! ### Patterns of stars and plain characters -/

namespace Glob

theorem takes_star (text : List Char) :
  takes [.star] text
  := takes_star_iff.mpr ⟨[], List.nil_suffix, by rw [takes]; rfl⟩

/-- A star more makes no difference. -/
theorem takes_star_star_iff {text : List Char} :
  takes (.star :: .star :: elements) text ↔ takes (.star :: elements) text
  := by
  simp only [takes_star_iff]
  constructor
  · rintro ⟨middle, hmiddle, ending, hending, htakes⟩
    exact ⟨ending, hending.trans hmiddle, htakes⟩
  · rintro ⟨ending, hending, htakes⟩
    exact ⟨text, List.suffix_rfl, ending, hending, htakes⟩

/-- Plain characters before a star match what begins with them. -/
theorem isMatch_start_iff {start : String} (hplain : ∀ c ∈ start.toList, IsPlain c)
    (text : String) :
  isMatch (start ++ "*") text ↔ start.toList <+: text.toList
  := by
  have hparse : parse (start ++ "*") = start.toList.map .char ++ [.star] := by
    rw [parse, ← String.length_toList, String.toList_append, List.length_append,
      parseUpTo_append hplain]
    rfl
  rw [isMatch, run_eq_takes, hparse, takes_append_iff]
  constructor
  · rintro ⟨rest, htext, -⟩
    rw [htext]
    exact List.prefix_append _ _
  · rintro ⟨rest, htext⟩
    exact ⟨rest, htext.symm, takes_star rest⟩

/-- Plain characters between stars match what they stand in. -/
theorem isMatch_middle_iff {middle : String} (hplain : ∀ c ∈ middle.toList, IsPlain c)
    (text : String) :
  isMatch ("**" ++ middle ++ "*") text ↔ middle.toList <:+: text.toList
  := by
  have hparse : parse ("**" ++ middle ++ "*")
      = .star :: .star :: (middle.toList.map .char ++ [.star]) := by
    have hchars : ("**" ++ middle ++ "*").toList = '*' :: '*' :: (middle.toList ++ ['*']) := by
      simp
    rw [parse, ← String.length_toList, hchars, List.length_cons, List.length_cons, parseUpTo,
      parseUpTo, List.length_append, parseUpTo_append hplain]
    rfl
  rw [isMatch, run_eq_takes, hparse, takes_star_star_iff, takes_star_iff]
  simp only [takes_append_iff]
  constructor
  · rintro ⟨ending, ⟨before, hbefore⟩, rest, rfl, -⟩
    exact ⟨before, rest, by rw [← hbefore, List.append_assoc]⟩
  · rintro ⟨before, rest, htext⟩
    rw [List.append_assoc] at htext
    exact ⟨_, ⟨before, htext⟩, rest, rfl, takes_star rest⟩

/-- A pattern that begins with two stars and a slash is also tried without them. -/
theorem matchesAny_top_iff (path rest : String) :
  matchesAny path ["**/" ++ rest] ↔ isMatch ("**/" ++ rest) path ∨ isMatch rest path
  := by
  have hchars : ("**/" ++ rest).toList = '*' :: '*' :: '/' :: rest.toList := by
    simp
  simp [matchesAny, hchars]

/-- Stars, a slash and another star before plain characters match only what ends in these. -/
theorem isSuffix_of_isMatch {ending : String} (hplain : ∀ c ∈ ending.toList, IsPlain c)
    {text : String} (h : isMatch ("**/" ++ ("*" ++ ending)) text) :
  ending.toList <:+ text.toList
  := by
  have hmark : ∀ c ∈ ['/'], IsPlain c := by
    simp [IsPlain]
  have hparse : parse ("**/" ++ ("*" ++ ending))
      = .star :: .star :: (['/'].map .char ++ .star :: ending.toList.map .char) := by
    have hchars : ("**/" ++ ("*" ++ ending)).toList
        = '*' :: '*' :: (['/'] ++ '*' :: ending.toList) := by
      simp
    rw [parse, ← String.length_toList, hchars, List.length_cons, List.length_cons, parseUpTo,
      parseUpTo, List.length_append, parseUpTo_append hmark, List.length_cons, parseUpTo,
      parseUpTo_of_isPlain hplain]
  rw [isMatch, run_eq_takes, hparse, takes_star_star_iff, takes_star_iff] at h
  obtain ⟨_, hslash, h⟩ := h
  obtain ⟨rest, rfl, hrest⟩ := takes_append_iff.mp h
  obtain ⟨last, hlast, hchars⟩ := takes_star_iff.mp hrest
  rw [takes_chars_iff.mp hchars]
  exact (hlast.trans (List.suffix_append _ _)).trans hslash

/-- A path ends in some characters exactly if the pattern for this ending matches it. -/
theorem matchesAny_ending_iff {path ending : String} (hplain : ∀ c ∈ ending.toList, IsPlain c) :
  matchesAny path ["**/*" ++ ending] ↔ ending.toList <:+ path.toList
  := by
  have hsplit : "**/*" ++ ending = "**/" ++ ("*" ++ ending) := by
    simp [← String.toList_inj]
  rw [hsplit, matchesAny_top_iff, isMatch_star_iff hplain]
  exact or_iff_right_of_imp (isSuffix_of_isMatch hplain)

end Glob

/-! ### Components of paths -/

namespace SourcePath

open Glob (IsPlain)

variable {p : SourcePath}

/-- The text of a relative path is put together from its components. -/
theorem exists_pieces (hroot : p.root = "") (hparts : ∀ part ∈ p.parts, '/' ∉ part.toList) :
  ∃ pieces : List (List Char), p.text.toList = ['/'].intercalate pieces
    ∧ (∀ piece ∈ pieces, '/' ∉ piece) ∧ pieces.dropLast = p.parts.dropLast.map String.toList
  := by
  by_cases hnone : p.parts = []
  · refine ⟨[['.']], ?_, by simp, by simp [hnone]⟩
    simp [text, hroot, hnone]
  · refine ⟨p.parts.map String.toList, ?_, by simpa using hparts, by simp⟩
    simp [text, hroot, hnone]

/-- A relative path lies below a directory with a name exactly if the pattern for this name
matches it. -/
theorem matchesAny_directory_iff (hroot : p.root = "")
    (hparts : ∀ part ∈ p.parts, '/' ∉ part.toList) {name : String}
    (hplain : ∀ c ∈ name.toList, IsPlain c) (hslash : '/' ∉ name.toList) :
  Glob.matchesAny p.text ["**/" ++ name ++ "/*"] ↔ name ∈ p.parts.dropLast
  := by
  have hmark : IsPlain '/' := ⟨by decide, by decide, by decide⟩
  have hstart : ∀ c ∈ (name ++ "/").toList, IsPlain c := by
    simpa [or_imp, forall_and, hmark] using hplain
  have hmiddle : ∀ c ∈ ("/" ++ name ++ "/").toList, IsPlain c := by
    simpa [or_imp, forall_and, hmark] using hplain
  have hsplit : "**/" ++ name ++ "/*" = "**/" ++ (name ++ "/" ++ "*") := by
    simp [← String.toList_inj]
  have hsplit' : "**/" ++ (name ++ "/" ++ "*") = "**" ++ ("/" ++ name ++ "/") ++ "*" := by
    simp [← String.toList_inj]
  obtain ⟨pieces, htext, hpieces, hdrop⟩ := exists_pieces hroot hparts
  calc Glob.matchesAny p.text ["**/" ++ name ++ "/*"] = true
    _ ↔ '/' :: name.toList ++ ['/'] <:+: '/' :: p.text.toList := by
      rw [hsplit, Glob.matchesAny_top_iff, hsplit', Glob.isMatch_middle_iff hmiddle,
        Glob.isMatch_start_iff hstart, List.cons_append, List.infix_cons_iff,
        List.cons_prefix_cons, or_comm]
      simp
    _ ↔ name.toList ∈ pieces.dropLast := by
      rw [htext]
      exact Text.between_marks_iff hslash hpieces
    _ ↔ name ∈ p.parts.dropLast := by
      rw [hdrop, List.mem_map_of_injective fun s t => String.toList_inj.mp]

/-- The patterns for a directory and for an ending match a relative path exactly if the name of the
directory is one of its components before the last one, or if the path ends so. -/
theorem matchesAny_text_iff (hroot : p.root = "") (hparts : ∀ part ∈ p.parts, '/' ∉ part.toList) :
  (∀ name : String, (∀ c ∈ name.toList, IsPlain c) → '/' ∉ name.toList →
      (Glob.matchesAny p.text ["**/" ++ name ++ "/*"] ↔ name ∈ p.parts.dropLast))
    ∧ ∀ ending : String, (∀ c ∈ ending.toList, IsPlain c) →
      (Glob.matchesAny p.text ["**/*" ++ ending] ↔ ending.toList <:+ p.text.toList)
  := by
  constructor
  · intro name hplain hslash
    exact matchesAny_directory_iff hroot hparts hplain hslash
  · intro ending hplain
    exact Glob.matchesAny_ending_iff hplain

/-- A file in a directory `dist` is matched, but not one that is called so itself or lies in a
directory whose name only ends so. -/
theorem matchesAny_text_iff_dist :
  (∀ part ∈ ["web", "dist", "app.js"], '/' ∉ part.toList)
    ∧ Glob.matchesAny (text ⟨"", ["web", "dist", "app.js"]⟩) ["**/dist/*"]
    ∧ Glob.matchesAny (text ⟨"", ["web", "dist", "app.js"]⟩) ["**/*.js"]
    ∧ (∀ part ∈ ["redist", "dist"], '/' ∉ part.toList)
    ∧ ¬ Glob.matchesAny (text ⟨"", ["redist", "dist"]⟩) ["**/dist/*"]
  := by
  have hparts : ∀ part ∈ ["web", "dist", "app.js"], '/' ∉ part.toList := by decide
  have hothers : ∀ part ∈ ["redist", "dist"], '/' ∉ part.toList := by decide
  have hplain : ∀ name ∈ ["dist", ".js"], ∀ c ∈ name.toList, IsPlain c := by
    simp [IsPlain]
  have hslash : '/' ∉ "dist".toList := by decide
  obtain ⟨hdirectory, hending⟩ := @matchesAny_text_iff ⟨"", _⟩ rfl hparts
  have hdist := hplain "dist" (by simp)
  refine ⟨hparts, ?_, ?_, hothers, ?_⟩
  · exact (hdirectory "dist" hdist hslash).mpr (by decide)
  · exact (hending ".js" (hplain ".js" (by simp))).mpr (by decide)
  · intro h
    have hmem := ((@matchesAny_text_iff ⟨"", _⟩ rfl hothers).1 "dist" hdist hslash).mp h
    exact absurd hmem (by decide)

end SourcePath

end SingleUse
