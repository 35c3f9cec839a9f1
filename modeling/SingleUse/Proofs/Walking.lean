import SingleUse.Discovery
import SingleUse.Proofs.Completion
import SingleUse.Proofs.Locating
import SingleUse.Proofs.Reporting
import SingleUse.Proofs.Transcoding
import Mathlib.Data.List.TakeWhile

/-!
# Walking

A walk through a directory looks at the names of all files below it, or at the paths that the
version control system lists.  The names are held against the extensions of the languages as they
are, but the listed paths in lowercase.  So even where all files are listed, and nothing else, a
file whose extension is not in lowercase is found in the listing only.
-/

namespace SingleUse

/-! ### Patterns of a star and an ending -/

namespace Glob

/-- Whether a character stands for itself in patterns. -/
def IsPlain (c : Char) : Prop := c ≠ '*' ∧ c ≠ '?' ∧ c ≠ '['

/-- Plain characters are read one by one. -/
theorem parseUpTo_append {chars : List Char} (hplain : ∀ c ∈ chars, IsPlain c) (n : Nat)
    (rest : List Char) :
  parseUpTo (chars.length + n) (chars ++ rest) = chars.map .char ++ parseUpTo n rest
  := by
  induction chars with
  | nil => simp
  | cons c chars ih =>
    obtain ⟨⟨hstar, hany, hbracket⟩, hrest⟩ := List.forall_mem_cons.mp hplain
    rw [List.length_cons, Nat.succ_add, List.cons_append, parseUpTo.eq_6 _ _ _ hstar hany hbracket,
      ih hrest, List.map_cons, List.cons_append]

theorem parseUpTo_of_isPlain {chars : List Char} (hplain : ∀ c ∈ chars, IsPlain c) :
  parseUpTo chars.length chars = chars.map .char
  := by
  have hread := parseUpTo_append hplain 0 []
  rwa [List.append_nil, Nat.add_zero, parseUpTo, List.append_nil] at hread

/-- Plain characters take themselves, and what comes after them takes the rest. -/
theorem takes_append_iff {chars text : List Char} {elements : List Element} :
  takes (chars.map .char ++ elements) text ↔ ∃ rest, text = chars ++ rest ∧ takes elements rest
  := by
  induction chars generalizing text with
  | nil => simp
  | cons c chars ih =>
    cases text with
    | nil => simp [takes]
    | cons d text =>
      have hstep : takes (.char c :: (chars.map .char ++ elements)) (d :: text)
          ↔ c = d ∧ takes (chars.map .char ++ elements) text := by
        simp [takes, Element.accepts]
      rw [List.map_cons, List.cons_append, hstep, ih]
      simp [and_assoc, eq_comm (a := c)]

theorem takes_chars_iff {chars text : List Char} :
  takes (chars.map .char) text ↔ chars = text
  := by
  rw [← List.append_nil (chars.map _), takes_append_iff, eq_comm]
  simp only [takes, List.isEmpty_iff, exists_eq_right, List.append_nil]

/-- After a star the rest of a pattern takes some end of the text. -/
theorem takes_star_iff {elements : List Element} {text : List Char} :
  takes (.star :: elements) text ↔ ∃ ending, ending <:+ text ∧ takes elements ending
  := by
  induction text with
  | nil => simp [takes]
  | cons c rest ih =>
    rw [takes, Bool.or_eq_true, ih]
    constructor
    · rintro (hall | ⟨ending, hending, htakes⟩)
      · exact ⟨c :: rest, List.suffix_rfl, hall⟩
      · exact ⟨ending, hending.trans (List.suffix_cons c rest), htakes⟩
    · rintro ⟨ending, hending, htakes⟩
      rcases List.suffix_cons_iff.mp hending with rfl | hending
      · exact .inl htakes
      · exact .inr ⟨ending, hending, htakes⟩

/-- A star and plain characters match the texts that end in these characters. -/
theorem isMatch_star_iff {ending : String} (hplain : ∀ c ∈ ending.toList, IsPlain c)
    (text : String) :
  isMatch ("*" ++ ending) text ↔ ending.toList <:+ text.toList
  := by
  have hparse : parse ("*" ++ ending) = .star :: ending.toList.map .char := by
    have hchars : ("*" ++ ending).toList = '*' :: ending.toList := by
      simp
    have hlength : ("*" ++ ending).length = ending.length + 1 := by
      rw [String.length_append, Nat.add_comm]
      rfl
    rw [parse, hchars, hlength, parseUpTo,
      ← String.length_toList, parseUpTo_of_isPlain hplain]
  rw [isMatch, run_eq_takes, hparse, takes_star_iff]
  simp [takes_chars_iff]

end Glob

/-! ### Endings in lowercase -/

namespace Text

/-- The lowercase form of a text ends with that of its second part, which may depend on what stands
before. -/
theorem exists_lowerAfter_append (before first second : List Char) :
  ∃ start, lowerAfter before (first ++ second)
    = start ++ lowerAfter (first.reverse ++ before) second
  := by
  induction first generalizing before with
  | nil => exact ⟨[], rfl⟩
  | cons c rest ih =>
    obtain ⟨start, hstart⟩ := ih (c :: before)
    rw [List.cons_append, lowerAfter, hstart, ← List.append_assoc]
    use (if c = 'Σ' ∧ endsWord before (rest ++ second) then ['ς'] else lowerChar c) ++ start
    simp

/-- Without a capital sigma each character is taken by itself. -/
theorem lowerAfter_eq_flatMap {text : List Char} (hsigma : 'Σ' ∉ text) (before : List Char) :
  lowerAfter before text = text.flatMap lowerChar
  := by
  induction text generalizing before with
  | nil => rfl
  | cons c rest ih =>
    rw [List.mem_cons, not_or] at hsigma
    rw [lowerAfter, if_neg fun h => hsigma.1 h.1.symm, ih hsigma.2, List.flatMap_cons]

/-- A capital sigma becomes one of the small ones. -/
theorem sigma_mem_lowerAfter {text : List Char} (hsigma : 'Σ' ∈ text) (before : List Char) :
  'σ' ∈ lowerAfter before text ∨ 'ς' ∈ lowerAfter before text
  := by
  induction text generalizing before with
  | nil => cases hsigma
  | cons c rest ih =>
    rw [lowerAfter, List.mem_append, List.mem_append]
    rcases List.mem_cons.mp hsigma with rfl | hrest
    · have hlower : lowerChar 'Σ' = ['σ'] := by decide +kernel
      split
      · exact .inr (.inl (by simp))
      · exact .inl (.inl (by simp [hlower]))
    · rcases ih hrest (c :: before) with h | h
      · exact .inl (.inr h)
      · exact .inr (.inr h)

/-- The lowercase form of a text ends with that of its end, if there is no capital sigma. -/
theorem lower_isSuffix {text ending : String} (hending : ending.toList <:+ text.toList)
    (hsigma : 'Σ' ∉ ending.toList) :
  (lower ending).toList <:+ (lower text).toList
  := by
  obtain ⟨first, hfirst⟩ := hending
  obtain ⟨start, hstart⟩ := exists_lowerAfter_append [] first ending.toList
  rw [lower, lower, String.toList_ofList, String.toList_ofList, ← hfirst, hstart,
    lowerAfter_eq_flatMap hsigma, lowerAfter_eq_flatMap hsigma]
  exact List.suffix_append _ _

end Text

namespace SourcePath

/-- The extension of a name that ends in a dot and characters other than dots. -/
theorem suffixOf_append {first letters : List Char} (hdot : '.' ∉ letters) :
  suffixOf (first ++ '.' :: letters)
    = if letters = [] ∨ first = [] then [] else '.' :: letters
  := by
  have htail : ((first ++ '.' :: letters).reverse.takeWhile (· ≠ '.')).reverse = letters := by
    rw [List.reverse_append, List.reverse_cons, List.append_assoc, List.singleton_append,
      Text.takeWhile_append_mark (by simpa using hdot), List.reverse_reverse]
  have hlength : (first ++ '.' :: letters).length ≤ letters.length + 1 ↔ first = [] := by
    rw [← List.length_eq_zero_iff, List.length_append, List.length_cons]
    omega
  simp only [suffixOf, htail, hlength]

/-- The extension is the end of a name. -/
theorem suffixOf_isSuffix (name : List Char) :
  suffixOf name <:+ name
  := by
  by_cases hdot : '.' ∈ name
  · obtain ⟨letters, first, hname, hletters⟩ :=
      List.eq_append_cons_of_mem (List.mem_reverse.mpr hdot)
    rw [List.reverse_eq_iff] at hname
    rw [List.reverse_append, List.reverse_cons, List.append_assoc, List.singleton_append] at hname
    rw [hname, suffixOf_append (by simpa using hletters)]
    split
    · exact List.nil_suffix
    · exact List.suffix_append _ _
  · have htail : (name.reverse.takeWhile (· ≠ '.')).reverse = name := by
      rw [List.takeWhile_eq_self_iff.mpr, List.reverse_reverse]
      intro c hc
      exact decide_eq_true fun heq => hdot (heq ▸ List.mem_reverse.mp hc)
    simp only [suffixOf, htail]
    rw [if_pos (.inr (Nat.le_succ _))]
    exact List.nil_suffix

end SourcePath

/-! ### Languages with plain extensions -/

/-- Whether all extensions are a dot and characters in lowercase that patterns do not know. -/
def Languages.IsPlain (ls : Languages) : Prop :=
  ∀ extension ∈ ls.extensions, Text.lower extension = extension
    ∧ ∃ letters, extension.toList = '.' :: letters
      ∧ ∀ c ∈ letters, Glob.IsPlain c ∧ c ≠ '.' ∧ c ≠ 'σ' ∧ c ≠ 'ς'

namespace Languages

variable {ls : Languages} {p : SourcePath}

/-- The extensions of the default languages are plain. -/
theorem isPlain_default : Languages.default.IsPlain := by
  have hall : ∀ extension ∈ Languages.default.extensions, Text.lower extension = extension
      ∧ extension.toList = '.' :: extension.toList.tail
      ∧ extension.toList.tail.all Char.isLower := by
    decide +kernel
  intro extension hextension
  obtain ⟨hlower, hdot, hletters⟩ := hall extension hextension
  refine ⟨hlower, extension.toList.tail, hdot, ?_⟩
  intro c hc
  have hletter := List.all_eq_true.mp hletters c hc
  refine ⟨⟨?_, ?_, ?_⟩, ?_, ?_, ?_⟩
  all_goals
    rintro rfl
    revert hletter
    decide

theorem isSupported_iff : ls.isSupported p ↔ Text.lower p.suffix ∈ ls.extensions := by
  simp [isSupported, route?, extensions]

variable (hls : ls.IsPlain)
include hls

theorem IsPlain.isMatch_star_iff {extension : String} (hextension : extension ∈ ls.extensions)
    (text : String) :
  Glob.isMatch ("*" ++ extension) text ↔ extension.toList <:+ text.toList
  := by
  obtain ⟨-, letters, heq, hletters⟩ := hls extension hextension
  apply Glob.isMatch_star_iff
  rw [heq]
  intro c hc
  rcases List.mem_cons.mp hc with rfl | hc
  · exact ⟨by decide, by decide, by decide⟩
  · exact (hletters c hc).1

/-- The path of a file with a language ends in an extension once it is in lowercase. -/
theorem IsPlain.exists_isSuffix_lower (hsupported : ls.isSupported p) (hparts : p.parts ≠ []) :
  ∃ extension ∈ ls.extensions, extension.toList <:+ (Text.lower p.text).toList
  := by
  have hextension := isSupported_iff.mp hsupported
  use Text.lower p.suffix, hextension
  apply Text.lower_isSuffix
  · rw [SourcePath.suffix, String.toList_ofList]
    exact (SourcePath.suffixOf_isSuffix _).trans (p.name_isSuffix_text hparts)
  · -- A capital sigma would leave a small one behind, which no extension has.
    obtain ⟨-, letters, heq, hletters⟩ := hls _ hextension
    intro hsigma
    have hchars : Text.lowerAfter [] p.suffix.toList = '.' :: letters := by
      rw [← heq, Text.lower, String.toList_ofList]
    have hsmall := Text.sigma_mem_lowerAfter hsigma []
    rw [hchars, List.mem_cons, List.mem_cons] at hsmall
    rcases hsmall with (hdot | hmem) | (hdot | hmem)
    · exact absurd hdot (by decide)
    · exact (hletters _ hmem).2.2.1 rfl
    · exact absurd hdot (by decide)
    · exact (hletters _ hmem).2.2.2 rfl

/-- The name of a file with a language ends in an extension as it is exactly if its own extension
is in lowercase. -/
theorem IsPlain.exists_isSuffix_name_iff (hsupported : ls.isSupported p) :
  (∃ extension ∈ ls.extensions, extension.toList <:+ p.name.toList)
    ↔ Text.lower p.suffix = p.suffix
  := by
  constructor
  · rintro ⟨extension, hextension, first, hname⟩
    obtain ⟨hlower, letters, heq, hletters⟩ := hls extension hextension
    have hdot : '.' ∉ letters := fun h => (hletters '.' h).2.1 rfl
    rw [SourcePath.suffix, ← hname, heq, SourcePath.suffixOf_append hdot]
    split
    · rfl
    · rw [← heq, String.ofList_toList, hlower]
  · intro hlower
    use p.suffix
    rw [← hlower]
    use isSupported_iff.mp hsupported
    rw [hlower, SourcePath.suffix, String.toList_ofList]
    exact SourcePath.suffixOf_isSuffix _

end Languages

/-! ### Walks -/

/-- Whether all extra patterns are texts. -/
def Exclusions.Textual (e : Exclusions) : Prop := ∀ pattern ∈ e.extra, ∃ s, pattern = .text s

namespace Discovery

variable {d : Discovery} {w : Workspace} {directory p : SourcePath} {listing : String}

/-- Whether a walk takes a file that it has found. -/
def Takes (d : Discovery) (p : SourcePath) : Prop :=
  d.languages.isSupported p ∧ d.exclusions.excludes d.languages p = .ok false

/-- Whether a path is taken from a listing. -/
def Lists (d : Discovery) (p : SourcePath) : Prop :=
  ∃ extension ∈ d.languages.extensions, Glob.isMatch ("*" ++ extension) (Text.lower p.text)

/-- Whether a file is found by its name. -/
def Scans (d : Discovery) (p : SourcePath) : Prop :=
  ∃ extension ∈ d.languages.extensions, Glob.isMatch ("*" ++ extension) p.name

theorem isNamed_iff : d.isNamed p ↔ d.Scans p
  := by
  rw [isNamed, List.any_eq_true, Scans]

/-- Where the extra patterns are texts, it can be told of each path whether it is excluded. -/
theorem exists_excludes (hextra : d.exclusions.Textual)
    (p : SourcePath) :
  ∃ answer, d.exclusions.excludes d.languages p = .ok answer
  := by
  obtain ⟨texts, htexts, -⟩ := @exists_mapM _ _ Exclusions.asText (fun _ => True)
    d.exclusions.extra (by
      intro pattern hpattern
      obtain ⟨s, rfl⟩ := hextra pattern hpattern
      exact ⟨s, rfl, trivial⟩)
  rw [Exclusions.excludes]
  split
  · exact ⟨true, rfl⟩
  · rw [Exclusions.patterns, htexts]
    exact ⟨_, rfl⟩

/-- Whether a path is excluded, told by the patterns in any order. -/
theorem excludes_eq {e : Exclusions} {languages : Languages} {language : Language}
    {texts : List String} (htexts : e.extra.mapM Exclusions.asText = .ok texts)
    (hlanguage : languages.ofPath? p = some language) :
  e.excludes languages p = .ok (Glob.matchesAny p.text (e.common
      ++ Exclusions.ofGroup language.exclusionKey ++ texts
      ++ if e.includeTests then [] else Exclusions.testsOfGroup language.exclusionKey)
    || language.excludes p.text)
  := by
  have hany : ∀ patterns : List String, Glob.matchesAny p.text
      (patterns.eraseDups.mergeSort fun a b => a ≤ b) = Glob.matchesAny p.text patterns := by
    intro patterns
    rw [Bool.eq_iff_iff, Glob.matchesAny, Glob.matchesAny, List.any_eq_true, List.any_eq_true]
    simp only [List.mem_mergeSort, List.mem_eraseDups]
  rw [Exclusions.excludes, hlanguage, ← hany]
  dsimp only
  rw [Exclusions.patterns, htexts]
  rfl

/-- What a walk has found before it looks at languages and exclusions. -/
def candidates (d : Discovery) (w : Workspace) (directory : SourcePath) :
    Except Error (List SourcePath) :=
  match d.listing directory with
  | some listing => d.tracked w directory listing
  | none => d.scanned w directory

theorem walk_eq (d : Discovery) (w : Workspace) (directory : SourcePath) :
  d.walk w directory = (do
    let found ← d.candidates w directory
    let kept ← (found.filter d.languages.isSupported).filterM fun path =>
      (d.exclusions.excludes d.languages path).map not
    return kept.map directory.join)
  := by
  rw [walk, candidates]
  cases d.listing directory <;> rfl

/-- A walk comes to its end if it has found candidates, and takes some of them. -/
theorem exists_walk (hextra : d.exclusions.Textual)
    {found : List SourcePath} (hfound : d.candidates w directory = .ok found) :
  ∃ walked, d.walk w directory = .ok walked
    ∧ ∀ path, path ∈ walked ↔ ∃ p ∈ found, d.Takes p ∧ directory.join p = path
  := by
  obtain ⟨kept, hkept⟩ : ∃ kept, (found.filter d.languages.isSupported).filterM (fun path =>
      (d.exclusions.excludes d.languages path).map not) = .ok kept := by
    apply exists_filterM
    intro p _
    obtain ⟨answer, hanswer⟩ := exists_excludes hextra p
    exact ⟨!answer, by rw [hanswer]; rfl⟩
  use kept.map directory.join
  constructor
  · rw [walk_eq, hfound]
    simp only [bind, Except.bind, hkept]
    rfl
  · have hmem : ∀ p, p ∈ kept ↔ p ∈ found ∧ d.Takes p := by
      intro p
      obtain ⟨answer, hanswer⟩ := exists_excludes hextra p
      rw [filterM_eq hkept, Takes, hanswer]
      simp [hanswer, Except.map, Except.toOption, and_comm]
    intro path
    simp only [List.mem_map, hmem, and_assoc]

/-- A listing of all files below a directory, and of nothing else. -/
structure IsListing (w : Workspace) (directory : SourcePath) (listing : String) : Prop where
  lines : ∀ line, line ∈ Text.bareLines listing ↔ ∃ p ∈ w.below directory, p.text = line
  trim : ∀ p ∈ w.below directory, Text.trim p.text = p.text

theorem mem_listed_iff (hw : w.Sound) {here : List String}
    (hlocate : w.locate? directory = some here) (hdir : w.isDirAt here)
    (hlisting : IsListing w directory listing) :
  p ∈ d.listed listing ↔ p ∈ w.below directory ∧ d.Lists p
  := by
  have hread : ∀ {p}, p ∈ w.below directory → p.text ≠ "" ∧ SourcePath.ofText p.text = p := by
    rintro ⟨root, parts⟩ hp
    obtain ⟨⟨rfl, hne, hnames⟩, -⟩ := Workspace.of_mem_below hw hlocate hdir hp
    exact ⟨SourcePath.text_ne_empty hnames hne, SourcePath.ofText_text hnames hne⟩
  rw [listed, List.mem_filterMap]
  constructor
  · rintro ⟨line, hline, hp⟩
    obtain ⟨q, hq, rfl⟩ := (hlisting.lines line).mp hline
    rw [hlisting.trim q hq] at hp
    dsimp only at hp
    split at hp
    · rename_i htaken
      rw [(hread hq).2] at hp
      obtain rfl := Option.some.inj hp
      rw [Bool.and_eq_true, List.any_eq_true] at htaken
      exact ⟨hq, htaken.2⟩
    · cases hp
  · rintro ⟨hp, hlists⟩
    refine ⟨p.text, (hlisting.lines _).mpr ⟨p, hp, rfl⟩, ?_⟩
    dsimp only
    rw [hlisting.trim p hp, if_pos, (hread hp).2]
    rw [Bool.and_eq_true, List.any_eq_true]
    exact ⟨decide_eq_true (hread hp).1, hlists⟩

/-- A walk that reads a full listing takes the files that the listing gives. -/
theorem exists_walk_listed (hw : w.Sound) (hdir : w.isDir directory)
    (hextra : d.exclusions.Textual)
    (hlisting : IsListing w directory listing)
    (hopen : w.IsOpen directory) :
  ∃ walked, { d with listing := fun _ => some (Utf8.encode listing) }.walk w directory = .ok walked
    ∧ ∀ path, path ∈ walked ↔
      ∃ p ∈ w.below directory, d.Lists p ∧ d.Takes p ∧ directory.join p = path
  := by
  obtain ⟨here, hlocate, hhere⟩ := Workspace.isDir_iff.mp hdir
  have hlisted := fun p => @mem_listed_iff d w directory p listing hw here hlocate hhere hlisting
  have htracked : d.tracked w directory (Utf8.encode listing) = .ok (d.listed listing) := by
    have hfiles : (d.listed listing).filter (fun path => w.isFile (directory.join path))
        = d.listed listing := by
      rw [List.filter_eq_self]
      intro p hp
      exact Workspace.isFile_join hw hlocate hhere ((hlisted p).mp hp).1
    have hnone : (d.listed listing).findSome? (fun path => w.refusal? (directory.join path))
        = none := by
      rw [List.findSome?_eq_none_iff]
      exact fun p hp => hopen.files p ((hlisted p).mp hp).1
    rw [tracked, Utf8.decode_encode]
    simp only [hnone, hfiles]
  obtain ⟨walked, hwalk, hmem⟩ :=
    @exists_walk { d with listing := fun _ => some (Utf8.encode listing) } w directory hextra _
      htracked
  use walked, hwalk
  intro path
  rw [hmem]
  apply exists_congr
  intro p
  rw [hlisted, and_assoc]
  rfl

/-- A walk without a listing takes the files that are found by their names. -/
theorem exists_walk_scanned (hdir : w.isDir directory)
    (hextra : d.exclusions.Textual)
    (hopen : w.IsOpen directory) :
  ∃ walked, { d with listing := fun _ => none }.walk w directory = .ok walked
    ∧ ∀ path, path ∈ walked ↔
      ∃ p ∈ w.below directory, d.Scans p ∧ d.Takes p ∧ directory.join p = path
  := by
  obtain ⟨here, hlocate, -⟩ := Workspace.isDir_iff.mp hdir
  have hscanned : d.scanned w directory
      = .ok (SourcePath.sortedSet ((w.below directory).filter (d.isScanned w directory))) := by
    have hunlisted : (d.scannedDirs w directory).findSome? (fun path =>
        w.listRefusal? (directory.join path)) = none := by
      rw [List.findSome?_eq_none_iff]
      intro p hp
      rw [scannedDirs] at hp
      split at hp
      · cases hp
      · exact hopen.listRefusal? (List.mem_of_mem_filter hp)
    have hrefused : (d.scannedPaths w directory).findSome? (fun path =>
        w.refusal? (directory.join path)) = none := by
      rw [List.findSome?_eq_none_iff]
      intro p hp
      rcases List.mem_append.mp (List.mem_of_mem_filter hp) with hfile | hdir
      · exact hopen.files p hfile
      · exact (hopen.dirs p hdir).1
    simp only [scanned, hunlisted, hrefused, Option.or_none]
  obtain ⟨walked, hwalk, hmem⟩ :=
    @exists_walk { d with listing := fun _ => none } w directory hextra _ hscanned
  use walked, hwalk
  intro path
  rw [hmem]
  apply exists_congr
  intro p
  rw [SourcePath.mem_sortedSet, List.mem_filter, and_assoc]
  apply and_congr_right
  intro hp
  rw [isScanned, hopen.isSeen hlocate hp, Bool.and_true, isNamed_iff]
  rfl

/-- Where a listing gives all files below a directory and nothing else, and nothing is refused
there, a walk that reads it and one that looks at the names both come to their end.  They take the
same files exactly if the files that are taken at all are listed and found alike.  With plain
extensions the listing never gives less than the names, and it gives more exactly if a file that is
taken has an extension that is not in lowercase. -/
theorem walk_listed_iff (hw : w.Sound) (hdir : w.isDir directory)
    (hextra : d.exclusions.Textual)
    (hlisting : IsListing w directory listing)
    (hopen : w.IsOpen directory) :
  ∃ listed scanned,
    { d with listing := fun _ => some (Utf8.encode listing) }.walk w directory = .ok listed
    ∧ { d with listing := fun _ => none }.walk w directory = .ok scanned
    ∧ ((∀ path, path ∈ listed ↔ path ∈ scanned) ↔
      ∀ p ∈ w.below directory, d.Takes p → (d.Lists p ↔ d.Scans p))
    ∧ (d.languages.IsPlain →
      (∀ path ∈ scanned, path ∈ listed)
        ∧ ((∀ path, path ∈ listed ↔ path ∈ scanned) ↔
          ∀ p ∈ w.below directory, d.Takes p → Text.lower p.suffix = p.suffix))
  := by
  obtain ⟨listed, hlistedWalk, hlisted⟩ := exists_walk_listed hw hdir hextra hlisting hopen
  obtain ⟨scanned, hscannedWalk, hscanned⟩ := exists_walk_scanned hdir hextra hopen
  obtain ⟨here, hlocate, hhere⟩ := Workspace.isDir_iff.mp hdir
  have hagree : (∀ path, path ∈ listed ↔ path ∈ scanned) ↔
      ∀ p ∈ w.below directory, d.Takes p → (d.Lists p ↔ d.Scans p) := by
    have hroot : ∀ p ∈ w.below directory, p.root = "" := fun p hp =>
      (Workspace.of_mem_below hw hlocate hhere hp).1.1
    constructor
    · intro h p hp htakes
      have hpath := h (directory.join p)
      rw [hlisted, hscanned] at hpath
      constructor
      · intro hlists
        obtain ⟨q, hq, hscans, -, heq⟩ := hpath.mp ⟨p, hp, hlists, htakes, rfl⟩
        rwa [← SourcePath.eq_of_join_eq (hroot q hq) (hroot p hp) heq]
      · intro hscans
        obtain ⟨q, hq, hlists, -, heq⟩ := hpath.mpr ⟨p, hp, hscans, htakes, rfl⟩
        rwa [← SourcePath.eq_of_join_eq (hroot q hq) (hroot p hp) heq]
    · intro h path
      rw [hlisted, hscanned]
      constructor
      · rintro ⟨p, hp, hlists, htakes, heq⟩
        exact ⟨p, hp, (h p hp htakes).mp hlists, htakes, heq⟩
      · rintro ⟨p, hp, hscans, htakes, heq⟩
        exact ⟨p, hp, (h p hp htakes).mpr hscans, htakes, heq⟩
  use listed, scanned, hlistedWalk, hscannedWalk, hagree
  intro hplain
  have hlists : ∀ p ∈ w.below directory, d.Takes p → d.Lists p := by
    intro p hp htakes
    obtain ⟨⟨-, hparts, -⟩, -⟩ := Workspace.of_mem_below hw hlocate hhere hp
    obtain ⟨extension, hextension, hending⟩ := hplain.exists_isSuffix_lower htakes.1 hparts
    exact ⟨extension, hextension, (hplain.isMatch_star_iff hextension _).mpr hending⟩
  have hscans : ∀ p, d.Takes p → (d.Scans p ↔ Text.lower p.suffix = p.suffix) := by
    intro p htakes
    rw [← hplain.exists_isSuffix_name_iff htakes.1]
    apply exists_congr
    intro extension
    apply and_congr_right
    intro hextension
    exact hplain.isMatch_star_iff hextension _
  constructor
  · intro path hpath
    obtain ⟨p, hp, -, htakes, rfl⟩ := (hscanned path).mp hpath
    exact (hlisted _).mpr ⟨p, hp, hlists p hp htakes, htakes, rfl⟩
  · rw [hagree]
    constructor
    · intro h p hp htakes
      exact (hscans p htakes).mp ((h p hp htakes).mp (hlists p hp htakes))
    · intro h p hp htakes
      exact iff_of_true (hlists p hp htakes) ((hscans p htakes).mpr (h p hp htakes))

/-- A workspace with two files, one of which has its extension in capitals. -/
def capitals : Workspace where
  files := [(["A.JS"], .bytes []), (["sub", "b.js"], .bytes [])]

theorem sound_capitals : capitals.Sound :=
  Workspace.sound_of_isName (by decide) (by decide)

/-- The file with the extension in capitals is found in the listing only. -/
theorem walk_listed_iff_capitals :
  (capitals.Sound ∧ capitals.isDir {} ∧ IsListing capitals {} "A.JS\nsub/b.js\n"
    ∧ capitals.IsOpen {})
    ∧ ∃ listed scanned,
      ({ listing := fun _ => some (Utf8.encode "A.JS\nsub/b.js\n") } : Discovery).walk capitals {}
          = .ok listed
        ∧ ({ listing := fun _ => none } : Discovery).walk capitals {} = .ok scanned
        ∧ ¬ ∀ path, path ∈ listed ↔ path ∈ scanned
  := by
  have hbelow : capitals.below {} = [⟨"", ["A.JS"]⟩, ⟨"", ["sub", "b.js"]⟩] := by decide
  have hlisting : IsListing capitals {} "A.JS\nsub/b.js\n" := by
    constructor
    · have hlines : Text.bareLines "A.JS\nsub/b.js\n" = ["A.JS", "sub/b.js"] := by decide +kernel
      have htexts : (capitals.below {}).map SourcePath.text = ["A.JS", "sub/b.js"] := by
        decide +kernel
      intro line
      rw [hlines, ← htexts, List.mem_map]
    · rw [hbelow]
      decide +kernel
  have hopen : capitals.IsOpen {} := by
    constructor
    · intro p hp
      apply Workspace.refusal?_of_isOverlong rfl
      rw [hbelow] at hp
      revert p
      decide +kernel
    · intro p hp
      refine ⟨Workspace.refusal?_of_isOverlong rfl ?_, rfl⟩
      revert p
      decide +kernel
  obtain ⟨listed, scanned, hlisted, hscanned, -, hplain⟩ :=
    @walk_listed_iff {} capitals {} _ sound_capitals (by decide) nofun hlisting hopen
  use ⟨sound_capitals, by decide, hlisting, hopen⟩, listed, scanned, hlisted, hscanned
  rw [(hplain Languages.isPlain_default).2]
  intro h
  have htakes : Takes {} ⟨"", ["A.JS"]⟩ := by
    use by decide +kernel
    rw [@excludes_eq _ _ _ .javascript [] rfl rfl]
    decide +kernel
  have hlower := h ⟨"", ["A.JS"]⟩ (by simp [hbelow]) htakes
  exact absurd hlower (by decide +kernel)

end Discovery

end SingleUse
