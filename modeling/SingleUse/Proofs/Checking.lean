import SingleUse.Proofs.Collecting
import SingleUse.Proofs.Passes

/-!
# Checking files

A check of several files is complete: each file has all its findings in the report, or one failure
that says why it cannot be checked, and the outcome of a file is told by that file only.  The page
of findings and failures can always be shown, and the status says whether there are failures and
whether there are findings.
-/

namespace SingleUse

/-! ### Runs -/

namespace Run

variable {α β : Type} {world world' : World} {x : Run α} {f : α → Run β}

/-- A step that gives a result goes on from the world that it leaves. -/
theorem bind_of_ok {a : α} (h : x.run.run world = (.ok a, world')) :
  (x >>= f).run.run world = (f a).run.run world'
  := by
  rw [ExceptT.run_bind, StateT.run_bind, h]
  rfl

/-- A step that fails ends the run. -/
theorem bind_of_error {e : Error} (h : x.run.run world = (.error e, world')) :
  (x >>= f).run.run world = (.error e, world')
  := by
  rw [ExceptT.run_bind, StateT.run_bind, h]
  rfl

theorem run_workspace (world : World) :
  workspace.run.run world = (.ok world.workspace, world)
  := rfl

theorem run_monadLift (x : Except Error α) (world : World) :
  (monadLift x : Run α).run.run world = (x, world)
  := rfl

theorem run_pure (a : α) (world : World) :
  (pure a : Run α).run.run world = (.ok a, world)
  := rfl

theorem run_print (s : Outside) (line : String) (world : World) :
  (print s line).run.run world
    = (.ok (), { world with output := world.output ++ s.encoding.written (line ++ "\n") })
  := rfl

end Run

/-! ### Pages -/

namespace Page

theorem contents_list (items : List Value) :
  contents (.list items) = .ok items
  := by
  have hcontents : (Value.list items).contents? = some items := by
    cases items <;> rfl
  rw [contents, hcontents]

/-- The path of a finding is a text. -/
theorem exists_textOf_pathOf (f : Finding) :
  ∃ entries, entriesOf f.value = .ok entries ∧ ∃ text, pathOf entries = .text text
  := by
  obtain ⟨name, path, start, stop, fix, fingerprint⟩ := f
  refine ⟨_, rfl, ?_⟩
  cases path with
  | none => exact ⟨_, rfl⟩
  | some s =>
    change ∃ text, (if (Value.text s).truthy then Value.text s else .text "<source>") = .text text
    split <;> exact ⟨_, rfl⟩

end Page

namespace View

/-- A page of findings and failures can be shown in every format. -/
theorem exists_render (view : View) (format : Format) (tally : Tally) (files : Nat)
    (emptyMessage : String) :
  ∃ text, view.render { Lint.page tally files with emptyMessage } format = .ok text
  := by
  have hitems : ({ Lint.page tally files with emptyMessage } : Page).items
      = .ok (tally.findings.map Finding.value) := Page.contents_list _
  have herrors : ({ Lint.page tally files with emptyMessage } : Page).errors
      = .ok (tally.failures.map Failure.value) := Page.contents_list _
  obtain ⟨failures, hfailures, -⟩ := @exists_mapM _ _ Page.entriesOf (fun _ => True)
    (tally.failures.map Failure.value) (by
      intro value hvalue
      obtain ⟨failure, -, rfl⟩ := List.mem_map.mp hvalue
      exact ⟨_, rfl, trivial⟩)
  cases format with
  | json => exact ⟨_, rfl⟩
  | list =>
    obtain ⟨items, hall, htexts⟩ := @exists_mapM _ _ Page.entriesOf
      (fun entries => ∃ text, Page.pathOf entries = .text text)
      (tally.findings.map Finding.value) (by
        intro value hvalue
        obtain ⟨f, -, rfl⟩ := List.mem_map.mp hvalue
        exact Page.exists_textOf_pathOf f)
    obtain ⟨paths, hpaths, -⟩ := @exists_mapM _ _ (fun item => Page.textOf (Page.pathOf item))
      (fun _ => True) items (by
        intro item hitem
        obtain ⟨text, htext⟩ := htexts item hitem
        exact ⟨text, by rw [htext]; rfl, trivial⟩)
    rw [render, listing, hitems, herrors]
    simp only [bind, Except.bind, hall, hfailures, hpaths]
    exact ⟨_, rfl⟩
  | summary =>
    obtain ⟨counted, hall, htexts⟩ := @exists_mapM _ _ countedPath
      (fun counted => ∃ text, counted.2 = .text text)
      (tally.findings.map Finding.value) (by
        intro value hvalue
        obtain ⟨f, -, rfl⟩ := List.mem_map.mp hvalue
        obtain ⟨entries, hentries, text, htext⟩ := Page.exists_textOf_pathOf f
        refine ⟨(entries, .text text), ?_, text, rfl⟩
        rw [countedPath, hentries]
        simp only [bind, Except.bind, htext]
        rfl)
    obtain ⟨items, hitemTexts, -⟩ := @exists_mapM _ _
      (fun x : List (String × Value) × Value => do return (← Page.textOf x.2, x.1))
      (fun _ => True) counted (by
        intro item hitem
        obtain ⟨text, htext⟩ := htexts item hitem
        exact ⟨(text, item.1), by rw [htext]; rfl, trivial⟩)
    rw [render, summary, hitems, herrors]
    simp only [bind, Except.bind] at hitemTexts ⊢
    simp only [hall, hfailures, hitemTexts]
    exact ⟨_, rfl⟩

end View

/-! ### Reports -/

namespace Rule

/-- Why a source of a language has no report. -/
inductive Unreported (rule : Rule) (language : Language) (path : Option String) (source : Bytes) :
    Error → Prop where
  | tooLarge (hlarge : language.maxFileSize < source.length) :
      Unreported rule language path source (.sourceTooLarge ((path.filter (· ≠ "")).getD "<source>")
        source.length (toString language.maxFileSize))
  | noParser {reason : String}
      (hparser : ¬ rule.host.installed ∧ reason = "tree-sitter-language-pack is not installed"
        ∨ rule.host.installed ∧ rule.host.defect? language.grammar = some reason) :
      Unreported rule language path source (.parserUnavailable language.grammar reason)

variable {rule : Rule} {language : Language} {path : Option String} {source : Bytes} {e : Error}

theorem Unreported.isOfFile (h : rule.Unreported language path source e) :
  e.isOfFile
  := by
  cases h <;> rfl

/-- With sound options, and a parser that has a tree for every source, a source has a report unless
it is too large or there is no parser for it. -/
theorem report_cases (hoptions : rule.options.problem? = none)
    (htrees : ∀ grammar source, (rule.host.tree? grammar source).isSome) :
  (∃ report, rule.report language path source = .ok report)
    ∨ ∃ e, rule.Unreported language path source e ∧ rule.report language path source = .error e
  := by
  have hparse : (∃ parsed, rule.parse source language path = .ok parsed)
      ∨ ∃ e, rule.Unreported language path source e
        ∧ rule.parse source language path = .error e := by
    rw [parse]
    split
    · rename_i hlarge
      exact .inr ⟨_, .tooLarge hlarge, rfl⟩
    · rw [Host.parse]
      split
      · rename_i hinstalled
        exact .inr ⟨_, .noParser (.inl ⟨by simpa using hinstalled, rfl⟩), rfl⟩
      · rename_i hinstalled
        cases hdefect : rule.host.defect? language.grammar with
        | some reason => exact .inr ⟨_, .noParser (.inr ⟨by simpa using hinstalled, hdefect⟩), rfl⟩
        | none =>
          obtain ⟨parsed, hparsed⟩ := Option.isSome_iff_exists.mp (htrees language.grammar source)
          exact .inl ⟨parsed, by rw [hparsed]⟩
  rcases hparse with hparsed | ⟨e, hunreported, hparse⟩
  · exact .inl (exists_report hoptions hparsed)
  · exact .inr ⟨e, hunreported, by rw [report, analyze, hparse]; rfl⟩

end Rule

/-! ### What a command works with -/

namespace Lint

/-- Whether a command works with sound settings, and with a parser that has a tree for every
source. -/
structure IsValid (lint : Lint) : Prop where
  options : lint.rule.options.problem? = none
  size : Settings.isSize lint.settings.maxFileSize
  patterns : lint.discovery.exclusions.Textual
  format : ∃ format, Format.ofValue lint.format = .ok format
  trees : ∀ grammar source, (lint.rule.host.tree? grammar source).isSome

theorem textual_addAll {e : Exclusions} (he : e.Textual) {patterns : List Value}
    (hpatterns : ∀ pattern ∈ patterns, ∃ s, pattern = .text s) :
  (e.addAll patterns).Textual
  := by
  induction patterns generalizing e with
  | nil => exact he
  | cons pattern rest ih =>
    rw [Exclusions.addAll, List.foldl_cons]
    apply ih _ fun pattern h => hpatterns pattern (List.mem_cons_of_mem _ h)
    rw [Exclusions.add]
    split
    · exact he
    · intro added hadded
      rcases List.mem_append.mp hadded with hold | hnew
      · exact he added hold
      · rw [List.mem_singleton.mp hnew]
        exact hpatterns pattern List.mem_cons_self

/-- Options with the settings of the arguments are sound if those without them are. -/
theorem problem?_of_withOverrides {options options' : RuleOptions} {items : List String}
    (hoptions : options.problem? = none) (h : withOverrides options items = .ok (.ok options')) :
  options'.problem? = none
  := by
  rw [withOverrides] at h
  split at h
  · obtain rfl := Except.ok.inj (Except.ok.inj h)
    exact hoptions
  · obtain ⟨entries, -, h⟩ := exists_ok_of_bind h
    obtain ⟨overridden, -, h⟩ := exists_ok_of_bind h
    split at h
    · cases h
    · obtain ⟨given, -, h⟩ := exists_ok_of_bind h
      have h := Except.ok.inj h
      split at h
      · cases h
      · obtain rfl := Except.ok.inj h
        assumption

/-- Sound settings name a format. -/
theorem exists_format {settings : Settings} (h : settings.displayProblem? = none) :
  ∃ format, Format.ofValue settings.format = .ok format
  := by
  have hone : Settings.isOneOf Settings.validFormats settings.format := by
    rw [Settings.displayProblem?] at h
    split_ifs at h with hsymbols hformat
    simpa using hformat
  cases hvalue : settings.format with
  | text s =>
    rw [hvalue] at hone
    have hs : s = "list" ∨ s = "json" ∨ s = "summary" := by
      simpa [Settings.isOneOf, Settings.validFormats] using hone
    rcases hs with rfl | rfl | rfl
    · exact ⟨.list, rfl⟩
    · exact ⟨.json, rfl⟩
    · exact ⟨.summary, rfl⟩
  | _ => simp [hvalue, Settings.isOneOf] at hone

/-- What a command works with is sound if the settings are. -/
theorem isValid_of_setUp {s : Outside} {settings : Settings} {a : LintArguments} {lint : Lint}
    (hsettings : settings.problem? = none)
    (hexclude : ∀ pattern ∈ settings.exclude, ∃ s, pattern = .text s)
    (htrees : ∀ grammar source, (s.host.tree? grammar source).isSome)
    (h : setUp s settings a = .ok (.ok lint)) :
  lint.IsValid
  := by
  rw [Settings.problem?, Option.or_eq_none_iff, Option.or_eq_none_iff] at hsettings
  obtain ⟨⟨hrule, hdisplay⟩, hfiles⟩ := hsettings
  rw [setUp, configure] at h
  match hoverridden : withOverrides (ofSettings s settings).settings.rule a.rules with
  | .error e =>
    rw [hoverridden] at h
    cases h
  | .ok (.error message) =>
    rw [hoverridden] at h
    cases h
  | .ok (.ok options) =>
    rw [hoverridden] at h
    obtain rfl := Except.ok.inj (Except.ok.inj h)
    constructor
    · exact problem?_of_withOverrides hrule hoverridden
    · by_contra hsize
      change ¬ Settings.isSize settings.maxFileSize at hsize
      have hproblem : settings.filesProblem? ≠ none := by
        rw [Settings.filesProblem?, if_neg hsize]
        exact nofun
      exact hproblem hfiles
    · apply textual_addAll
      · exact nofun
      · intro pattern hpattern
        rcases List.mem_append.mp hpattern with hsetting | hextra
        · exact hexclude pattern hsetting
        · obtain ⟨text, -, rfl⟩ := List.mem_map.mp hextra
          exact ⟨text, rfl⟩
    · cases hformat : a.format with
      | some format => exact ⟨format, by cases format <;> rfl⟩
      | none => exact exists_format hdisplay
    · exact htrees

theorem isValid_of_default {s : Outside} {lint : Lint}
    (htrees : ∀ grammar source, (s.host.tree? grammar source).isSome)
    (h : setUp s {} {} = .ok (.ok lint)) :
  lint.IsValid
  := by
  apply isValid_of_setUp (by decide +kernel) _ htrees h
  intro pattern hpattern
  cases hpattern

/-! ### One file -/

variable {lint : Lint} {w : Workspace} {path : SourcePath}

/-- Why a file cannot be checked: it may not be read, there is nothing to be read, it is too large
for the settings or for its language, it is not a text, it has no language, or there is no parser
for it. -/
inductive Obstacle (lint : Lint) (w : Workspace) (path : SourcePath) : String → Prop where
  | unreadable {fault : String} (hfault : w.readFault? path = some fault) :
      Obstacle lint w path fault
  | missing (hread : w.read? path = none) :
      Obstacle lint w path (Error.noSuchPath path.text).message
  | tooLarge {source : Bytes} (hread : w.read? path = some source)
      (hlarge : isTooLarge lint.settings.maxFileSize source.length = .ok true) :
      Obstacle lint w path (Error.sourceTooLarge path.text source.length
        lint.settings.maxFileSize.display).message
  | notText {source : Bytes} {e : Utf8.DecodeError} (hread : w.read? path = some source)
      (hdecode : Utf8.decode source = .error e) : Obstacle lint w path (Error.decode e).message
  | unsupported (hlanguage : lint.rule.languages.ofPath? (.ofText path.text) = none) :
      Obstacle lint w path (Error.unsupportedLanguage (SourcePath.ofText path.text).text).message
  | tooLargeForLanguage {source : Bytes} {language : Language} {shown : String}
      (hread : w.read? path = some source)
      (hlanguage : lint.rule.languages.ofPath? (.ofText path.text) = some language)
      (hlarge : language.maxFileSize < source.length)
      (hshown : path.text ≠ "" → shown = path.text) :
      Obstacle lint w path (Error.sourceTooLarge shown source.length
        (toString language.maxFileSize)).message
  | noParser {language : Language} {reason : String}
      (hlanguage : lint.rule.languages.ofPath? (.ofText path.text) = some language)
      (hparser : ¬ lint.rule.host.installed ∧ reason = "tree-sitter-language-pack is not installed"
        ∨ lint.rule.host.installed ∧ lint.rule.host.defect? language.grammar = some reason) :
      Obstacle lint w path (Error.parserUnavailable language.grammar reason).message

theorem exists_isTooLarge {limit : Value} (h : Settings.isSize limit) (size : Nat) :
  ∃ answer, isTooLarge limit size = .ok answer
  := by
  cases limit with
  | null => exact ⟨false, rfl⟩
  | int n =>
    rw [isTooLarge]
    split
    · exact ⟨_, rfl⟩
    · exact ⟨false, rfl⟩
  | _ => simp [Settings.isSize] at h

/-- Either the source of a file is at hand, or there is an obstacle. -/
theorem source_cases (hlint : lint.IsValid) :
  (∃ source, w.read? path = some source ∧ lint.source w path = .ok source)
    ∨ ∃ e, e.isOfFile ∧ lint.Obstacle w path e.message ∧ lint.source w path = .error e
  := by
  rw [Lint.source]
  cases hread : w.read? path with
  | none => exact .inr ⟨_, rfl, .missing hread, rfl⟩
  | some source =>
    obtain ⟨answer, hlarge⟩ := exists_isTooLarge hlint.size source.length
    dsimp only
    rw [hlarge]
    cases answer with
    | true => exact .inr ⟨_, rfl, .tooLarge hread hlarge, rfl⟩
    | false =>
      cases hdecode : Utf8.decode source with
      | error e => exact .inr ⟨_, rfl, .notText hread hdecode, rfl⟩
      | ok text => exact .inl ⟨source, rfl, rfl⟩

/-- The rule chooses the language of a file by its path. -/
theorem choose_eq (languages : Languages) (path : SourcePath) :
  languages.choose (some path.text) none
    = match languages.ofPath? (.ofText path.text) with
      | some language => .ok language
      | none => .error (.unsupportedLanguage (SourcePath.ofText path.text).text)
  := rfl

/-- Either the findings in a file are at hand, or there is an obstacle. -/
theorem findingsIn_cases (hlint : lint.IsValid) :
  (∃ source findings, w.read? path = some source
      ∧ lint.rule.check source (some path.text) none = .ok findings
      ∧ lint.findingsIn w path = .ok findings)
    ∨ ∃ e, e.isOfFile ∧ lint.Obstacle w path e.message ∧ lint.findingsIn w path = .error e
  := by
  rw [findingsIn]
  rcases source_cases hlint with ⟨source, hread, hsource⟩ | ⟨e, hfile, hobstacle, hsource⟩
  · rw [hsource]
    simp only [bind, Except.bind]
    cases hlanguage : lint.rule.languages.ofPath? (.ofText path.text) with
    | none =>
      have hcheck : lint.rule.check source (some path.text) none
          = .error (.unsupportedLanguage (SourcePath.ofText path.text).text) := by
        rw [Rule.check, choose_eq, hlanguage]
        rfl
      exact .inr ⟨_, rfl, .unsupported hlanguage, hcheck⟩
    | some language =>
      have hchosen : lint.rule.languages.choose (some path.text) none = .ok language := by
        rw [choose_eq, hlanguage]
      rcases Rule.report_cases hlint.options hlint.trees with ⟨report, hreport⟩ | ⟨e, he, hreport⟩
      · have hcheck := Rule.check_eq hchosen hreport
        exact .inl ⟨source, _, hread, hcheck, hcheck⟩
      · have hcheck : lint.rule.check source (some path.text) none = .error e := by
          rw [Rule.check, hchosen]
          simp only [bind, Except.bind]
          rw [hreport]
        refine .inr ⟨e, he.isOfFile, ?_, hcheck⟩
        cases he with
        | tooLarge hlarge =>
          apply Obstacle.tooLargeForLanguage hread hlanguage hlarge
          intro hne
          simp [Option.filter, hne]
        | noParser hparser => exact .noParser hlanguage hparser
  · exact .inr ⟨e, hfile, hobstacle, by rw [hsource]; rfl⟩

/-- Each file has all its findings or exactly one obstacle. -/
theorem checkFile_cases (hlint : lint.IsValid) :
  (∃ source findings, w.readFault? path = none ∧ w.read? path = some source
      ∧ lint.rule.check source (some path.text) none = .ok findings
      ∧ lint.checkFile w path = .ok (.ok findings))
    ∨ ∃ reason, lint.Obstacle w path reason ∧ lint.checkFile w path = .ok (.error reason)
  := by
  rw [checkFile]
  cases hfault : w.readFault? path with
  | some fault => exact .inr ⟨fault, .unreadable hfault, rfl⟩
  | none =>
    dsimp only
    rcases findingsIn_cases hlint with ⟨source, findings, hread, hcheck, hfindings⟩
      | ⟨e, hfile, hobstacle, hfindings⟩
    · rw [hfindings]
      exact .inl ⟨source, findings, rfl, hread, hcheck, rfl⟩
    · rw [hfindings, isolated, if_pos hfile]
      exact .inr ⟨e.message, hobstacle, rfl⟩

/-! ### Several files -/

/-- The failure of a file, if its outcome is one. -/
def failure? {α : Type} (path : SourcePath) : Except String α → Option Failure
  | .ok _ => none
  | .error reason => some ⟨path.text, reason⟩

/-- The findings and failures that the outcomes of files come to, in the order of the files. -/
def tallyOf (outcome : SourcePath → Except String (List Finding)) (files : List SourcePath) :
    Tally where
  findings := files.flatMap fun path => (outcome path).toOption.getD []
  failures := files.filterMap fun path => failure? path (outcome path)

variable {outcome : SourcePath → Except String (List Finding)} {files : List SourcePath}

/-- The outcomes of several files are told file by file. -/
theorem checkFiles_eq (h : ∀ path ∈ files, lint.checkFile w path = .ok (outcome path)) :
  lint.checkFiles w files = .ok (tallyOf outcome files)
  := by
  induction files with
  | nil => rfl
  | cons path rest ih =>
    rw [checkFiles, h path List.mem_cons_self,
      ih fun path hpath => h path (List.mem_cons_of_mem _ hpath)]
    cases houtcome : outcome path with
    | ok findings => simp [tallyOf, failure?, houtcome, Except.toOption, bind, Except.bind, pure,
        Except.pure]
    | error reason => simp [tallyOf, failure?, houtcome, Except.toOption, bind, Except.bind, pure,
        Except.pure]

theorem status_iff (tally : Tally) :
  (status tally = 2 ↔ tally.failures ≠ [])
    ∧ (status tally = 1 ↔ tally.failures = [] ∧ tally.findings ≠ [])
    ∧ (status tally = 0 ↔ tally.failures = [] ∧ tally.findings = [])
  := by
  rw [status]
  cases tally.failures <;> cases tally.findings <;> simp

/-- How a command shows pages. -/
def viewOf (lint : Lint) (s : Outside) : View where
  symbols := lint.symbols
  width := s.width
  full := lint.full

/-- A page that can be shown is written to the output. -/
theorem run_emit {s : Outside} {page : Page} {format : Format} {text : String}
    (hformat : Format.ofValue lint.format = .ok format)
    (hrender : (lint.viewOf s).render page format = .ok text) (world : World) :
  (lint.emit s page).run.run world
    = (.ok (), { world with output := world.output ++ s.encoding.written (text ++ "\n") })
  := by
  rw [emit, Run.bind_of_ok (by rw [hformat]; exact Run.run_monadLift _ _)]
  rw [viewOf] at hrender
  rw [hrender]
  rfl

/-- What a check of files comes to: the outcome of each file, which is all its findings or why it
cannot be checked, and which is the same in every workspace where the file is the same. -/
structure Checks (lint : Lint) (w : Workspace)
    (outcome : SourcePath → Except String (List Finding)) : Prop where
  eq : ∀ path, lint.checkFile w path = .ok (outcome path)
  found : ∀ path findings, outcome path = .ok findings →
    ∃ source, w.readFault? path = none ∧ w.read? path = some source
      ∧ lint.rule.check source (some path.text) none = .ok findings
  failed : ∀ path reason, outcome path = .error reason → lint.Obstacle w path reason
  isolated : ∀ path w', w'.read? path = w.read? path → w'.readFault? path = w.readFault? path →
    lint.checkFile w' path = .ok (outcome path)

theorem exists_checks (hlint : lint.IsValid) (w : Workspace) :
  ∃ outcome, lint.Checks w outcome
  := by
  have hall : ∀ path, ∃ outcome, lint.checkFile w path = .ok outcome := by
    intro path
    rcases checkFile_cases hlint with ⟨source, findings, -, -, -, heq⟩ | ⟨reason, -, heq⟩
    · exact ⟨_, heq⟩
    · exact ⟨_, heq⟩
  choose outcome houtcome using hall
  use outcome
  constructor
  · exact houtcome
  · intro path findings hfound
    rcases checkFile_cases hlint with ⟨source, findings', hfault, hread, hcheck, heq⟩
      | ⟨reason, -, heq⟩
    · rw [houtcome, hfound] at heq
      obtain rfl := Except.ok.inj (Except.ok.inj heq)
      exact ⟨source, hfault, hread, hcheck⟩
    · rw [houtcome, hfound] at heq
      cases Except.ok.inj heq
  · intro path reason hfailed
    rcases checkFile_cases hlint with ⟨source, findings, -, -, -, heq⟩ | ⟨reason', hobstacle, heq⟩
    · rw [houtcome, hfailed] at heq
      cases Except.ok.inj heq
    · rw [houtcome, hfailed] at heq
      obtain rfl := Except.error.inj (Except.ok.inj heq)
      exact hobstacle
  · intro path w' hread hfault
    rw [← houtcome, checkFile, checkFile, hfault, findingsIn, findingsIn, source, source, hread]

/-- A run whose parser reads every source as an empty program. -/
def emptyPrograms : Outside where
  host := { tree? := fun _ source => some ⟨.named .program 0 source.length none [], false⟩ }

end Lint

end SingleUse
