import SingleUse.Proofs.Checking
import SingleUse.Proofs.Repeating

/-!
# Rewriting files

A fix of several files touches only what it reports.  Writing to files that are there leaves the
places, the directories and all other contents of a workspace as they are; so, where different
paths lead to different places, what becomes of a file is told by the workspace as it was before
the first file was written.  After the run every file has its old content, but for the files that
were changed, which hold their fixed texts, or the beginnings of these where the writing broke off;
and a dry run reports what the run itself reports exactly if all writing goes through.
-/

namespace SingleUse

/-! ### Workspaces with the same files -/

namespace Workspace

variable {w w' w'' : Workspace} {path : SourcePath} {here place : List String} {content : Content}

/-- Whether two workspaces differ at most in what their files hold. -/
structure Alike (w w' : Workspace) : Prop where
  places : w'.files.map (·.1) = w.files.map (·.1)
  dirs : w'.dirs = w.dirs
  lookupFault : w'.lookupFault? = w.lookupFault?
  listFault : w'.listFault? = w.listFault?
  readFault : w'.readFault? = w.readFault?
  writeFault : w'.writeFault? = w.writeFault?
  saveFault : w'.saveFault? = w.saveFault?

namespace Alike

theorem refl (w : Workspace) :
  w.Alike w
  := ⟨rfl, rfl, rfl, rfl, rfl, rfl, rfl⟩

theorem trans (h : w.Alike w') (h' : w'.Alike w'') :
  w.Alike w''
  := ⟨h'.places.trans h.places, h'.dirs.trans h.dirs, h'.lookupFault.trans h.lookupFault,
    h'.listFault.trans h.listFault, h'.readFault.trans h.readFault,
    h'.writeFault.trans h.writeFault, h'.saveFault.trans h.saveFault⟩

theorem isDirAt_eq (h : w.Alike w') (parts : List String) :
  w'.isDirAt parts = w.isDirAt parts
  := by
  have hany : ∀ w : Workspace, (w.files.any fun file => parts.isPrefixOf file.1 && file.1 ≠ parts)
      = (w.files.map (·.1)).any fun place => parts.isPrefixOf place && place ≠ parts := by
    intro w
    rw [List.any_map]
    rfl
  rw [isDirAt, isDirAt, hany w, hany w', h.places, h.dirs]

theorem follow_eq (h : w.Alike w') (here parts : List String) :
  w'.follow here parts = w.follow here parts
  := by
  induction parts generalizing here with
  | nil => rfl
  | cons part rest ih => rw [follow, follow, h.isDirAt_eq, ih]

/-- Paths lead to the same places. -/
theorem locate?_eq (h : w.Alike w') (path : SourcePath) :
  w'.locate? path = w.locate? path
  := h.follow_eq _ _

end Alike

theorem isSome_contentAt?_iff :
  (w.contentAt? place).isSome ↔ place ∈ w.files.map (·.1)
  := by
  rw [contentAt?, Option.isSome_map, List.find?_isSome]
  simp

/-- A file that is there is there in a workspace that is alike. -/
theorem Alike.isFile_eq (h : w.Alike w') (path : SourcePath) :
  w'.isFile path = w.isFile path
  := by
  rw [isFile, isFile, content?, content?, h.locate?_eq]
  cases w.locate? path with
  | none => rfl
  | some place =>
    rw [Option.bind_some, Option.bind_some, Bool.eq_iff_iff, isSome_contentAt?_iff,
      isSome_contentAt?_iff, h.places]

theorem exists_of_isFile (h : w.isFile path) :
  ∃ place, w.locate? path = some place ∧ place ∈ w.files.map (·.1)
  := by
  rw [isFile, content?] at h
  cases hlocate : w.locate? path with
  | none => simp [hlocate] at h
  | some place =>
    rw [hlocate, Option.bind_some, isSome_contentAt?_iff] at h
    exact ⟨place, rfl, h⟩

theorem isFile_of_read? {source : Bytes} (h : w.read? path = some source) :
  w.isFile path
  := by
  rw [read?] at h
  rw [isFile]
  cases hcontent : w.content? path with
  | none => simp [hcontent] at h
  | some content => rfl

/-- The bytes of a file are told by what stands at its place. -/
theorem read?_congr (h : w.Alike w')
    (hplace : ∀ place, w.locate? path = some place → w'.contentAt? place = w.contentAt? place) :
  w'.read? path = w.read? path
  := by
  rw [read?, read?, content?, content?, h.locate?_eq]
  cases hlocate : w.locate? path with
  | none => rfl
  | some place => rw [Option.bind_some, Option.bind_some, hplace place hlocate]

/-! ### Writing to a file that is there -/

theorem map_placeAt {files : List (List String × Content)} (h : place ∈ files.map (·.1)) :
  (placeAt place content files).map (·.1) = files.map (·.1)
  := by
  induction files with
  | nil => cases h
  | cons file rest ih =>
    rw [placeAt]
    split
    · rename_i heq
      rw [List.map_cons, List.map_cons, heq]
    · rename_i hne
      rw [List.map_cons, List.map_cons, ih]
      exact (List.mem_cons.mp h).resolve_left (Ne.symm hne)

theorem find?_placeAt (place place' : List String) (content : Content)
    (files : List (List String × Content)) :
  (placeAt place content files).find? (fun file => file.1 = place')
    = if place = place' then some (place, content)
      else files.find? fun file => file.1 = place'
  := by
  induction files with
  | nil =>
    rw [placeAt, List.find?_cons]
    by_cases hplace : place = place' <;> simp [hplace]
  | cons file rest ih =>
    rw [placeAt]
    by_cases hfile : file.1 = place
    · rw [if_pos hfile, List.find?_cons, List.find?_cons, hfile]
      by_cases hplace : place = place' <;> simp [hplace]
    · rw [if_neg hfile, List.find?_cons, List.find?_cons, ih]
      by_cases hplace : place = place'
      · have hne : ¬ file.1 = place' := hplace ▸ hfile
        simp [hplace, hne]
      · simp [hplace]

/-- Writing to a file that is there leaves the workspace alike. -/
theorem alike_write (h : w.isFile path) (content : Content) :
  w.Alike (w.write path content)
  := by
  obtain ⟨place, hlocate, hmem⟩ := exists_of_isFile h
  refine ⟨?_, rfl, rfl, rfl, rfl, rfl, rfl⟩
  rw [write, hlocate]
  exact map_placeAt hmem

/-- Writing changes what stands at one place. -/
theorem contentAt?_write (hlocate : w.locate? path = some here) (content : Content)
    (place : List String) :
  (w.write path content).contentAt? place
    = if here = place then some content else w.contentAt? place
  := by
  rw [contentAt?, contentAt?, write, hlocate]
  change ((placeAt here content w.files).find? _).map _ = _
  rw [find?_placeAt]
  split <;> rfl

/-- Whether different paths of a list lead to different places. -/
def Separates (w : Workspace) (paths : List SourcePath) : Prop :=
  ∀ p ∈ paths, ∀ q ∈ paths, ∀ place, w.locate? p = some place → w.locate? q = some place → p = q

end Workspace

/-! ### Passes that cannot go on -/

section

variable {run : Bytes → Except Error Report} {hadError : Bool}

/-- Where each source has a report or an error that concerns one file only, so has fixing a
result. -/
theorem fixPasses_cases
    (hrun : ∀ s, (∃ report, run s = .ok report) ∨ ∃ e, e.isOfFile ∧ run s = .error e) (n : Nat) :
  ∀ r, (∃ last, fixPasses run hadError n r = .ok last)
    ∨ ∃ e, e.isOfFile ∧ fixPasses run hadError n r = .error e
  := by
  induction n with
  | zero => exact fun r => .inl ⟨r, rfl⟩
  | succ n ih =>
    intro r
    by_cases hfixes : fixesOf r.findings = []
    · exact .inl ⟨r, fixPasses_of_settled hfixes _⟩
    · rcases hrun r.outcome.source with ⟨report, hreport⟩ | ⟨e, hfile, herror⟩
      · cases hbroken : report.hasError && !hadError with
        | true => exact .inl ⟨_, fixPasses_of_broken hfixes hreport hbroken n⟩
        | false =>
          rw [fixPasses_of_intact hfixes hreport hbroken]
          exact ih (r.next report)
      · exact .inr ⟨e, hfile, fixPasses_of_error hfixes herror n⟩

end

/-- With sound options, and a parser that has a tree for every source, fixing a file has a result
or an error that concerns this file only. -/
theorem Rule.fix_cases {rule : Rule} (hoptions : rule.options.problem? = none)
    (htrees : ∀ grammar source, (rule.host.tree? grammar source).isSome) (source : Bytes)
    (path : SourcePath) (maxPasses : Int) :
  (∃ result, rule.fix source (some path.text) none maxPasses = .ok result)
    ∨ ∃ e, e.isOfFile ∧ rule.fix source (some path.text) none maxPasses = .error e
  := by
  cases hlanguage : rule.languages.ofPath? (.ofText path.text) with
  | none =>
    refine .inr ⟨.unsupportedLanguage (SourcePath.ofText path.text).text, rfl, ?_⟩
    rw [fix, Lint.choose_eq, hlanguage]
    rfl
  | some language =>
    have hchosen : rule.languages.choose (some path.text) none = .ok language := by
      rw [Lint.choose_eq, hlanguage]
    have hrun : ∀ s, (∃ report, rule.report language (some path.text) s = .ok report)
        ∨ ∃ e, e.isOfFile ∧ rule.report language (some path.text) s = .error e := by
      intro s
      rcases report_cases hoptions htrees with hreport | ⟨e, he, herror⟩
      · exact .inl hreport
      · exact .inr ⟨e, he.isOfFile, herror⟩
    rcases hrun source with ⟨report, hreport⟩ | ⟨e, hfile, herror⟩
    · rw [fix_eq hchosen hreport]
      exact fixPasses_cases hrun _ _
    · refine .inr ⟨e, hfile, ?_⟩
      rw [fix, hchosen]
      simp only [bind, Except.bind]
      rw [herror]

namespace Lint

variable {lint : Lint} {a : LintArguments} {w w' : Workspace} {path : SourcePath}

/-! ### One file -/

theorem resultOf_cases (hlint : lint.IsValid) :
  (∃ source result, lint.resultOf w path = .ok (source, result))
    ∨ ∃ e, e.isOfFile ∧ lint.resultOf w path = .error e
  := by
  rw [resultOf]
  rcases source_cases hlint with ⟨source, -, hsource⟩ | ⟨e, hfile, -, hsource⟩
  · rw [hsource]
    simp only [bind, Except.bind]
    rcases Rule.fix_cases hlint.options hlint.trees source path Rule.defaultPasses
      with ⟨result, hresult⟩ | ⟨e, hfile, herror⟩
    · rw [hresult]
      exact .inl ⟨source, result, rfl⟩
    · rw [herror]
      exact .inr ⟨e, hfile, rfl⟩
  · rw [hsource]
    exact .inr ⟨e, hfile, rfl⟩

/-- What a fix of files comes to as far as nothing is written: for each file its source with what
becomes of it if the file can be read and fixed, and otherwise why not. -/
structure Fixes (lint : Lint) (w : Workspace)
    (planned : SourcePath → Except String (Bytes × FixResult)) : Prop where
  eq : ∀ path, lint.fixFile w path = .ok (planned path)
  fixed : ∀ path source result, planned path = .ok (source, result) ↔
    w.readFault? path = none ∧ lint.resultOf w path = .ok (source, result)

theorem exists_fixFile (hlint : lint.IsValid) (w : Workspace) (path : SourcePath) :
  ∃ outcome, lint.fixFile w path = .ok outcome ∧ ∀ source result, outcome = .ok (source, result) ↔
    w.readFault? path = none ∧ lint.resultOf w path = .ok (source, result)
  := by
  rw [fixFile]
  cases hfault : w.readFault? path with
  | some fault => exact ⟨.error fault, rfl, by simp⟩
  | none =>
    rcases resultOf_cases hlint with ⟨source, result, hresult⟩ | ⟨e, hfile, herror⟩
    · exact ⟨.ok (source, result), by rw [hresult]; rfl, by simp [hresult]⟩
    · refine ⟨.error e.message, ?_, by simp [herror]⟩
      dsimp only
      rw [herror, isolated, if_pos hfile]

theorem exists_fixes (hlint : lint.IsValid) (w : Workspace) :
  ∃ planned, lint.Fixes w planned
  := by
  choose planned heq hfixed using exists_fixFile hlint w
  exact ⟨planned, heq, hfixed⟩

/-- What becomes of a file is told by its bytes and faults. -/
theorem fixFile_congr (hread : w'.read? path = w.read? path)
    (hfault : w'.readFault? path = w.readFault? path) :
  lint.fixFile w' path = lint.fixFile w path
  := by
  rw [fixFile, fixFile, resultOf, resultOf, source, source, hread, hfault]

theorem isFile_of_fixFile {source : Bytes} {result : FixResult}
    (h : lint.fixFile w path = .ok (.ok (source, result))) :
  w.isFile path
  := by
  rw [fixFile] at h
  split at h
  · cases Except.ok.inj h
  · cases hresult : lint.resultOf w path with
    | error e =>
      rw [hresult, isolated] at h
      split at h <;> cases h
    | ok outcome =>
      obtain ⟨bytes, hbytes, -⟩ := exists_ok_of_bind hresult
      rw [Lint.source] at hbytes
      split at hbytes
      · cases hbytes
      · rename_i hread
        exact Workspace.isFile_of_read? hread

/-! ### What is written into a file -/

variable {planned outcome : SourcePath → Except String (Bytes × FixResult)}
  {files : List SourcePath}

/-- How the writing of a file fails, if the file is to be written. -/
def fault? (a : LintArguments) (w : Workspace)
    (planned : SourcePath → Except String (Bytes × FixResult)) (path : SourcePath) :
    Option WriteFault :=
  match planned path with
  | .ok (_, result) => if result.changed && !a.dryRun then w.writeFault? path else none
  | .error _ => none

/-- What becomes of a file in the end: a failure if it cannot be written. -/
def outcomeOf (a : LintArguments) (w : Workspace)
    (planned : SourcePath → Except String (Bytes × FixResult)) (path : SourcePath) :
    Except String (Bytes × FixResult) :=
  match fault? a w planned path with
  | some fault => .error fault.reason
  | none => planned path

/-- The bytes that a file is left with, if it is opened to be written: its fixed text, or the first
bytes of it if the writing breaks off. -/
def left? (a : LintArguments) (w : Workspace)
    (planned : SourcePath → Except String (Bytes × FixResult)) (path : SourcePath) :
    Option Bytes :=
  match planned path with
  | .ok (_, result) =>
    if result.changed && !a.dryRun then
      match w.writeFault? path with
      | none => some (Utf8.encode result.text)
      | some (.unopened _) => none
      | some (.brokenOff _ written) => some ((Utf8.encode result.text).take written)
    else none
  | .error _ => none

/-- The workspace after the writing of a file. -/
def rewritten (a : LintArguments) (planned : SourcePath → Except String (Bytes × FixResult))
    (w : Workspace) (path : SourcePath) : Workspace :=
  match left? a w planned path with
  | some bytes => w.write path (.bytes bytes)
  | none => w

/-- What a run shows of the differences in a file. -/
def shownOf (s : Outside) (a : LintArguments) (path : SourcePath) :
    Except String (Bytes × FixResult) → String
  | .ok (source, result) =>
    if result.changed && a.diff then
      s.encoding.written (Diff.unified path.text (Utf8.decodeLossy source) result.text)
    else ""
  | .error _ => ""

section dry

variable (hdry : a.dryRun)

include hdry

/-- In a dry run nothing is written, and so no writing fails. -/
theorem fault?_of_dryRun :
  fault? a w planned path = none
  := by
  rw [fault?]
  cases planned path with
  | error reason => rfl
  | ok o => simp [hdry]

theorem outcomeOf_of_dryRun :
  outcomeOf a w planned = planned
  := by
  funext path
  rw [outcomeOf, fault?_of_dryRun hdry]

theorem rewritten_of_dryRun :
  rewritten a planned w path = w
  := by
  have hnone : left? a w planned path = none := by
    rw [left?]
    cases planned path with
    | error reason => rfl
    | ok o => simp [hdry]
  rw [rewritten, hnone]

end dry

/-- How writing ends does not depend on what the files hold. -/
theorem fault?_alike (h : w.Alike w') :
  fault? a w' planned path = fault? a w planned path
  := by
  rw [fault?, fault?, h.writeFault]

theorem outcomeOf_alike (h : w.Alike w') :
  outcomeOf a w' planned path = outcomeOf a w planned path
  := by
  rw [outcomeOf, outcomeOf, fault?_alike h]

theorem left?_alike (h : w.Alike w') :
  left? a w' planned path = left? a w planned path
  := by
  rw [left?, left?, h.writeFault]

/-- Whether a file is there if it is left with other bytes. -/
def IsThere (a : LintArguments) (planned : SourcePath → Except String (Bytes × FixResult))
    (w : Workspace) (path : SourcePath) : Prop :=
  ∀ bytes, left? a w planned path = some bytes → w.isFile path

theorem isThere_of_fixFile (hfix : lint.fixFile w path = .ok (planned path)) :
  IsThere a planned w path
  := by
  intro bytes hbytes
  cases hplanned : planned path with
  | error e => simp [left?, hplanned] at hbytes
  | ok o => exact isFile_of_fixFile (hfix.trans (congrArg _ hplanned))

theorem IsThere.of_alike (h : IsThere a planned w path) (halike : w.Alike w') :
  IsThere a planned w' path
  := by
  intro bytes hbytes
  rw [left?_alike halike] at hbytes
  rw [halike.isFile_eq]
  exact h bytes hbytes

/-- Only a file that is there is written, which leaves the workspace alike. -/
theorem alike_rewritten (hthere : IsThere a planned w path) :
  w.Alike (rewritten a planned w path)
  := by
  rw [rewritten]
  split
  · rename_i bytes hbytes
    exact Workspace.alike_write (hthere bytes hbytes) _
  · exact .refl w

theorem contentAt?_rewritten (hthere : IsThere a planned w path) (place : List String) :
  (rewritten a planned w path).contentAt? place
    = if w.locate? path = some place then
        ((left? a w planned path).map .bytes).or (w.contentAt? place)
      else w.contentAt? place
  := by
  rw [rewritten]
  split
  · rename_i bytes hbytes
    obtain ⟨here, hlocate, -⟩ := Workspace.exists_of_isFile (hthere bytes hbytes)
    rw [Workspace.contentAt?_write hlocate, hlocate]
    simp [hbytes]
  · rename_i hnone
    simp [hnone]

/-! ### Several files -/

section

variable (hthere : ∀ path ∈ files, IsThere a planned w path)

include hthere

theorem alike_foldl_rewritten :
  w.Alike (files.foldl (rewritten a planned) w)
  := by
  induction files generalizing w with
  | nil => exact .refl w
  | cons path rest ih =>
    have halike := alike_rewritten (hthere path List.mem_cons_self)
    apply halike.trans
    apply ih
    exact fun q hq => (hthere q (List.mem_cons_of_mem _ hq)).of_alike halike

/-- What stands at a place stays as it is if no file there is left with other bytes. -/
theorem contentAt?_of_kept {place : List String}
    (hkept : ∀ path ∈ files, w.locate? path = some place → left? a w planned path = none) :
  (files.foldl (rewritten a planned) w).contentAt? place = w.contentAt? place
  := by
  induction files generalizing w with
  | nil => rfl
  | cons path rest ih =>
    have hfirst := hthere path List.mem_cons_self
    have halike := alike_rewritten hfirst
    have hhere : (rewritten a planned w path).contentAt? place = w.contentAt? place := by
      rw [contentAt?_rewritten hfirst]
      split
      · rename_i hlocate
        rw [hkept path List.mem_cons_self hlocate]
        rfl
      · rfl
    rw [List.foldl_cons, ← hhere]
    apply ih
    · exact fun q hq => (hthere q (List.mem_cons_of_mem _ hq)).of_alike halike
    · intro q hq hlocate
      rw [halike.locate?_eq] at hlocate
      rw [left?_alike halike]
      exact hkept q (List.mem_cons_of_mem _ hq) hlocate

/-- A file that is left with other bytes holds them in the end, if no other path leads to its
place. -/
theorem contentAt?_of_left? {place : List String} {bytes : Bytes} (hpath : path ∈ files)
    (hlocate : w.locate? path = some place)
    (hapart : ∀ q ∈ files, w.locate? q = some place → q = path)
    (hbytes : left? a w planned path = some bytes) :
  (files.foldl (rewritten a planned) w).contentAt? place = some (.bytes bytes)
  := by
  induction files generalizing w with
  | nil => cases hpath
  | cons first rest ih =>
    have hfirst := hthere first List.mem_cons_self
    have halike := alike_rewritten hfirst
    have hrest : ∀ q ∈ rest, IsThere a planned (rewritten a planned w first) q :=
      fun q hq => (hthere q (List.mem_cons_of_mem _ hq)).of_alike halike
    have hlocate' : (rewritten a planned w first).locate? path = some place := by
      rw [halike.locate?_eq, hlocate]
    have hapart' : ∀ q ∈ rest, (rewritten a planned w first).locate? q = some place → q = path := by
      intro q hq hplace
      rw [halike.locate?_eq] at hplace
      exact hapart q (List.mem_cons_of_mem _ hq) hplace
    rw [List.foldl_cons]
    by_cases hlater : path ∈ rest
    · exact ih hrest hlater hlocate' hapart' ((left?_alike halike).trans hbytes)
    · obtain rfl := (List.mem_cons.mp hpath).resolve_right hlater
      rw [contentAt?_of_kept hrest, contentAt?_rewritten hfirst, if_pos hlocate, hbytes]
      · rfl
      · intro q hq hplace
        exact absurd (hapart' q hq hplace ▸ hq) hlater

end

/-- What the outcomes of files come to, in the order of the files. -/
def changesOf (outcome : SourcePath → Except String (Bytes × FixResult))
    (files : List SourcePath) : Changes where
  findings := files.flatMap fun path => ((outcome path).toOption.map (·.2.findings)).getD []
  failures := files.filterMap fun path => failure? path (outcome path)
  applied := (files.map fun path => ((outcome path).toOption.map (·.2.applied)).getD 0).sum
  files := files.countP fun path => (outcome path).toOption.any (·.2.changed)

theorem changesOf_cons_of_ok {source : Bytes} {result : FixResult} {rest : List SourcePath}
    (h : outcome path = .ok (source, result)) :
  changesOf outcome (path :: rest) = { changesOf outcome rest with
    findings := result.findings ++ (changesOf outcome rest).findings
    applied := (changesOf outcome rest).applied + result.applied
    files := (changesOf outcome rest).files + if result.changed then 1 else 0 }
  := by
  simp [changesOf, failure?, h, Except.toOption, Nat.add_comm, List.countP_cons]

theorem changesOf_cons_of_error {reason : String} {rest : List SourcePath}
    (h : outcome path = .error reason) :
  changesOf outcome (path :: rest) = { changesOf outcome rest with
    failures := ⟨path.text, reason⟩ :: (changesOf outcome rest).failures }
  := by
  simp [changesOf, failure?, h, Except.toOption]

theorem changesOf_congr {outcome' : SourcePath → Except String (Bytes × FixResult)}
    (h : ∀ path ∈ files, outcome' path = outcome path) :
  changesOf outcome' files = changesOf outcome files
  := by
  induction files with
  | nil => rfl
  | cons path rest ih =>
    have ih := ih fun q hq => h q (List.mem_cons_of_mem _ hq)
    have hpath := h path List.mem_cons_self
    cases houtcome : outcome path with
    | ok o =>
      rw [changesOf_cons_of_ok houtcome, changesOf_cons_of_ok (hpath.trans houtcome), ih]
    | error reason =>
      rw [changesOf_cons_of_error houtcome, changesOf_cons_of_error (hpath.trans houtcome), ih]

/-- Writing a file that is changed leaves what can be written of it. -/
theorem run_rewrite {source : Bytes} {result : FixResult} {world : World}
    (h : planned path = .ok (source, result)) :
  (rewrite a path result).run.run world
    = (.ok ((fault? a world.workspace planned path).map WriteFault.reason),
      { world with workspace := rewritten a planned world.workspace path })
  := by
  rw [rewrite, fault?, rewritten, left?, h]
  dsimp only
  cases result.changed && !a.dryRun with
  | false => rfl
  | true =>
    rw [if_pos rfl, if_pos rfl, if_pos rfl, Run.saveBytes, Run.bind_of_ok (Run.run_workspace world),
      Workspace.writeBytes]
    cases world.workspace.writeFault? path with
    | none => rfl
    | some fault => cases fault <;> rfl

theorem run_showChange (s : Outside) (source : Bytes) (result : FixResult) (world : World) :
  (showChange s a path source result).run.run world
    = (.ok (), { world with output := world.output ++ shownOf s a path (.ok (source, result)) })
  := by
  rw [showChange, shownOf]
  cases result.changed && a.diff with
  | false =>
    rw [if_neg Bool.false_ne_true, if_neg Bool.false_ne_true, String.append_empty]
    rfl
  | true => rfl

/-- A file that can be fixed is written, and the differences are shown if that succeeds. -/
theorem run_fixOne (s : Outside) {world : World}
    (hfix : lint.fixFile world.workspace path = .ok (planned path)) :
  (lint.fixOne s a path).run.run world
    = (.ok ((outcomeOf a world.workspace planned path).map (·.2)), { world with
        workspace := rewritten a planned world.workspace path
        output := world.output ++ shownOf s a path (outcomeOf a world.workspace planned path) })
  := by
  rw [fixOne, Run.bind_of_ok (Run.run_workspace world),
    Run.bind_of_ok (by rw [hfix]; exact Run.run_monadLift _ _)]
  cases hplanned : planned path with
  | error reason =>
    rw [outcomeOf, fault?, rewritten, left?, hplanned]
    dsimp only
    rw [Run.run_pure, shownOf, String.append_empty]
    rfl
  | ok o =>
    obtain ⟨source, result⟩ := o
    dsimp only
    rw [Run.bind_of_ok (run_rewrite hplanned), outcomeOf]
    cases fault? a world.workspace planned path with
    | some fault =>
      rw [Option.map_some, Run.run_pure, shownOf, String.append_empty]
      rfl
    | none =>
      rw [Option.map_none, Run.bind_of_ok (run_showChange s source result _), Run.run_pure,
        hplanned]
      rfl

/-- Where different paths lead to different places, a fix of several files comes to the outcome of
each of them in the workspace that it starts from. -/
theorem run_fixFiles (s : Outside)
    (hfix : ∀ path ∈ files, lint.fixFile w path = .ok (planned path))
    (hapart : files.Pairwise fun p q =>
      ∀ place, w.locate? p = some place → w.locate? q ≠ some place)
    {world : World} (halike : w.Alike world.workspace)
    (hread : ∀ path ∈ files, world.workspace.read? path = w.read? path) :
  (lint.fixFiles s a files).run.run world
    = (.ok (changesOf (outcomeOf a w planned) files), { world with
        workspace := files.foldl (rewritten a planned) world.workspace
        output := world.output ++ String.join (files.map fun path =>
          shownOf s a path (outcomeOf a w planned path)) })
  := by
  induction files generalizing world with
  | nil =>
    rw [fixFiles, Run.run_pure, List.map_nil, String.join_nil, String.append_empty]
    rfl
  | cons path rest ih =>
    obtain ⟨hfirst, hrest⟩ := List.pairwise_cons.mp hapart
    have hhere : lint.fixFile world.workspace path = .ok (planned path) := by
      rw [← hfix path List.mem_cons_self]
      apply fixFile_congr (hread path List.mem_cons_self)
      rw [halike.readFault]
    have hthere : IsThere a planned world.workspace path := isThere_of_fixFile hhere
    have ih := @ih (fun q hq => hfix q (List.mem_cons_of_mem _ hq)) hrest
      { world with
        workspace := rewritten a planned world.workspace path
        output := world.output ++ shownOf s a path (outcomeOf a w planned path) }
      (halike.trans (alike_rewritten hthere)) (by
        intro q hq
        rw [← hread q (List.mem_cons_of_mem _ hq)]
        apply Workspace.read?_congr (alike_rewritten hthere)
        intro place hlocate
        rw [contentAt?_rewritten hthere, if_neg]
        intro hplace
        rw [halike.locate?_eq] at hlocate hplace
        exact hfirst q hq place hplace hlocate)
    have hrun := @run_fixOne lint a path planned s world hhere
    rw [outcomeOf_alike halike] at hrun
    rw [List.foldl_cons, List.map_cons, String.join_cons, ← String.append_assoc]
    rw [fixFiles, Run.bind_of_ok hrun, Run.bind_of_ok ih, Run.run_pure]
    cases houtcome : outcomeOf a w planned path with
    | ok o => rw [changesOf_cons_of_ok houtcome]; rfl
    | error reason => rw [changesOf_cons_of_error houtcome]; rfl

/-! ### The command -/

/-- Whether all writing that is called for goes through. -/
def Writes (w : Workspace) (planned : SourcePath → Except String (Bytes × FixResult))
    (files : List SourcePath) : Prop :=
  ∀ path ∈ files, ∀ source result, planned path = .ok (source, result) → result.changed →
    w.writeFault? path = none

/-- Whether the writing of a file breaks off after it was begun. -/
def BreaksOff (w : Workspace) (planned : SourcePath → Except String (Bytes × FixResult))
    (path : SourcePath) : Prop :=
  ∃ source result reason written, planned path = .ok (source, result) ∧ result.changed
    ∧ w.writeFault? path = some (.brokenOff reason written)

/-- A file that ends in a failure is not left with other bytes unless its writing breaks off. -/
theorem left?_of_not_breaksOff {reason : String}
    (houtcome : outcomeOf a w planned path = .error reason) (hwhole : ¬ BreaksOff w planned path) :
  left? a w planned path = none
  := by
  cases hplanned : planned path with
  | error reason => simp [left?, hplanned]
  | ok o =>
    obtain ⟨source, result⟩ := o
    cases hchanged : result.changed with
    | false => simp [left?, hplanned, hchanged]
    | true =>
      cases hfault : w.writeFault? path with
      | none => simp [outcomeOf, fault?, hplanned, hfault] at houtcome
      | some fault =>
        cases fault with
        | unopened reason => simp [left?, hplanned, hfault]
        | brokenOff reason written =>
          exact absurd ⟨source, result, reason, written, hplanned, hchanged, hfault⟩ hwhole

/-- What a fix of files leaves of a workspace.  The files that were changed hold their fixed texts,
or the beginnings of these where the writing broke off; everything else is as it was, and so is
every file that ended in a failure without having been opened. -/
structure Leaves (a : LintArguments) (planned : SourcePath → Except String (Bytes × FixResult))
    (files : List SourcePath) (w w' : Workspace) : Prop where
  alike : w.Alike w'
  written : ∀ path ∈ files, ∀ source result, planned path = .ok (source, result) →
    result.changed → w.writeFault? path = none →
      w'.content? path = some (.bytes (Utf8.encode result.text))
  brokenOff : ∀ path ∈ files, ∀ source result reason written, planned path = .ok (source, result) →
    result.changed → w.writeFault? path = some (.brokenOff reason written) →
      w'.content? path = some (.bytes ((Utf8.encode result.text).take written))
  kept : ∀ place, (∀ path ∈ files, w.locate? path = some place →
    ∀ source result, planned path = .ok (source, result) → result.changed →
      ∃ reason, w.writeFault? path = some (.unopened reason)) →
    w'.contentAt? place = w.contentAt? place
  failed : ∀ path ∈ files, ∀ reason, outcomeOf a w planned path = .error reason →
    ¬ BreaksOff w planned path → w'.content? path = w.content? path

theorem leaves_foldl (hreal : a.dryRun = false)
    (hthere : ∀ path ∈ files, IsThere a planned w path) (hapart : w.Separates files) :
  Leaves a planned files w (files.foldl (rewritten a planned) w)
  := by
  have halike := alike_foldl_rewritten hthere
  have hleft : ∀ path ∈ files, ∀ bytes, left? a w planned path = some bytes →
      (files.foldl (rewritten a planned) w).content? path = some (.bytes bytes) := by
    intro path hpath bytes hbytes
    obtain ⟨place, hlocate, -⟩ := Workspace.exists_of_isFile (hthere path hpath _ hbytes)
    rw [Workspace.content?, halike.locate?_eq, hlocate]
    apply contentAt?_of_left? hthere hpath hlocate _ hbytes
    exact fun q hq hplace => hapart q hq path hpath place hplace hlocate
  constructor
  · exact halike
  · intro path hpath source result hplanned hchanged hfault
    apply hleft path hpath
    simp [left?, hplanned, hchanged, hreal, hfault]
  · intro path hpath source result reason written hplanned hchanged hfault
    apply hleft path hpath
    simp [left?, hplanned, hchanged, hreal, hfault]
  · intro place hkept
    apply contentAt?_of_kept hthere
    intro path hpath hlocate
    cases hplanned : planned path with
    | error reason => simp [left?, hplanned]
    | ok o =>
      obtain ⟨source, result⟩ := o
      cases hchanged : result.changed with
      | false => simp [left?, hplanned, hchanged]
      | true =>
        obtain ⟨reason, hfault⟩ := hkept path hpath hlocate source result hplanned hchanged
        simp [left?, hplanned, hfault]
  · intro path hpath reason houtcome hwhole
    have hnone := left?_of_not_breaksOff houtcome hwhole
    rw [Workspace.content?, Workspace.content?, halike.locate?_eq]
    cases hlocate : w.locate? path with
    | none => rfl
    | some place =>
      apply contentAt?_of_kept hthere
      intro q hq hplace
      obtain rfl := hapart q hq path hpath place hplace hlocate
      exact hnone

/-- Where all writing goes through, files have the outcome that was planned for them. -/
theorem outcomeOf_of_writes (hwrites : Writes w planned files) (hpath : path ∈ files) :
  outcomeOf a w planned path = planned path
  := by
  rw [outcomeOf, fault?]
  cases hplanned : planned path with
  | error reason => rfl
  | ok o =>
    obtain ⟨source, result⟩ := o
    cases hchanged : result.changed with
    | false => simp [hchanged]
    | true => simp [hwrites path hpath source result hplanned hchanged]

/-- The failures are those that were planned only where all writing goes through: a file that cannot
be written is one failure more. -/
theorem writes_of_failures (hreal : a.dryRun = false)
    (h : (files.filterMap fun path => failure? path (outcomeOf a w planned path))
      = files.filterMap fun path => failure? path (planned path)) :
  Writes w planned files
  := by
  intro path hpath source result hplanned hchanged
  cases hfault : w.writeFault? path with
  | none => rfl
  | some fault =>
    exfalso
    let fails (outcome : SourcePath → Except String (Bytes × FixResult)) (path : SourcePath) :=
      (failure? path (outcome path)).isSome
    have hkept : ∀ path, fails planned path → fails (outcomeOf a w planned) path := by
      intro path hfails
      simp only [fails, outcomeOf] at hfails ⊢
      split
      · rfl
      · exact hfails
    have hsub := List.monotone_filter_right files hkept
    have hlength : (files.filter (fails planned)).length
        = (files.filter (fails (outcomeOf a w planned))).length := by
      rw [← List.countP_eq_length_filter, ← List.countP_eq_length_filter]
      rw [← List.length_filterMap_eq_countP, ← List.length_filterMap_eq_countP, h]
    have hfails : fails (outcomeOf a w planned) path := by
      simp [fails, outcomeOf, fault?, hplanned, hchanged, hreal, hfault, failure?]
    have hmem : path ∈ files.filter (fails (outcomeOf a w planned)) :=
      List.mem_filter.mpr ⟨hpath, hfails⟩
    rw [← hsub.eq_of_length hlength] at hmem
    simpa [fails, hplanned, failure?] using (List.mem_filter.mp hmem).2

/-- The line that says how many variables are inlined, or would be; reports that are data have no
such line. -/
def headline (lint : Lint) (s : Outside) (a : LintArguments) (applied files : Nat) : String :=
  if lint.isData then ""
  else
    let verb := if a.dryRun then "Would inline" else "Inlined"
    s.encoding.written (lint.symbols.checkPass
      ++ s!" {verb} {applied} variable(s) in {files} file(s)" ++ "\n")

/-- What a fix shows after its headline. -/
def fixedPage (tally : Tally) (files : Nat) : Page :=
  { page tally files with emptyMessage := "Nothing left to report." }

/-- What a fix of files reports and how it ends: the findings file by file, the failures of
arguments and files in their order, and the numbers of fixes and of changed files are written to
the output after the differences, and the status says whether there are findings and failures. -/
structure Reports (lint : Lint) (s : Outside) (a : LintArguments) (files : List SourcePath)
    (missing : List Failure) (outcome : SourcePath → Except String (Bytes × FixResult))
    (world : World) (after : Workspace) (report : Changes) : Prop where
  findings : report.findings = files.flatMap fun path =>
    ((outcome path).toOption.map (·.2.findings)).getD []
  failures : report.failures = missing ++ files.filterMap fun path => failure? path (outcome path)
  applied : report.applied = (files.map fun path =>
    ((outcome path).toOption.map (·.2.applied)).getD 0).sum
  changed : report.files = files.countP fun path => (outcome path).toOption.any (·.2.changed)
  run : ∃ format text, Format.ofValue lint.format = .ok format
    ∧ (lint.viewOf s).render (fixedPage report.toTally files.length) format = .ok text
    ∧ (lint.fix s a).run.run world = (.ok (status report.toTally), { world with
        workspace := after
        output := world.output
          ++ String.join (files.map fun path => shownOf s a path (outcome path))
          ++ lint.headline s a report.applied report.files
          ++ s.encoding.written (text ++ "\n") })

/-- What a fix reports of some outcomes. -/
def reportOf (missing : List Failure) (outcome : SourcePath → Except String (Bytes × FixResult))
    (files : List SourcePath) : Changes :=
  { changesOf outcome files with failures := missing ++ (changesOf outcome files).failures }

/-- Fixing the files that were collected. -/
theorem reports_of_collect (hlint : lint.IsValid) (s : Outside) {missing : List Failure}
    {world : World}
    (hcollect : lint.collect world.workspace a.paths = .ok (files, missing))
    (hfix : ∀ path ∈ files, lint.fixFile world.workspace path = .ok (planned path))
    (hapart : files.Pairwise fun p q =>
      ∀ place, world.workspace.locate? p = some place → world.workspace.locate? q ≠ some place) :
  lint.Reports s a files missing (outcomeOf a world.workspace planned) world
    (files.foldl (rewritten a planned) world.workspace)
    (reportOf missing (outcomeOf a world.workspace planned) files)
  := by
  refine ⟨rfl, rfl, rfl, rfl, ?_⟩
  let changes := changesOf (outcomeOf a world.workspace planned) files
  let tally : Tally := ⟨changes.findings, missing ++ changes.failures⟩
  obtain ⟨format, hformat⟩ := hlint.format
  obtain ⟨text, hrender⟩ : ∃ text,
      (lint.viewOf s).render (fixedPage tally files.length) format = .ok text :=
    View.exists_render _ format tally files.length _
  refine ⟨format, text, hformat, hrender, ?_⟩
  have hfiles := @run_fixFiles lint a world.workspace planned files s hfix hapart world (.refl _)
    (fun _ _ => rfl)
  rw [fixedPage] at hrender
  rw [fix, Run.bind_of_ok (Run.run_workspace world)]
  rw [Run.bind_of_ok (by rw [hcollect]; exact Run.run_monadLift _ _)]
  dsimp only
  rw [Run.bind_of_ok hfiles]
  cases hdata : lint.isData with
  | true =>
    have hline : ∀ applied files, lint.headline s a applied files = "" := by
      intro applied files
      rw [headline, if_pos hdata]
    rw [if_pos rfl, Run.bind_of_ok (run_emit hformat hrender _), Run.run_pure, hline,
      String.append_empty]
    rfl
  | false =>
    rw [if_neg Bool.false_ne_true, Run.bind_of_ok (Run.run_print s _ _),
      Run.bind_of_ok (run_emit hformat hrender _), Run.run_pure, headline, hdata,
      if_neg Bool.false_ne_true]
    rfl

/-- A run whose parser reads a source in which a variable is read once as it is, and any other one
as what is left when that variable is inlined. -/
def inlining : Outside where
  host := { tree? := fun _ source =>
    if source = Analysis.readOnce.1 then some ⟨Analysis.readOnce.2, false⟩
    else some ⟨Rule.inlined.2, false⟩ }

/-- The rule of such a run. -/
def inliningRule : Rule where
  host := inlining.host

/-- A workspace with a file that can be fixed beside one that holds no program. -/
def besides : Workspace where
  files := [(["a.js"], .bytes Analysis.readOnce.1), (["b.txt"], .bytes (Utf8.encode "b"))]

theorem fix_inlining :
  ∃ result, inliningRule.fix Analysis.readOnce.1 (some "a.js") none 10 = .ok result
    ∧ result.changed ∧ result.source = Rule.inlined.1 ∧ result.findings = []
  := by
  have hchosen : inliningRule.languages.choose (some "a.js") none
      = .ok .javascript := rfl
  have hany : (inliningRule.report .javascript (some "a.js")
      Analysis.readOnce.1).toOption.any fun report => report.hasError = false
        ∧ fixesOf report.findings = [⟨"a", [⟨⟨0, 13⟩, ""⟩, ⟨⟨15, 16⟩, "1"⟩]⟩] := by
    decide +kernel
  have hany' : (inliningRule.report .javascript (some "a.js")
      Rule.inlined.1).toOption.any fun report => report.hasError = false
        ∧ report.findings.isEmpty := by
    decide +kernel
  obtain ⟨report, hreport, hfound⟩ := exists_ok_of_any hany
  obtain ⟨hintact, hfixes⟩ := of_decide_eq_true hfound
  obtain ⟨report', hreport', hfound'⟩ := exists_ok_of_any hany'
  obtain ⟨hintact', hnone⟩ := of_decide_eq_true hfound'
  have hsource : (Fix.applyAll Analysis.readOnce.1 (fixesOf report.findings)).source
      = Rule.inlined.1 := by
    rw [hfixes]
    refine (Fix.source_applyAll ?_ ?_).trans ?_
    all_goals decide +kernel
  have hone : (Fix.applyAll Analysis.readOnce.1 (fixesOf report.findings)).applied.length = 1 := by
    rw [hfixes]
    decide +kernel
  have hleft : fixesOf report.findings ≠ [] := by simp [hfixes]
  rw [List.isEmpty_iff] at hnone
  have hsettled : fixesOf report'.findings = [] := by
    rw [hnone]
    rfl
  let first : FixResult := { source := Analysis.readOnce.1, findings := report.findings }
  have hrun : inliningRule.report .javascript (some "a.js") first.outcome.source
      = .ok report' := by
    rw [← hreport', ← hsource]
    rfl
  refine ⟨first.next report', ?_, ?_, hsource, hnone⟩
  · rw [Rule.fix_eq hchosen hreport, show (10 : Int).toNat = 9 + 1 from rfl,
      fixPasses_of_intact hleft hrun (by rw [hintact', Bool.false_and])]
    exact fixPasses_of_settled hsettled 9
  · have hcount : (first.next report').applied = 0 + 1 := congrArg (0 + ·) hone
    rw [FixResult.changed, hcount]
    rfl

theorem exists_decode_inlined :
  ∃ text, Utf8.decode Rule.inlined.1 = .ok text
  := by
  have hany : (Utf8.decode Rule.inlined.1).toOption.any fun _ => true := by decide +kernel
  obtain ⟨text, htext, -⟩ := exists_ok_of_any hany
  exact ⟨text, htext⟩

theorem sound_besides : besides.Sound :=
  Workspace.sound_of_isName (by decide) (by decide)

theorem exists_resultOf_besides (hrule : lint.rule = inliningRule)
    (hsize : lint.settings.maxFileSize = .null) :
  ∃ result, lint.resultOf besides (.ofText "a.js") = .ok (Analysis.readOnce.1, result)
    ∧ result.changed ∧ result.source = Rule.inlined.1 ∧ result.findings = []
  := by
  obtain ⟨result, hresult, hfixed⟩ := fix_inlining
  have hread : besides.read? (.ofText "a.js") = some Analysis.readOnce.1 := rfl
  have hsource : lint.source besides (.ofText "a.js") = .ok Analysis.readOnce.1 := by
    rw [Lint.source, hread, hsize]
    dsimp only
    rw [isTooLarge, if_neg (by decide), Rule.decode_readOnce]
    rfl
  have htext : (SourcePath.ofText "a.js").text = "a.js" := by decide +kernel
  refine ⟨result, ?_, hfixed⟩
  rw [resultOf, hsource, hrule, htext]
  simp only [bind, Except.bind, Rule.defaultPasses, hresult]
  rfl

end Lint

end SingleUse
