import SingleUse.Proofs.Attribution
import SingleUse.Rule

/-!
# Checking ends in a report

Analysing a source stops early only where it compares a count with an option whose value is no
number.  If nothing is wrong with the options, there is no such value, and whatever the tree is
like, every source that is parsed has a report.
-/

namespace SingleUse

/-! ### Computations that give results -/

/-- A computation in two steps gives a result if the first one does, and so does the second one
with what the first one gives. -/
theorem exists_ok_bind {ε α β : Type} {x : Except ε α} {f : α → Except ε β}
    (hx : ∃ given, x = .ok given) (hf : ∀ given, x = .ok given → ∃ result, f given = .ok result) :
  ∃ result, x >>= f = .ok result
  := by
  obtain ⟨given, rfl⟩ := hx
  exact hf given rfl

/-- Sifting by a test that always has an answer ends. -/
theorem exists_filterM {α : Type} {test : α → Except Error Bool} {l : List α}
    (h : ∀ x ∈ l, ∃ answer, test x = .ok answer) :
  ∃ sifted, l.filterM test = .ok sifted
  := by
  have haux : ∀ kept, ∃ sifted, l.filterAuxM test kept = .ok sifted := by
    induction l with
    | nil => exact fun kept => ⟨kept, rfl⟩
    | cons x rest ih =>
      intro kept
      apply exists_ok_bind (h x List.mem_cons_self)
      intro answer _
      exact ih (fun y hy => h y (List.mem_cons_of_mem _ hy)) _
  exact exists_ok_bind (haux []) fun sifted _ => ⟨sifted.reverse, rfl⟩

/-- Where each item of a list has a result of some kind, they have all. -/
theorem exists_mapM {α β : Type} {f : α → Except Error β} {holds : β → Prop} {l : List α}
    (h : ∀ x ∈ l, ∃ y, f x = .ok y ∧ holds y) :
  ∃ ys, l.mapM f = .ok ys ∧ ∀ y ∈ ys, holds y
  := by
  induction l with
  | nil => exact ⟨[], rfl, by simp⟩
  | cons x rest ih =>
    obtain ⟨y, hy, hholds⟩ := h x List.mem_cons_self
    obtain ⟨ys, hys, hall⟩ := ih fun x hx => h x (List.mem_cons_of_mem _ hx)
    refine ⟨y :: ys, ?_, by simpa using ⟨hholds, hall⟩⟩
    rw [List.mapM_cons, hy, hys]
    rfl

/-! ### Options -/

namespace RuleOptions

variable {options : RuleOptions}

/-- What sound options are. -/
theorem problem?_eq_none_iff :
  options.problem? = none ↔
    (∀ option ∈ RuleOption.switches, isSwitch (options.get option))
      ∧ (∀ option ∈ RuleOption.limits, isLimit (options.get option))
      ∧ (isSwitch options.ignoreArrayVariables ∨ isLimit options.ignoreArrayVariables)
      ∧ ∀ name ∈ options.ignoredVariables, ∃ s, name = .text s
  := by
  have hswitches : RuleOption.switches.find? (fun option => !isSwitch (options.get option)) = none
      ↔ ∀ option ∈ RuleOption.switches, isSwitch (options.get option) := by
    simp [List.find?_eq_none]
  have hlimits : RuleOption.limits.find? (fun option => !isLimit (options.get option)) = none
      ↔ ∀ option ∈ RuleOption.limits, isLimit (options.get option) := by
    simp [List.find?_eq_none]
  have harrays : (!isSwitch options.ignoreArrayVariables && !isLimit options.ignoreArrayVariables)
      ↔ ¬ (isSwitch options.ignoreArrayVariables ∨ isLimit options.ignoreArrayVariables) := by
    simp
  rw [problem?, ← hswitches, ← hlimits]
  split
  · simp [*]
  · split
    · simp [*]
    · split_ifs with hnone hother
      · simp [harrays.mp hnone]
      · obtain ⟨name, hname, hnoText⟩ := List.all_eq_false.mp (Bool.not_eq_true' _ ▸ hother)
        have hnames : ¬ ∀ name ∈ options.ignoredVariables, ∃ s, name = .text s := by
          intro htexts
          obtain ⟨s, rfl⟩ := htexts name hname
          exact hnoText rfl
        simp [hnames]
      · have hsound := not_not.mp (mt harrays.mpr hnone)
        have hnames : ∀ name ∈ options.ignoredVariables, ∃ s, name = .text s := by
          intro name hname
          have htext := List.all_eq_true.mp (by simpa using hother) name hname
          cases name with
          | text s => exact ⟨s, rfl⟩
          | _ => cases htext
        simpa [*] using hnames

/-- The numbers among sound options are numbers. -/
theorem isLimit_of_mem_limits (h : options.problem? = none) :
  ∀ option ∈ RuleOption.limits, isLimit (options.get option)
  := (problem?_eq_none_iff.mp h).2.1

/-- The limit on arrays is a switch or a number if the options are sound. -/
theorem isSwitch_or_isLimit_of_problem? (h : options.problem? = none) :
  isSwitch options.ignoreArrayVariables ∨ isLimit options.ignoreArrayVariables
  := (problem?_eq_none_iff.mp h).2.2.1

theorem exists_exceeds {limit : Value} (h : isLimit limit) (count : Nat) :
  ∃ answer, exceeds count limit = .ok answer
  := by
  cases limit with
  | int n => exact ⟨_, rfl⟩
  | _ => cases h

theorem exists_exemptsArray (h : options.problem? = none) (elements : Nat) :
  ∃ answer, options.exemptsArray elements = .ok answer
  := by
  have harray := isSwitch_or_isLimit_of_problem? h
  rw [exemptsArray]
  cases hvalue : options.ignoreArrayVariables with
  | bool b => exact ⟨_, rfl⟩
  | int n => exact ⟨_, rfl⟩
  | _ => simp [hvalue, isSwitch, isLimit] at harray

theorem exists_anyLonger {limit : Value} (h : isLimit limit) (parts : List String) :
  ∃ answer, anyLonger limit parts = .ok answer
  := by
  induction parts with
  | nil => exact ⟨_, rfl⟩
  | cons part rest ih =>
    apply exists_ok_bind (exists_exceeds h _)
    intro answer _
    cases answer with
    | true => exact ⟨_, rfl⟩
    | false => exact ih

theorem exists_exemptsObject (h : options.problem? = none) (source : Bytes) (object : Cursor) :
  ∃ answer, options.exemptsObject source object = .ok answer
  := by
  have hproperties : isLimit options.maxObjectProperties :=
    isLimit_of_mem_limits h .maxObjectProperties (by decide)
  have hlength : isLimit options.maxPropertyLength :=
    isLimit_of_mem_limits h .maxPropertyLength (by decide)
  rw [exemptsObject]
  split
  · exact ⟨_, rfl⟩
  · apply exists_ok_bind (exists_exceeds hproperties _)
    intro answer _
    cases answer with
    | true => exact ⟨_, rfl⟩
    | false => exact exists_anyLonger hlength _

theorem exists_screenInitializer (h : options.problem? = none) (source : Bytes)
    (initializer : Cursor) :
  ∃ rejection, options.screenInitializer source initializer = .ok rejection
  := by
  have hlength : isLimit options.maxInitializerLength :=
    isLimit_of_mem_limits h .maxInitializerLength (by decide)
  rw [screenInitializer]
  split
  · exact ⟨_, rfl⟩
  · simp only
    split
    · exact exists_ok_bind (exists_exemptsArray h _) fun _ _ => ⟨_, rfl⟩
    · exact exists_ok_bind (exists_exemptsObject h _ _) fun _ _ => ⟨_, rfl⟩
    · exact exists_ok_bind (exists_exceeds hlength _) fun _ _ => ⟨_, rfl⟩

end RuleOptions

/-! ### Analyses and reports -/

variable {options : RuleOptions}

theorem Binding.exists_screen (h : options.problem? = none) (source : Bytes) (b : Binding) :
  ∃ rejection, b.screen options source = .ok rejection
  := by
  rw [screen]
  split_ifs
  · exact ⟨_, rfl⟩
  · exact ⟨_, rfl⟩
  · split
    · exact ⟨_, rfl⟩
    · exact options.exists_screenInitializer h _ _

theorem Registry.exists_declareAll (h : options.problem? = none) (source : Bytes)
    (declared : List Binding) :
  ∀ r : Registry, ∃ r', r.declareAll options source declared = .ok r'
  := by
  induction declared with
  | nil => exact fun r => ⟨r, rfl⟩
  | cons b rest ih =>
    intro r
    apply exists_ok_bind (b.exists_screen h source)
    intro rejection _
    apply ih

/-- Every tree has an analysis if the options are sound. -/
theorem Analysis.exists_ofTree (h : options.problem? = none) (source : Bytes) (tree : Tree)
    (typeContexts : List NodeType) :
  ∃ a, ofTree source tree typeContexts options = .ok a
  := exists_ok_bind (Registry.exists_declareAll h _ _ _) fun _ _ => ⟨_, rfl⟩

/-- Whether a binding that is used once is reported can always be told: its last read is known. -/
theorem Analysis.exists_reportable {source : Bytes} {tree : Tree} {typeContexts : List NodeType}
    {a : Analysis} (h : ofTree source tree typeContexts options = .ok a) :
  ∃ reported, a.registry.reportable options a.scopes = .ok reported
  := by
  apply exists_filterM
  intro b hb
  obtain ⟨hb, huse⟩ := List.mem_filter.mp hb
  have huse : b.useCount = 1 := by simpa using huse
  have hreads := (tallied_of_mem h hb).useCount
  obtain ⟨read, hread⟩ : ∃ read, b.lastRead = some read := by
    obtain ⟨ref, href⟩ := List.length_eq_one_iff.mp (hreads.symm.trans huse)
    rw [(tallied_of_mem h hb).lastRead, href]
    exact ⟨_, rfl⟩
  rw [Binding.check, hread]
  simp only
  rw [if_pos huse]
  exact ⟨_, rfl⟩

/-- A source that is parsed has a report if the options are sound. -/
theorem Rule.exists_report {rule : Rule} (h : rule.options.problem? = none) {language : Language}
    {path : Option String} {source : Bytes}
    (hparse : ∃ parsed, rule.parse source language path = .ok parsed) :
  ∃ report, rule.report language path source = .ok report
  := by
  have hanalyze : ∃ found, rule.analyze source language path = .ok found := by
    apply exists_ok_bind hparse
    intro parsed _
    exact exists_ok_bind (Analysis.exists_ofTree h _ _ _) fun _ _ => ⟨_, rfl⟩
  apply exists_ok_bind hanalyze
  rintro ⟨a, hasError⟩ hfound
  obtain ⟨parsed, -, hfound⟩ := exists_ok_of_bind hfound
  obtain ⟨a', ha, hfound⟩ := exists_ok_of_bind hfound
  obtain ⟨rfl, -⟩ := Prod.mk.inj (Except.ok.inj hfound)
  exact exists_ok_bind (Analysis.exists_reportable ha) fun _ _ => ⟨_, rfl⟩

end SingleUse
