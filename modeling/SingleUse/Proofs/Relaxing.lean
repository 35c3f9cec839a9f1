import SingleUse.Proofs.Completion
import SingleUse.Proofs.Reporting

/-!
# Relaxing the options

Options can be *relaxed*: names are no longer ignored, exemptions are switched off, limits go up.
Two runs over the same tree, one with options and one with relaxed options, are compared step by
step.  They have the same bindings all along, and a binding that is rejected in the second run is
rejected in the first one; all else is the same.  So the findings of the first run are among those
of the second one, in the same order.
-/

namespace SingleUse

/-! ### The order of options -/

/-- A limit and a higher one. -/
inductive LimitLe : Value → Value → Prop where
  | int {m n : Int} (h : m ≤ n) : LimitLe (.int m) (.int n)

theorem LimitLe.inv {limit limit' : Value} (h : LimitLe limit limit') :
  ∃ m n, limit = .int m ∧ limit' = .int n ∧ m ≤ n
  := by
  cases h with
  | int h => exact ⟨_, _, rfl, rfl, h⟩

/-- A limit on arrays and a higher one: `true` exempts all arrays, then come the numbers, and
`false` exempts none. -/
inductive ArrayLimitLe : Value → Value → Prop where
  | all (limit : Value) : ArrayLimitLe (.bool true) limit
  | int {m n : Int} (h : m ≤ n) : ArrayLimitLe (.int m) (.int n)
  | none (limit : Value) : ArrayLimitLe limit (.bool false)

/-- Whether options are relaxed to others. -/
structure RuleOptions.RelaxesTo (options relaxed : RuleOptions) : Prop where
  ignored : ∀ name ∈ relaxed.ignoredVariables, name ∈ options.ignoredVariables
  switches : ∀ option ∈ RuleOption.switches, relaxed.isOn option → options.isOn option
  arrays : ArrayLimitLe options.ignoreArrayVariables relaxed.ignoreArrayVariables
  limits : ∀ option ∈ RuleOption.limits, LimitLe (options.get option) (relaxed.get option)

/-! ### Exemptions -/

namespace RuleOptions

variable {options relaxed : RuleOptions}

theorem RelaxesTo.ignores (h : options.RelaxesTo relaxed) {name : String}
    (hname : relaxed.ignores name) :
  options.ignores name
  := by
  obtain ⟨ignored, hignored, hsame⟩ := List.any_eq_true.mp hname
  exact List.any_eq_true.mpr ⟨ignored, h.ignored ignored hignored, hsame⟩

theorem exceeds_int (count : Nat) (limit : Int) :
  exceeds count (.int limit) = .ok (limit < count)
  := by
  simp [exceeds, Value.number?, Decimal.lt, Decimal.align, Decimal.ofInt, Decimal.scale]

theorem anyLonger_int (limit : Int) (parts : List String) :
  anyLonger (.int limit) parts = .ok (parts.any fun part => limit < part.length)
  := by
  induction parts with
  | nil => rfl
  | cons part rest ih =>
    rw [anyLonger, exceeds_int]
    by_cases hlong : limit < part.length
    · simp [bind, Except.bind, pure, Except.pure, hlong]
    · simp [bind, Except.bind, hlong, ih]

/-- What exceeds the higher one of two limits exceeds the other. -/
theorem exceeds_of_le {count : Nat} {limit limit' : Value} (hle : LimitLe limit limit')
    (h : exceeds count limit' = .ok true) :
  exceeds count limit = .ok true
  := by
  obtain ⟨m, n, rfl, rfl, hle⟩ := hle.inv
  simp only [exceeds_int, Except.ok.injEq, decide_eq_true_eq] at h ⊢
  omega

/-- With limits that are numbers, an object is exempt if all objects are, if it has too many
properties or if one of them is too long. -/
theorem exemptsObject_eq_ok {most longest : Int} (hmost : options.maxObjectProperties = .int most)
    (hlongest : options.maxPropertyLength = .int longest) (source : Bytes) (object : Cursor)
    {answer : Bool} :
  options.exemptsObject source object = .ok answer ↔
    (options.isOn .ignoreObjectVariables || most < object.significantChildren.length
      || object.significantChildren.any fun property => longest < (property.text source).length)
      = answer
  := by
  simp only [exemptsObject, hmost, hlongest, exceeds_int, anyLonger_int, List.any_map]
  by_cases hon : options.isOn .ignoreObjectVariables
  · simp [hon, pure, Except.pure]
  · by_cases hmany : most < object.significantChildren.length
    · simp [hon, hmany, bind, Except.bind, pure, Except.pure]
    · simp [hon, hmany, bind, Except.bind, Function.comp_def]

/-- Relaxed options exempt no array that was not exempt. -/
theorem RelaxesTo.exemptsArray (h : options.RelaxesTo relaxed) {elements : Nat}
    (hexempt : relaxed.exemptsArray elements = .ok true) :
  options.exemptsArray elements = .ok true
  := by
  have harrays := h.arrays
  rw [RuleOptions.exemptsArray] at hexempt ⊢
  generalize options.ignoreArrayVariables = limit at harrays ⊢
  generalize relaxed.ignoreArrayVariables = limit' at harrays hexempt
  cases harrays with
  | all => rfl
  | none => cases hexempt
  | int hle =>
    simp only [exceedsWhole, Value.number?, Decimal.truncate, Decimal.ofInt, Decimal.scale,
      Int.tdiv_one, Except.ok.injEq, decide_eq_true_eq] at hexempt ⊢
    omega

/-- Relaxed options exempt no object that was not exempt. -/
theorem RelaxesTo.exemptsObject (h : options.RelaxesTo relaxed) {source : Bytes} {object : Cursor}
    (hexempt : relaxed.exemptsObject source object = .ok true) :
  options.exemptsObject source object = .ok true
  := by
  obtain ⟨most, most', hmost, hmost', hmore⟩ := (h.limits .maxObjectProperties (by decide)).inv
  obtain ⟨longest, longest', hlongest, hlongest', hlonger⟩ :=
    (h.limits .maxPropertyLength (by decide)).inv
  rw [exemptsObject_eq_ok hmost' hlongest'] at hexempt
  rw [exemptsObject_eq_ok hmost hlongest]
  simp only [Bool.or_eq_true, List.any_eq_true, decide_eq_true_eq] at hexempt ⊢
  rcases hexempt with (hon | hmany) | ⟨property, hproperty, hlong⟩
  · exact .inl (.inl (h.switches .ignoreObjectVariables (by decide) hon))
  · exact .inl (.inr (by omega))
  · exact .inr ⟨property, hproperty, by omega⟩

/-- A test that fails less often than another one rejects less than the other one. -/
theorem reject_eq_none {test test' : Except Error Bool} {exclusion : Exclusion}
    (hanswer : ∃ answer, test' = .ok answer) (hless : test' = .ok true → test = .ok true)
    (hnone : (do return if ← test then some exclusion else none) = Except.ok none) :
  (do return if ← test' then some exclusion else none) = Except.ok none
  := by
  obtain ⟨answer, rfl⟩ := hanswer
  cases answer with
  | false => rfl
  | true =>
    rw [hless rfl] at hnone
    cases hnone

/-- Relaxed options reject no initializer that was not rejected. -/
theorem RelaxesTo.screenInitializer (h : options.RelaxesTo relaxed)
    (hrelaxed : relaxed.problem? = none) {source : Bytes} {initializer : Cursor}
    (hnone : options.screenInitializer source initializer = .ok none) :
  relaxed.screenInitializer source initializer = .ok none
  := by
  rw [RuleOptions.screenInitializer] at hnone ⊢
  have hfunction : ¬ (options.isOn .ignoreFunctionVariables && initializer.isFunctionValue) := by
    intro hfunction
    rw [if_pos hfunction] at hnone
    cases hnone
  have hfunction' : ¬ (relaxed.isOn .ignoreFunctionVariables && initializer.isFunctionValue) := by
    rw [Bool.and_eq_true] at hfunction ⊢
    exact mt (And.imp_left (h.switches .ignoreFunctionVariables (by decide))) hfunction
  rw [if_neg hfunction] at hnone
  rw [if_neg hfunction']
  have hlimit : LimitLe options.maxInitializerLength relaxed.maxInitializerLength :=
    h.limits .maxInitializerLength (by decide)
  have hnumber : isLimit relaxed.maxInitializerLength :=
    isLimit_of_mem_limits hrelaxed .maxInitializerLength (by decide)
  simp only at hnone ⊢
  split at hnone
  · exact reject_eq_none (exists_exemptsArray hrelaxed _) h.exemptsArray hnone
  · exact reject_eq_none (exists_exemptsObject hrelaxed _ _) h.exemptsObject hnone
  · exact reject_eq_none (exists_exceeds hnumber _) (exceeds_of_le hlimit) hnone

end RuleOptions

/-! ### Bindings -/

/-- Relaxed options reject no declaration that was not rejected. -/
theorem Binding.screen_relaxed {options relaxed : RuleOptions} (h : options.RelaxesTo relaxed)
    (hrelaxed : relaxed.problem? = none) {source : Bytes} {b : Binding}
    (hnone : b.screen options source = .ok none) :
  b.screen relaxed source = .ok none
  := by
  rw [screen] at hnone ⊢
  by_cases horigin : b.origin ≠ .declarator
  · rw [if_pos horigin] at hnone
    cases hnone
  by_cases hrejected : b.rejection.isSome
  · rw [if_neg horigin, if_pos hrejected] at hnone
    rw [Except.ok.inj hnone] at hrejected
    cases hrejected
  rw [if_neg horigin, if_neg hrejected] at hnone ⊢
  cases hinitializer : b.initializer with
  | none => rfl
  | some initializer =>
    rw [hinitializer] at hnone
    exact h.screenInitializer hrelaxed hnone

/-- Whether a binding is another one, perhaps rejected for no reason where the other one is
rejected. -/
structure Binding.RelaxesTo (b relaxed : Binding) : Prop where
  same : relaxed = b.screened relaxed.rejection
  rejection : b.rejection = none → relaxed.rejection = none

/-- Whether two registries have the same bindings, fewer of which are rejected in the second one. -/
def Registry.RelaxesTo (r relaxed : Registry) : Prop :=
  List.Forall₂ Binding.RelaxesTo r.bindings relaxed.bindings

/-- A change of a binding that has nothing to do with its rejection. -/
structure Binding.IgnoresRejection (change : Binding → Binding) : Prop where
  key : ∀ b, (change b).key = b.key
  rejection : ∀ b, (change b).rejection = b.rejection
  screened : ∀ b rejection, change (b.screened rejection) = (change b).screened rejection

namespace Binding

variable {b relaxed : Binding}

theorem RelaxesTo.key (h : b.RelaxesTo relaxed) :
  relaxed.key = b.key
  := by
  rw [h.same, key_screened]

theorem RelaxesTo.change (h : b.RelaxesTo relaxed) {change : Binding → Binding}
    (hchange : IgnoresRejection change) :
  (change b).RelaxesTo (change relaxed)
  where
  same := by rw [hchange.rejection, ← hchange.screened, ← h.same]
  rejection := by
    rw [hchange.rejection, hchange.rejection]
    exact h.rejection

theorem ignoresRejection_redeclare (again : Binding) :
  IgnoresRejection (·.redeclare again)
  := ⟨fun _ => rfl, fun _ => rfl, fun _ _ => rfl⟩

theorem ignoresRejection_count (read : Occurrence) (fallback : Bool) :
  IgnoresRejection (·.count read fallback)
  := ⟨fun _ => rfl, fun _ => rfl, fun _ _ => rfl⟩

end Binding

/-! ### Registries -/

theorem map_eq_of_forall₂ {α β : Type} {related : α → α → Prop} {f : α → β}
    (hf : ∀ x x', related x x' → f x' = f x) {l l' : List α} (h : List.Forall₂ related l l') :
  l'.map f = l.map f
  := by
  induction h with
  | nil => rfl
  | cons hx _ ih => rw [List.map_cons, List.map_cons, ih, hf _ _ hx]

namespace Registry

variable {r relaxed : Registry}

theorem RelaxesTo.keys (h : r.RelaxesTo relaxed) :
  relaxed.keys = r.keys
  := map_eq_of_forall₂ (fun _ _ hb => hb.key) h

theorem RelaxesTo.modify (h : r.RelaxesTo relaxed) (key : BindingKey)
    {change : Binding → Binding} (hchange : Binding.IgnoresRejection change) :
  (r.modify key change hchange.key).RelaxesTo (relaxed.modify key change hchange.key)
  := by
  rw [RelaxesTo, bindings_modify, bindings_modify]
  apply List.forall₂_map_left_iff.mpr
  apply List.forall₂_map_right_iff.mpr
  apply h.imp
  intro b b' hb
  rw [hb.key]
  split
  · exact hb.change hchange
  · exact hb

/-- Both registries take up a declaration in the same way. -/
theorem RelaxesTo.register (h : r.RelaxesTo relaxed) {b b' : Binding} (hb : b.RelaxesTo b') :
  (r.register b).RelaxesTo (relaxed.register b')
  := by
  by_cases hkey : b.key ∈ r.keys
  · rw [RelaxesTo, register_of_mem hkey, register_of_mem (by rwa [h.keys, hb.key]), hb.same]
    exact h.modify b.key (Binding.ignoresRejection_redeclare b)
  · rw [RelaxesTo, register_of_notMem hkey, register_of_notMem (by rwa [h.keys, hb.key])]
    exact List.rel_append h (.cons hb .nil)

/-- Screening the same declarations by options and by relaxed options gives the same registries,
apart from the rejections. -/
theorem RelaxesTo.declareAll {options looser : RuleOptions} (hlooser : options.RelaxesTo looser)
    (hsound : looser.problem? = none) {source : Bytes} {declared : List Binding} :
  ∀ {r relaxed r' : Registry}, r.RelaxesTo relaxed →
    r.declareAll options source declared = .ok r' →
    ∃ relaxed', relaxed.declareAll looser source declared = .ok relaxed' ∧ r'.RelaxesTo relaxed'
  := by
  induction declared with
  | nil =>
    rintro r relaxed r' h hr
    cases hr
    exact ⟨relaxed, rfl, h⟩
  | cons b rest ih =>
    intro r relaxed r' h hr
    obtain ⟨rejection, hscreen, hr⟩ := exists_ok_of_bind hr
    obtain ⟨rejection', hscreen'⟩ := b.exists_screen hsound source
    have hb : (b.screened rejection).RelaxesTo (b.screened rejection') := by
      use rfl
      rintro rfl
      exact Except.ok.inj (hscreen'.symm.trans (Binding.screen_relaxed hlooser hsound hscreen))
    obtain ⟨relaxed', hrelaxed', hrelaxes⟩ := ih (h.register hb) hr
    use relaxed'
    rw [Registry.declareAll, hscreen']
    exact ⟨hrelaxed', hrelaxes⟩

end Registry

/-! ### Attribution -/

namespace Attribution

/-- Whether two states have counted the same bytes, with registries that differ in rejections
only. -/
structure RelaxesTo (state relaxed : Attribution) : Prop where
  registry : state.registry.RelaxesTo relaxed.registry
  counted : relaxed.counted = state.counted

/-- A step attributes a reference to the same binding in both states. -/
theorem RelaxesTo.step {state relaxed : Attribution} (h : state.RelaxesTo relaxed)
    (scopes : ScopeTree) (ref : Reference) :
  (state.step scopes ref).1.RelaxesTo (relaxed.step scopes ref).1
    ∧ (relaxed.step scopes ref).2 = (state.step scopes ref).2
  := by
  have hresolve := Registry.resolve_congr h.registry.keys scopes ref.name ref.scope
  unfold Attribution.step
  split
  · unfold visit
    rw [h.counted, hresolve]
    split
    · exact ⟨h, rfl⟩
    · cases state.registry.resolve scopes ref.name ref.scope with
      | none => exact ⟨⟨h.registry, rfl⟩, rfl⟩
      | some found =>
        use ⟨h.registry.modify found.1 (Binding.ignoresRejection_count _ _), rfl⟩
  · exact ⟨h, rfl⟩

/-- A run attributes all references to the same bindings. -/
theorem RelaxesTo.run {scopes : ScopeTree} {refs : List Reference} :
  ∀ {state relaxed : Attribution}, state.RelaxesTo relaxed →
    (state.run scopes refs).1.RelaxesTo (relaxed.run scopes refs).1
      ∧ (relaxed.run scopes refs).2 = (state.run scopes refs).2
  := by
  induction refs with
  | nil =>
    intro state relaxed h
    exact ⟨h, rfl⟩
  | cons ref rest ih =>
    intro state relaxed h
    obtain ⟨hstep, hsame⟩ := h.step scopes ref
    obtain ⟨hrun, hrest⟩ := ih hstep
    rw [run_cons, run_cons, hsame, hrest]
    exact ⟨hrun, rfl⟩

end Attribution

/-! ### Analyses -/

/-- Whether two analyses are the same but for the bindings that are rejected, fewer in the second
one. -/
structure Analysis.RelaxesTo (a relaxed : Analysis) : Prop where
  scopes : relaxed.scopes = a.scopes
  registry : a.registry.RelaxesTo relaxed.registry
  /-- The references are attributed to the same bindings. -/
  references : relaxed.references = a.references
  functionSpans : relaxed.functionSpans = a.functionSpans
  source : relaxed.source = a.source

/-- The analyses of a tree by options and by relaxed options are the same but for rejections. -/
theorem Analysis.exists_relaxesTo {options looser : RuleOptions}
    (hlooser : options.RelaxesTo looser) (hsound : looser.problem? = none) {source : Bytes}
    {tree : Tree} {typeContexts : List NodeType} {a : Analysis}
    (h : ofTree source tree typeContexts options = .ok a) :
  ∃ relaxed, ofTree source tree typeContexts looser = .ok relaxed ∧ a.RelaxesTo relaxed
  := by
  obtain ⟨r, hr, h⟩ := exists_ok_of_bind h
  have hempty : Registry.RelaxesTo {} {} := List.Forall₂.nil
  obtain ⟨r', hr', hrelaxes⟩ := hempty.declareAll hlooser hsound hr
  cases h
  have hstate : Attribution.RelaxesTo ⟨r, []⟩ ⟨r', []⟩ := ⟨hrelaxes, rfl⟩
  obtain ⟨hrun, hsame⟩ := hstate.run
  simp only [ofTree, hr', bind, Except.bind]
  exact ⟨_, rfl, rfl, hrun.registry, hsame, rfl, rfl⟩

/-! ### Reports -/

/-- A binding to which no exclusion applies passes them all. -/
theorem Binding.Passes.exclusion?_eq_none {b : Binding} {read : Occurrence}
    {options : RuleOptions} {scopes : ScopeTree} (h : b.Passes read options scopes) :
  b.exclusion? read options scopes = none
  := by
  have hcallback : ¬ (options.isOn .allowInsideCallback && read.function ≠ b.function) := by
    simpa using h.callback
  have hexported : ¬ (b.exported && options.isOn .ignoreExportedVariables) := by
    simpa using h.exported
  have hobject : ¬ (b.shape = .objectProperty && options.isOn .ignoreObjectDestructuring) := by
    simpa using h.objectDestructuring
  rw [exclusion?, if_neg hcallback, if_neg hexported, if_neg hobject]
  simp [h.ignored, h.rejection, h.loop, h.await, h.reassigned, h.redeclared, h.malformed,
    h.fallbackRead, h.readBeforeDeclaration, h.outsideDeclaringBlock, h.whileLoop]

namespace Binding

variable {options looser : RuleOptions} {scopes : ScopeTree} {b relaxed : Binding}

/-- What passes the exclusions passes them after the options were relaxed. -/
theorem Passes.of_relaxesTo (h : options.RelaxesTo looser) {read : Occurrence}
    (hpasses : b.Passes read options scopes) :
  (b.screened none).Passes read looser scopes
  := {
    hpasses with
    ignored := by
      by_contra hignored
      have hbefore : options.ignores b.name := h.ignores (Bool.not_eq_false _ ▸ hignored)
      rw [hpasses.ignored] at hbefore
      cases hbefore
    rejection := rfl
    callback := fun hon => hpasses.callback (h.switches _ (by decide) hon)
    exported := by
      intro hexported
      by_contra hon
      have hbefore := h.switches .ignoreExportedVariables (by decide) (by simpa using hon)
      rw [hpasses.exported hexported] at hbefore
      cases hbefore
    objectDestructuring := by
      intro hshape
      by_contra hon
      have hbefore := h.switches .ignoreObjectDestructuring (by decide) (by simpa using hon)
      rw [hpasses.objectDestructuring hshape] at hbefore
      cases hbefore }

theorem RelaxesTo.check (hlooser : options.RelaxesTo looser) (h : b.RelaxesTo relaxed)
    (hnone : b.check options scopes = .ok none) :
  relaxed.check looser scopes = .ok none
  := by
  obtain ⟨huse, read, hread, hexclusion⟩ := check_inv hnone
  have hpasses := passes_of_exclusion?_eq_none hexclusion
  have hread' : (b.screened none).lastRead = some read := hread
  have huse' : (b.screened none).useCount = 1 := huse
  rw [h.same, h.rejection hpasses.rejection, Binding.check, hread']
  simp only
  rw [if_pos huse', (hpasses.of_relaxesTo hlooser).exclusion?_eq_none]

end Binding

theorem sublist_of_forall₂ {α β : Type} {related : α → α → Prop} {p p' : α → Bool} {f : α → β}
    (hp : ∀ x x', related x x' → p x → p' x') (hf : ∀ x x', related x x' → f x' = f x)
    {l l' : List α} (h : List.Forall₂ related l l') :
  ((l.filter p).map f).Sublist ((l'.filter p').map f)
  := by
  induction h with
  | nil => exact .slnil
  | @cons x x' _ _ hx _ ih =>
    have hkept := hp x x' hx
    rw [List.filter_cons, List.filter_cons]
    by_cases hpx : p x
    · rw [if_pos hpx, if_pos (hkept hpx), List.map_cons, List.map_cons, hf _ _ hx]
      exact ih.cons_cons _
    · rw [if_neg hpx]
      split
      · exact ih.cons _
      · exact ih

/-- The finding for a binding does not depend on whether it is rejected. -/
theorem Finding.ofBinding_screened (b : Binding) (rejection : Option Exclusion) (source : Bytes)
    (path : Option String) :
  ofBinding (b.screened rejection) source path = ofBinding b source path
  := rfl

/-- Both analyses have findings, and the first one has only findings that the second one has. -/
theorem Analysis.RelaxesTo.sublist {options looser : RuleOptions}
    (hlooser : options.RelaxesTo looser) {a relaxed : Analysis} (h : a.RelaxesTo relaxed)
    {reported reported' : List Binding}
    (hreported : a.registry.reportable options a.scopes = .ok reported)
    (hreported' : relaxed.registry.reportable looser relaxed.scopes = .ok reported')
    (source : Bytes) (path : Option String) :
  (reported.map (Finding.ofBinding · source path)).Sublist
    (reported'.map (Finding.ofBinding · source path))
  := by
  rw [Registry.reportable_inv hreported, Registry.reportable_inv hreported', h.scopes]
  apply sublist_of_forall₂ _ _ h.registry
  · intro b b' hb hnone
    exact decide_eq_true (hb.check hlooser (of_decide_eq_true hnone))
  · intro b b' hb
    rw [hb.same, Finding.ofBinding_screened]

/-! ### Two runs -/

namespace Rule

/-- A rule with other options. -/
def withOptions (rule : Rule) (options : RuleOptions) : Rule := { rule with options }

/-- What a source is read as: its language and its tree. -/
def read (rule : Rule) (source : Bytes) (path language : Option String) :
    Except Error (Language × Parsed) := do
  let chosen ← rule.languages.choose path language
  return (chosen, ← rule.parse source chosen path)

/-- A source is checked by reading it, analysing its tree and reporting the bindings. -/
theorem check_eq_read (rule : Rule) (source : Bytes) (path language : Option String) :
  rule.check source path language = (do
    let (chosen, parsed) ← rule.read source path language
    let a ← Analysis.ofTree source parsed.tree chosen.typeContexts rule.options
    let reported ← a.registry.reportable rule.options a.scopes
    return reported.map (Finding.ofBinding · source path))
  := by
  unfold check report analyze read
  cases hchosen : rule.languages.choose path language with
  | error e => rfl
  | ok chosen =>
    cases hparsed : rule.parse source chosen path with
    | error e => simp [hparsed, bind, Except.bind]
    | ok parsed =>
      cases ha : Analysis.ofTree source parsed.tree chosen.typeContexts rule.options with
      | error e => simp [hparsed, ha, bind, Except.bind, pure, Except.pure]
      | ok a =>
        cases hreported : a.registry.reportable rule.options a.scopes <;>
          simp [hparsed, ha, hreported, bind, Except.bind, pure, Except.pure]

/-- Relaxing the options leaves the analysis of every tree as it is but for the rejections, and
all findings stay what and where they are.  A source that cannot be read has none either way. -/
theorem check_relaxed {rule : Rule} {looser : RuleOptions} (hsound : rule.options.problem? = none)
    (hlooser : looser.problem? = none) (h : rule.options.RelaxesTo looser) :
  (∀ source tree typeContexts, ∃ a relaxed,
      Analysis.ofTree source tree typeContexts rule.options = .ok a
        ∧ Analysis.ofTree source tree typeContexts looser = .ok relaxed ∧ a.RelaxesTo relaxed)
    ∧ ∀ source path language,
      match rule.read source path language with
      | .ok _ => ∃ findings findings', rule.check source path language = .ok findings
          ∧ (rule.withOptions looser).check source path language = .ok findings'
          ∧ findings.Sublist findings'
      | .error e => rule.check source path language = .error e
          ∧ (rule.withOptions looser).check source path language = .error e
  := by
  have hanalyses : ∀ source tree typeContexts, ∃ a relaxed,
      Analysis.ofTree source tree typeContexts rule.options = .ok a
        ∧ Analysis.ofTree source tree typeContexts looser = .ok relaxed
        ∧ a.RelaxesTo relaxed := by
    intro source tree typeContexts
    obtain ⟨a, ha⟩ := Analysis.exists_ofTree hsound source tree typeContexts
    obtain ⟨relaxed, hrelaxed, hrelaxes⟩ := Analysis.exists_relaxesTo h hlooser ha
    exact ⟨a, relaxed, ha, hrelaxed, hrelaxes⟩
  use hanalyses
  intro source path language
  have hread : (rule.withOptions looser).read source path language
      = rule.read source path language := rfl
  rw [check_eq_read, check_eq_read, hread]
  cases rule.read source path language with
  | error e => exact ⟨rfl, rfl⟩
  | ok given =>
    obtain ⟨chosen, parsed⟩ := given
    obtain ⟨a, relaxed, ha, hrelaxed, hrelaxes⟩ :=
      hanalyses source parsed.tree chosen.typeContexts
    obtain ⟨reported, hreported⟩ := Analysis.exists_reportable ha
    obtain ⟨reported', hreported'⟩ := Analysis.exists_reportable hrelaxed
    use reported.map (Finding.ofBinding · source path)
    use reported'.map (Finding.ofBinding · source path)
    refine ⟨?_, ?_, hrelaxes.sublist h hreported hreported' source path⟩
    · simp [bind, Except.bind, pure, Except.pure, ha, hreported]
    · simp [bind, Except.bind, pure, Except.pure, withOptions, hrelaxed, hreported']

/-- A rule that reads every source as `const a = 1; f(a);` and exempts all initializers. -/
def exempting : Rule where
  options := { ignoreArrayVariables := .bool true, maxInitializerLength := .int 0 }
  host := { tree? := fun _ _ => some ⟨Analysis.readOnce.2, false⟩ }

/-- The variable is found only after the options were relaxed to the default ones. -/
theorem check_relaxed_exempting :
  exempting.options.problem? = none ∧ ({} : RuleOptions).problem? = none
    ∧ exempting.options.RelaxesTo {}
    ∧ ∃ findings findings', exempting.check Analysis.readOnce.1 none none = .ok findings
      ∧ (exempting.withOptions {}).check Analysis.readOnce.1 none none = .ok findings'
      ∧ findings.length = 0 ∧ findings'.map (·.name) = ["a"] ∧ findings.Sublist findings'
  := by
  have hsound : exempting.options.problem? = none := by decide +kernel
  have hdefault : ({} : RuleOptions).problem? = none := by decide +kernel
  have hrelaxes : exempting.options.RelaxesTo {} := {
    ignored := by simp
    switches := by decide +kernel
    arrays := .all _
    limits := by
      intro option hoption
      simp only [RuleOption.limits, List.mem_cons, List.not_mem_nil, or_false] at hoption
      rcases hoption with rfl | rfl | rfl
      all_goals exact .int (by decide) }
  refine ⟨hsound, hdefault, hrelaxes, ?_⟩
  have hread : (exempting.read Analysis.readOnce.1 none none).toOption.any fun _ => true := by
    decide +kernel
  have hbefore : (exempting.check Analysis.readOnce.1 none none).toOption.any fun findings =>
      findings.length = 0 := by
    decide +kernel
  have hafter : ((exempting.withOptions {}).check Analysis.readOnce.1 none none).toOption.any
      fun findings => findings.map (·.name) = ["a"] := by
    decide +kernel
  obtain ⟨given, hgiven, -⟩ := exists_ok_of_any hread
  obtain ⟨findings, hfindings, hnone⟩ := exists_ok_of_any hbefore
  obtain ⟨findings', hfindings', hone⟩ := exists_ok_of_any hafter
  have hchecked := (check_relaxed hsound hdefault hrelaxes).2 Analysis.readOnce.1 none none
  rw [hgiven, hfindings, hfindings'] at hchecked
  obtain ⟨found, found', hfound, hfound', hsublist⟩ := hchecked
  cases hfound
  cases hfound'
  use findings, findings', hfindings, hfindings'
  exact ⟨of_decide_eq_true hnone, of_decide_eq_true hone, hsublist⟩

end Rule

end SingleUse
