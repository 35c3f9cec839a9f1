import SingleUse.Proofs.Registration
import SingleUse.Proofs.Surroundings
import Mathlib.Algebra.BigOperators.Group.List.Lemmas
import Mathlib.Algebra.GroupWithZero.Nat

/-!
# Attribution

Attribution goes through the references of a source one after the other and counts each for the
binding that it refers to.  Here the outcome is told without the order of the steps: a binding
ends up as it was declared, with the *tally* of the references that were attributed to it.  So
its counters and marks can be read off the list of its uses.
-/

namespace SingleUse

/-! ### Resolution by keys -/

namespace Registry

/-- A name is looked up in the first of several scopes that has its key. -/
theorem lookup_eq (r : Registry) (name : String) (scopes : List (Option ScopeKey)) :
  (r.lookup name scopes).map (·.key)
    = (scopes.find? fun scope => ⟨name, scope⟩ ∈ r.keys).map fun scope => ⟨name, scope⟩
  := by
  induction scopes with
  | nil => rfl
  | cons scope rest ih =>
    simp only [lookup, List.findSome?_cons, List.find?_cons] at ih ⊢
    cases hget : r.get? ⟨name, scope⟩ with
    | none =>
      have hkey : (⟨name, scope⟩ : BindingKey) ∉ r.keys := by
        rw [← get?_isSome, hget]
        simp
      simpa [hkey] using ih
    | some b =>
      have hkey : (⟨name, scope⟩ : BindingKey) ∈ r.keys := by
        rw [← get?_isSome, hget]
        rfl
      rw [get?_eq_find?] at hget
      have hb : b.key = ⟨name, scope⟩ := by simpa using List.find?_some hget
      simp [hkey, hb]

/-- The first binding of a name is told by the keys. -/
theorem lookupByName_eq (r : Registry) (name : String) :
  (r.lookupByName name).map (·.key) = r.keys.find? fun key => key.name = name
  := by
  rw [lookupByName_eq_find?, keys, List.find?_map]
  rfl

/-- What a name refers to depends on the keys of a registry only. -/
theorem resolve_eq (r : Registry) (scopes : ScopeTree) (name : String)
    (scope : Option ScopeKey) :
  r.resolve scopes name scope
    = match ((scopes.chain scope).map some).find? fun scope => ⟨name, scope⟩ ∈ r.keys with
      | some scope => some (⟨name, scope⟩, false)
      | none => (r.keys.find? fun key => key.name = name).map fun key => (key, true)
  := by
  have hlookup := r.lookup_eq name ((scopes.chain scope).map some)
  rw [resolve]
  cases h : r.lookup name ((scopes.chain scope).map some) with
  | none =>
    rw [h] at hlookup
    rw [Option.map_eq_none_iff.mp hlookup.symm, ← lookupByName_eq, Option.map_map]
    rfl
  | some b =>
    rw [h] at hlookup
    obtain ⟨found, hfound, hkey⟩ := Option.map_eq_some_iff.mp hlookup.symm
    have hb : b.key = ⟨name, found⟩ := hkey.symm
    simp only [hfound, hb]

theorem resolve_congr {r r' : Registry} (h : r.keys = r'.keys) (scopes : ScopeTree)
    (name : String) (scope : Option ScopeKey) :
  r.resolve scopes name scope = r'.resolve scopes name scope
  := by
  rw [resolve_eq, resolve_eq, h]

/-- What a name refers to is declared. -/
theorem mem_keys_of_resolve {r : Registry} {scopes : ScopeTree} {name : String}
    {scope : Option ScopeKey} {key : BindingKey} {fallback : Bool}
    (h : r.resolve scopes name scope = some (key, fallback)) :
  key ∈ r.keys
  := by
  rw [resolve_eq] at h
  split at h
  · rename_i found hfound
    obtain ⟨rfl, -⟩ : ⟨name, found⟩ = key ∧ false = fallback := by simpa using h
    simpa using List.find?_some hfound
  · obtain ⟨found, hfound, hkey⟩ := Option.map_eq_some_iff.mp h
    obtain ⟨rfl, -⟩ : found = key ∧ true = fallback := by simpa using hkey
    exact List.mem_of_find?_eq_some hfound

/-- What is not found by name only is declared in a scope of the chain. -/
theorem mem_chain_of_resolve {r : Registry} {scopes : ScopeTree} {name : String}
    {scope : Option ScopeKey} {key : BindingKey}
    (h : r.resolve scopes name scope = some (key, false)) :
  ∃ k ∈ scopes.chain scope, key = ⟨name, some k⟩
  := by
  rw [resolve_eq] at h
  split at h
  · rename_i found hfound
    obtain ⟨k, hk, rfl⟩ := List.mem_map.mp (List.mem_of_find?_eq_some hfound)
    use k, hk
    simpa using h.symm
  · obtain ⟨found, -, hkey⟩ := Option.map_eq_some_iff.mp h
    simp at hkey

end Registry

/-! ### The tally of some reads -/

/-- Whether a reference is a use of the binding with a key. -/
def Reference.uses (ref : Reference) (key : BindingKey) : Bool :=
  ref.binding = some key && ref.role.counts

/-- The binding after some reads. -/
def Binding.tally (b : Binding) (reads : List Reference) : Binding :=
  reads.foldl (fun b ref => b.count ref.toOccurrence ref.fallback) b

/-- The tally counts the reads, keeps the last one, and marks the binding for what any of them
does. -/
theorem Binding.tally_eq (b : Binding) (reads : List Reference) :
  b.tally reads =
    { b with
      useCount := b.useCount + reads.length
      lastRead := (reads.getLast?.map (·.toOccurrence)).or b.lastRead
      fallbackReads := b.fallbackReads + reads.countP (·.fallback)
      reassigned := b.reassigned || reads.any (·.role = .assignmentTarget)
      malformed := b.malformed || reads.any (·.inError)
      exported := b.exported || reads.any (·.isExport) }
  := by
  induction reads generalizing b with
  | nil => simp [tally]
  | cons ref rest ih =>
    rw [tally, List.foldl_cons, ← tally, ih]
    have hlast : (rest.getLast?.map (·.toOccurrence)).or (some ref.toOccurrence)
        = (ref :: rest).getLast?.map (·.toOccurrence) := by
      rw [List.getLast?_cons]
      cases rest.getLast? <;> rfl
    have hfallback : (if ref.fallback then b.fallbackReads + 1 else b.fallbackReads)
          + rest.countP (·.fallback)
        = b.fallbackReads + (ref :: rest).countP (·.fallback) := by
      rw [List.countP_cons]
      split <;> omega
    simp only [count, hfallback, List.length_cons, List.any_cons, Bool.or_assoc, Option.or_some]
    rw [← hlast]
    simp [Nat.add_assoc, Nat.add_comm 1]

/-- The tally of no reads changes nothing. -/
@[simp]
theorem Binding.tally_nil (b : Binding) :
  b.tally [] = b
  := rfl

theorem Binding.tally_append (b : Binding) (reads more : List Reference) :
  b.tally (reads ++ more) = (b.tally reads).tally more
  := List.foldl_append

/-- A tally leaves the key of a binding as it is. -/
@[simp]
theorem Binding.key_tally (b : Binding) (reads : List Reference) :
  (b.tally reads).key = b.key
  := by
  rw [tally_eq]
  rfl

@[simp]
theorem Binding.origin_tally (b : Binding) (reads : List Reference) :
  (b.tally reads).origin = b.origin
  := by
  rw [tally_eq]

@[simp]
theorem Binding.rejection_tally (b : Binding) (reads : List Reference) :
  (b.tally reads).rejection = b.rejection
  := by
  rw [tally_eq]

@[simp]
theorem Binding.redeclared_tally (b : Binding) (reads : List Reference) :
  (b.tally reads).redeclared = b.redeclared
  := by
  rw [tally_eq]

@[simp]
theorem Binding.malformed_tally (b : Binding) (reads : List Reference) :
  (b.tally reads).malformed = (b.malformed || reads.any (·.inError))
  := by
  rw [tally_eq]

/-- What comes after the first declaration of a binding leaves its place as it is. -/
theorem Visit.Places.tally {visit : Visit} {source : Bytes} {first : Binding}
    (h : visit.Places source first) (rejection : Option Exclusion) (again : List Binding)
    (reads : List Reference) :
  visit.Places source (((first.screened rejection).redeclareAll again).tally reads)
  := by
  rw [Binding.redeclareAll_eq, Binding.tally_eq]
  exact ⟨h.target, h.declaration, h.lexical, h.function, h.loops, h.initializer⟩

/-! ### The run -/

namespace Attribution

variable (scopes : ScopeTree)

/-- One step of the run: a reference that uses a variable is visited. -/
def step (state : Attribution) (ref : Reference) : Attribution × Reference :=
  if ref.role.counts then state.visit scopes ref else (state, ref)

theorem run_cons (state : Attribution) (ref : Reference) (rest : List Reference) :
  state.run scopes (ref :: rest)
    = (((state.step scopes ref).1.run scopes rest).1,
      (state.step scopes ref).2 :: ((state.step scopes ref).1.run scopes rest).2)
  := rfl

/-- A step leaves registry and reference as they are, or counts a reference that uses a variable
for the binding that its name refers to. -/
theorem step_cases (state : Attribution) (ref : Reference) :
  ((state.step scopes ref).1.registry = state.registry ∧ (state.step scopes ref).2 = ref)
    ∨ ∃ key fallback, ref.role.counts
        ∧ state.registry.resolve scopes ref.name ref.scope = some (key, fallback)
        ∧ (state.step scopes ref).1.registry
          = state.registry.modify key (·.count ref.toOccurrence fallback)
              (·.key_count ref.toOccurrence fallback)
        ∧ (state.step scopes ref).2 = { ref with binding := some key, fallback }
  := by
  unfold step
  split
  · rename_i hcounts
    unfold visit
    split
    · exact .inl ⟨rfl, rfl⟩
    · cases h : state.registry.resolve scopes ref.name ref.scope with
      | none => exact .inl ⟨rfl, rfl⟩
      | some found => exact .inr ⟨found.1, found.2, hcounts, rfl, rfl, rfl⟩
  · exact .inl ⟨rfl, rfl⟩

variable {scopes}

/-- A reference is *fresh* if it refers to a binding only where it uses none. -/
def Fresh (ref : Reference) : Prop := ref.role.counts → ref.binding = none

/-- A step adds the reference to the tally of the binding that it comes to refer to. -/
theorem bindings_step (state : Attribution) {ref : Reference} (hfresh : Fresh ref) :
  (state.step scopes ref).1.registry.bindings
    = state.registry.bindings.map fun b =>
        b.tally ([(state.step scopes ref).2].filter (·.uses b.key))
  := by
  rcases step_cases scopes state ref with
    ⟨hregistry, href⟩ | ⟨key, fallback, hcounts, -, hregistry, href⟩
  · have hunused : ∀ b : Binding, ref.uses b.key = false := by
      intro b
      by_cases hcounts : ref.role.counts
      · simp [Reference.uses, hfresh hcounts]
      · simp [Reference.uses, hcounts]
    simp [hregistry, href, hunused]
  · rw [hregistry, href, Registry.bindings_modify]
    apply List.map_congr_left
    intro b _
    by_cases hkey : b.key = key
    · simp [Reference.uses, hcounts, hkey, Binding.tally]
    · simp [Reference.uses, hkey, Ne.symm hkey]

/-- A run ends with every binding as it was, with the tally of the references that have come to
use it. -/
theorem bindings_run {refs : List Reference} :
  ∀ (state : Attribution), (∀ ref ∈ refs, Fresh ref) →
    (state.run scopes refs).1.registry.bindings
      = state.registry.bindings.map fun b =>
          b.tally ((state.run scopes refs).2.filter (·.uses b.key))
  := by
  induction refs with
  | nil =>
    intro state _
    simp [run]
  | cons ref rest ih =>
    intro state hfresh
    rw [run_cons, ih _ fun r hr => hfresh r (List.mem_cons_of_mem _ hr),
      bindings_step state (hfresh ref List.mem_cons_self), List.map_map]
    apply List.map_congr_left
    intro b _
    simp only [Function.comp, Binding.key_tally]
    rw [← Binding.tally_append, ← List.filter_append]
    rfl

/-- Attribution leaves the keys of a registry as they are. -/
theorem keys_run {state : Attribution} {refs : List Reference} (hfresh : ∀ ref ∈ refs, Fresh ref) :
  (state.run scopes refs).1.registry.keys = state.registry.keys
  := by
  simp [Registry.keys, bindings_run state hfresh, Function.comp_def]

/-- A reference that uses a binding after the run has the name, the place and the role that it
had, and refers to what its name refers to there. -/
theorem resolve_of_mem_run {refs : List Reference} :
  ∀ {state : Attribution}, (∀ ref ∈ refs, Fresh ref) →
    ∀ {ref : Reference} {key : BindingKey}, ref ∈ (state.run scopes refs).2 → ref.uses key →
      state.registry.resolve scopes ref.name ref.scope = some (key, ref.fallback)
  := by
  induction refs with
  | nil =>
    intro state _ ref key hmem
    simp [run] at hmem
  | cons head rest ih =>
    intro state hfresh ref key hmem huses
    have hrest : ∀ r ∈ rest, Fresh r := fun r hr => hfresh r (List.mem_cons_of_mem _ hr)
    rw [run_cons] at hmem
    rcases step_cases scopes state head with
      ⟨hregistry, href⟩ | ⟨found, fallback, hcounts, hresolve, hregistry, href⟩
    · rcases List.mem_cons.mp hmem with rfl | hmem
      · rw [href] at huses
        simp only [Reference.uses, Bool.and_eq_true, decide_eq_true_eq] at huses
        simp [hfresh head List.mem_cons_self huses.2] at huses
      · rw [← hregistry]
        exact ih hrest hmem huses
    · rcases List.mem_cons.mp hmem with rfl | hmem
      · rw [href] at huses ⊢
        obtain rfl : found = key := by simpa [Reference.uses, hcounts] using huses
        exact hresolve
      · rw [← ih hrest hmem huses, hregistry]
        apply Registry.resolve_congr
        symm
        apply Registry.keys_modify

end Attribution

/-! ### Attribution by bytes -/

namespace Reference

/-- What attribution makes of a reference whose bytes have not been counted. -/
def attributed (ref : Reference) (r : Registry) (scopes : ScopeTree) : Reference :=
  if ref.role.counts then
    match r.resolve scopes ref.name ref.scope with
    | some (key, fallback) => { ref with binding := some key, fallback }
    | none => ref
  else ref

/-- The read of the binding with a key that a reference comes to be, if it uses a variable and its
name refers to that binding. -/
def readOf? (ref : Reference) (r : Registry) (scopes : ScopeTree) (key : BindingKey) :
    Option Reference :=
  if ref.role.counts ∧ (r.resolve scopes ref.name ref.scope).map (·.1) = some key then
    some (ref.attributed r scopes)
  else none

variable {ref : Reference} {r r' : Registry} {scopes : ScopeTree} {key : BindingKey}

/-- Attribution leaves an occurrence as it is. -/
@[simp]
theorem toOccurrence_attributed (ref : Reference) (r : Registry) (scopes : ScopeTree) :
  (ref.attributed r scopes).toOccurrence = ref.toOccurrence
  := by
  unfold attributed
  split
  · split <;> rfl
  · rfl

theorem attributed_congr (h : r.keys = r'.keys) :
  ref.attributed r scopes = ref.attributed r' scopes
  := by
  rw [attributed, attributed, Registry.resolve_congr h]

theorem readOf?_congr (h : r.keys = r'.keys) :
  ref.readOf? r scopes key = ref.readOf? r' scopes key
  := by
  rw [readOf?, readOf?, Registry.resolve_congr h, attributed_congr h]

/-- A reference that counts is attributed to what its name refers to. -/
theorem uses_attributed (hcounts : ref.role.counts)
    (hresolve : (r.resolve scopes ref.name ref.scope).map (·.1) = some key) :
  (ref.attributed r scopes).uses key
  := by
  obtain ⟨found, hfound, rfl⟩ := Option.map_eq_some_iff.mp hresolve
  simp [attributed, uses, hcounts, hfound]

end Reference

namespace Attribution

variable (scopes : ScopeTree)

/-- A step passes over a reference that uses no variable, or whose bytes have been counted. -/
theorem step_of_mem (state : Attribution) {ref : Reference}
    (h : ref.role.counts → ref.span ∈ state.counted) :
  state.step scopes ref = (state, ref)
  := by
  unfold step
  split
  · rename_i hcounts
    rw [visit, if_pos (by simpa using h hcounts)]
  · rfl

/-- A step attributes a reference whose bytes have not been counted, adds it to the tally of the
binding that it comes to read, and counts no other bytes. -/
theorem step_of_notMem (state : Attribution) {ref : Reference}
    (h : ref.role.counts → ref.span ∉ state.counted) :
  (state.step scopes ref).2 = ref.attributed state.registry scopes
    ∧ (state.step scopes ref).1.counted
      = (if ref.role.counts then ref.span :: state.counted else state.counted)
    ∧ (state.step scopes ref).1.registry.bindings = state.registry.bindings.map fun b =>
        b.tally (ref.readOf? state.registry scopes b.key).toList
  := by
  by_cases hcounts : ref.role.counts
  · rw [step, if_pos hcounts, visit, if_neg (by simpa using h hcounts)]
    cases hresolve : state.registry.resolve scopes ref.name ref.scope with
    | none => simp [Reference.attributed, Reference.readOf?, hcounts, hresolve]
    | some found =>
      have hattributed : ref.attributed state.registry scopes
          = { ref with binding := some found.1, fallback := found.2 } := by
        simp [Reference.attributed, hcounts, hresolve]
      use hattributed.symm, (if_pos hcounts).symm
      dsimp only
      rw [Registry.bindings_modify]
      apply List.map_congr_left
      intro b _
      by_cases hkey : b.key = found.1
      · simp [Reference.readOf?, hattributed, hcounts, hresolve, hkey, Binding.tally]
      · simp [Reference.readOf?, hresolve, hkey, Ne.symm hkey]
  · simp [step, Reference.attributed, Reference.readOf?, hcounts]

/-- References with bytes of their own are all attributed. -/
theorem run_eq_map {refs : List Reference} :
  ∀ {state : Attribution}, (refs.map (·.span)).Nodup → (∀ ref ∈ refs, ref.span ∉ state.counted) →
    (state.run scopes refs).2 = refs.map (·.attributed state.registry scopes)
  := by
  induction refs with
  | nil =>
    intro state _ _
    rfl
  | cons ref rest ih =>
    intro state hnodup hfresh
    rw [List.map_cons, List.nodup_cons] at hnodup
    obtain ⟨hattributed, hcounted, hbindings⟩ :=
      step_of_notMem scopes state fun _ => hfresh ref List.mem_cons_self
    have hkeys : (state.step scopes ref).1.registry.keys = state.registry.keys := by
      simp [Registry.keys, hbindings, Function.comp_def]
    have hrest : ∀ other ∈ rest, other.span ∉ (state.step scopes ref).1.counted := by
      intro other hother hmem
      have hspan : other.span ≠ ref.span := by
        intro heq
        exact hnodup.1 (heq ▸ List.mem_map_of_mem hother)
      have hother := hfresh other (List.mem_cons_of_mem _ hother)
      rw [hcounted] at hmem
      split at hmem <;> simp_all
    rw [run_cons, List.map_cons, hattributed, ih hnodup.2 hrest]
    simp only [Reference.attributed_congr hkeys]

end Attribution

/-! ### The references of a tree -/

/-- The occurrence of an identifier at its visit, in a role. -/
def Visit.occurrence (visit : Visit) (source : Bytes) (role : Role) : Occurrence where
  node := visit.node
  name := visit.node.text source
  role
  scope := visit.here.scope
  function := visit.here.function
  loops := visit.here.loops
  inError := visit.here.inError
  inType := visit.here.typeMode = .query

/-- The reference of an identifier is its occurrence, and refers to a binding only if it declares
one. -/
theorem Marks.reference?_inv {marks : Marks} {source : Bytes} {visit : Visit} {ref : Reference}
    (h : marks.reference? source visit = some ref) :
  ref.toOccurrence = visit.occurrence source ref.role ∧ Attribution.Fresh ref
  := by
  obtain ⟨role, -, rfl⟩ := Option.map_eq_some_iff.mp h
  use rfl
  intro hcounts
  have hrole : role ≠ .declarationTarget := by
    rintro rfl
    simp [Role.counts] at hcounts
  simp [hrole]

/-- Every reference is that of a visited identifier. -/
theorem mem_collectReferences {source : Bytes} {events : List Event} {ref : Reference} :
  ∀ {marks : Marks}, ref ∈ collectReferences source marks events →
    ∃ marks' visit, .occur visit ∈ events ∧ Marks.reference? marks' source visit = some ref
  := by
  induction events with
  | nil =>
    intro marks h
    simp [collectReferences] at h
  | cons event rest ih =>
    intro marks h
    simp only [collectReferences, List.mem_append] at h
    rcases h with h | h
    · cases event with
      | occur visit =>
        use marks, visit, List.mem_cons_self
        simpa using h
      | declare b => simp at h
      | assign span => simp at h
      | ignore span => simp at h
    · obtain ⟨marks', visit, hvisit, href⟩ := ih h
      use marks', visit, List.mem_cons_of_mem _ hvisit

/-- The references of a tree before attribution. -/
def Tree.collected (tree : Tree) (source : Bytes) (typeContexts : List NodeType) :
    List Reference :=
  collectReferences source {} (tree.events source typeContexts)

/-- Before attribution only a declaration refers to a binding. -/
theorem fresh_of_mem_collected {tree : Tree} {source : Bytes} {typeContexts : List NodeType}
    (ref : Reference) (h : ref ∈ tree.collected source typeContexts) :
  Attribution.Fresh ref
  := by
  obtain ⟨marks, visit, -, href⟩ := mem_collectReferences h
  apply (Marks.reference?_inv href).2

/-- Attribution leaves the occurrences as they are. -/
theorem Attribution.occurrences_run {scopes : ScopeTree} {refs : List Reference} :
  ∀ {state : Attribution}, (state.run scopes refs).2.map (·.toOccurrence)
    = refs.map (·.toOccurrence)
  := by
  induction refs with
  | nil =>
    intro state
    rfl
  | cons ref rest ih =>
    intro state
    rw [run_cons, List.map_cons, List.map_cons, ih]
    rcases step_cases scopes state ref with ⟨-, href⟩ | ⟨key, fallback, -, -, -, href⟩
    all_goals rw [href]

namespace Analysis

variable {source : Bytes} {tree : Tree} {typeContexts : List NodeType} {options : RuleOptions}
  {a : Analysis}

/-- An analysis is made in two steps: the declarations fill a registry, and the references are
attributed to its bindings. -/
theorem ofTree_inv (h : ofTree source tree typeContexts options = .ok a) :
  a.source = source ∧ a.scopes = .ofVisits source (tree.traverse typeContexts)
    ∧ ∃ r : Registry, r.Holds options source (tree.declared source typeContexts)
      ∧ a.registry
        = (Attribution.run a.scopes ⟨r, []⟩ (tree.collected source typeContexts)).1.registry
      ∧ a.references
        = (Attribution.run a.scopes ⟨r, []⟩ (tree.collected source typeContexts)).2
  := by
  obtain ⟨r, hr, h⟩ := exists_ok_of_bind h
  have hholds : r.Holds options source (tree.declared source typeContexts) :=
    Registry.holds_nil.declareAll hr
  cases h
  exact ⟨rfl, rfl, r, hholds, rfl, rfl⟩

/-- A binding of an analysis is the first declaration of its key, which stands at a visited place,
screened, declared again by the others of that key, with the tally of its reads. -/
theorem binding_inv (h : ofTree source tree typeContexts options = .ok a) {b : Binding}
    (hb : b ∈ a.registry.bindings) :
  ∃ first again rejection,
    (tree.declared source typeContexts).filter (·.key = b.key) = first :: again
      ∧ first.screen options source = .ok rejection
      ∧ b = ((first.screened rejection).redeclareAll again).tally (a.readsOf b.key)
      ∧ ∃ place ∈ (Cursor.root tree).visited, (Visit.at typeContexts place).Declares source first
  := by
  obtain ⟨-, -, r, hholds, hregistry, hreferences⟩ := ofTree_inv h
  rw [hregistry, Attribution.bindings_run _ fresh_of_mem_collected] at hb
  obtain ⟨d, hd, rfl⟩ := List.mem_map.mp hb
  obtain ⟨first, again, rejection, hfilter, hscreen, rfl⟩ := hholds.made d hd
  have hfirst : first ∈ tree.declared source typeContexts :=
    (List.mem_filter.mp (hfilter ▸ List.mem_cons_self)).1
  obtain ⟨visit, hvisit, hdeclared⟩ := Tree.mem_declared.mp hfirst
  rw [Tree.traverse_eq] at hvisit
  obtain ⟨place, hplace, rfl⟩ := List.mem_map.mp hvisit
  use first, again, rejection
  rw [Binding.key_tally]
  refine ⟨hfilter, hscreen, ?_, place, hplace, Visit.declares_of_mem_bindings hdeclared⟩
  rw [readsOf, hreferences]
  rfl

/-- A binding of an analysis is declared at a visited place. -/
theorem places_inv (h : ofTree source tree typeContexts options = .ok a) {b : Binding}
    (hb : b ∈ a.registry.bindings) :
  ∃ place ∈ (Cursor.root tree).visited, (Visit.at typeContexts place).Places source b
  := by
  obtain ⟨first, again, rejection, -, -, hbinding, place, hplace, hdeclares⟩ := binding_inv h hb
  use place, hplace
  rw [hbinding]
  apply hdeclares.toPlaces.tally

/-- The keys of a registry are distinct, and a reference only uses what is there. -/
theorem nodup_keys (h : ofTree source tree typeContexts options = .ok a) :
  a.registry.keys.Nodup
    ∧ ∀ ref ∈ a.references, ∀ key, ref.uses key → key ∈ a.registry.keys
  := by
  obtain ⟨-, -, r, hholds, hregistry, hreferences⟩ := ofTree_inv h
  rw [hregistry, Attribution.keys_run fresh_of_mem_collected]
  use r.nodup_keys
  intro ref href key huses
  apply Registry.mem_keys_of_resolve
  rw [hreferences] at href
  exact Attribution.resolve_of_mem_run fresh_of_mem_collected href huses

/-- What a reference uses is what its name refers to at its place. -/
theorem resolve_of_uses (h : ofTree source tree typeContexts options = .ok a) {ref : Reference}
    (href : ref ∈ a.references) {key : BindingKey} (huses : ref.uses key) :
  a.registry.resolve a.scopes ref.name ref.scope = some (key, ref.fallback)
  := by
  obtain ⟨-, -, r, -, hregistry, hreferences⟩ := ofTree_inv h
  rw [hreferences] at href
  rw [hregistry, ← Attribution.resolve_of_mem_run fresh_of_mem_collected href huses]
  apply Registry.resolve_congr
  apply Attribution.keys_run fresh_of_mem_collected

/-- A reference of an analysis has the occurrence of one that was made, by the marks at the time,
for an identifier at a visited place. -/
theorem exists_reference?_of_mem (h : ofTree source tree typeContexts options = .ok a)
    {ref : Reference} (href : ref ∈ a.references) :
  ref.node ∈ (Cursor.root tree).visited ∧ ref.node.category = .identifier
    ∧ ∃ marks made, Marks.reference? marks source (Visit.at typeContexts ref.node) = some made
      ∧ ref.toOccurrence = made.toOccurrence
  := by
  obtain ⟨-, -, r, -, -, hreferences⟩ := ofTree_inv h
  have hocc : ref.toOccurrence ∈ a.references.map (·.toOccurrence) := List.mem_map_of_mem href
  rw [hreferences] at hocc
  rw [Attribution.occurrences_run] at hocc
  obtain ⟨made, hmade, heq⟩ := List.mem_map.mp hocc
  obtain ⟨marks, visit, hevent, href'⟩ := mem_collectReferences hmade
  obtain ⟨visit', hvisit', hmem⟩ := List.mem_flatMap.mp hevent
  obtain ⟨hcategory, rfl⟩ : visit'.node.category = .identifier ∧ visit = visit' := by
    simpa [Visit.events] using hmem
  rw [Tree.traverse_eq] at hvisit'
  obtain ⟨place, hplace, rfl⟩ := List.mem_map.mp hvisit'
  obtain rfl : ref.node = place := by
    have hnode := congrArg Occurrence.node (Marks.reference?_inv href').1
    rw [heq] at hnode
    exact hnode
  exact ⟨hplace, hcategory, marks, made, href', heq.symm⟩

/-- A reference of an analysis is the occurrence of an identifier at a visited place. -/
theorem occurrence_of_mem (h : ofTree source tree typeContexts options = .ok a) {ref : Reference}
    (href : ref ∈ a.references) :
  ref.node ∈ (Cursor.root tree).visited ∧ ref.node.category = .identifier
    ∧ ref.toOccurrence = (Visit.at typeContexts ref.node).occurrence source ref.role
  := by
  obtain ⟨hplace, hcategory, marks, made, hmade, heq⟩ := exists_reference?_of_mem h href
  have hoccurrence := (Marks.reference?_inv hmade).1
  rw [← heq] at hoccurrence
  exact ⟨hplace, hcategory, hoccurrence⟩

end Analysis

/-! ### Counters -/

theorem sum_map_ite_one {α : Type} (p : α → Bool) (l : List α) :
  (l.map fun x => if p x then 1 else 0).sum = l.countP p
  := by
  induction l with
  | nil => rfl
  | cons x rest ih =>
    rw [List.map_cons, List.sum_cons, ih, List.countP_cons, Nat.add_comm]

/-- If a list of keys has every key that some references use, and has it once, then the uses of
all keys together are the references that use a binding. -/
theorem sum_length_uses {keys : List BindingKey} (hkeys : keys.Nodup) {refs : List Reference}
    (hrefs : ∀ ref ∈ refs, ∀ key, ref.uses key → key ∈ keys) :
  (keys.map fun key => (refs.filter (·.uses key)).length).sum
    = refs.countP fun ref => ref.role.counts && ref.binding.isSome
  := by
  induction refs with
  | nil => simp
  | cons ref rest ih =>
    have hhead : keys.countP (ref.uses ·)
        = if ref.role.counts && ref.binding.isSome then 1 else 0 := by
      cases hbinding : ref.binding with
      | none => simp [Reference.uses, hbinding]
      | some key =>
        by_cases hcounts : ref.role.counts
        · have hmem : key ∈ keys := by
            apply hrefs ref List.mem_cons_self
            simp [Reference.uses, hbinding, hcounts]
          have huses : (ref.uses ·) = (· == key) := by
            funext k
            simp [Reference.uses, hbinding, hcounts, eq_comm, beq_eq_decide]
          rw [huses, ← List.count_eq_countP, List.count_eq_one_of_mem hkeys hmem]
          simp [hcounts]
        · simp [Reference.uses, hcounts]
    have hcons : ∀ key, ((ref :: rest).filter (·.uses key)).length
        = (if ref.uses key then 1 else 0) + (rest.filter (·.uses key)).length := by
      intro key
      rw [List.filter_cons]
      split <;> simp [Nat.add_comm]
    rw [List.countP_cons, ← ih fun r hr => hrefs r (List.mem_cons_of_mem _ hr), ← hhead,
      ← sum_map_ite_one, Nat.add_comm, ← List.sum_map_add]
    simp only [hcons]

/-- The counters and marks of a binding say what its declarations and its reads are. -/
structure Binding.Tallied (b : Binding) (declared : List Binding) (reads : List Reference) :
    Prop where
  useCount : b.useCount = reads.length
  lastRead : b.lastRead = reads.getLast?.map (·.toOccurrence)
  fallbackReads : b.fallbackReads = reads.countP (·.fallback)
  reassigned : b.reassigned ↔ ∃ ref ∈ reads, ref.role = .assignmentTarget
  malformed : b.malformed ↔
    (∃ d ∈ declared, d.key = b.key ∧ d.malformed) ∨ ∃ ref ∈ reads, ref.inError
  exported : b.exported ↔
    (∃ first, declared.find? (·.key = b.key) = some first ∧ first.exported)
      ∨ ∃ ref ∈ reads, ref.isExport

/-- A declaration together with the later ones of its key and with its reads is tallied. -/
theorem Binding.Tallied.of_declares {visit : Visit} {source : Bytes} {b first : Binding}
    {again declared : List Binding} {rejection : Option Exclusion} {reads : List Reference}
    (hfilter : declared.filter (·.key = b.key) = first :: again)
    (hfirst : visit.Declares source first)
    (hb : b = ((first.screened rejection).redeclareAll again).tally reads) :
  b.Tallied declared reads
  := by
  obtain ⟨huse, hlast, hfallback, hreassigned⟩ := hfirst.unread
  rw [redeclareAll_eq, tally_eq] at hb
  constructor
  · simpa [screened, huse] using congrArg Binding.useCount hb
  · simpa [screened, hlast] using congrArg Binding.lastRead hb
  · simpa [screened, hfallback] using congrArg Binding.fallbackReads hb
  · rw [congrArg Binding.reassigned hb]
    simp [screened, hreassigned]
  · have hdeclared : (∃ d ∈ declared, d.key = b.key ∧ d.malformed) ↔
        ∃ d ∈ first :: again, d.malformed := by
      simp [← hfilter, and_assoc]
    rw [congrArg Binding.malformed hb, hdeclared]
    simp [screened]
  · have hfind : declared.find? (·.key = b.key) = some first := by
      rw [← List.head?_filter, hfilter]
      rfl
    rw [congrArg Binding.exported hb, hfind]
    simp [screened]

namespace Analysis

variable {source : Bytes} {tree : Tree} {typeContexts : List NodeType} {options : RuleOptions}
  {a : Analysis}

/-- Every binding of an analysis is tallied. -/
theorem tallied_of_mem (h : ofTree source tree typeContexts options = .ok a) {b : Binding}
    (hb : b ∈ a.registry.bindings) :
  b.Tallied (tree.declared source typeContexts) (a.readsOf b.key)
  := by
  obtain ⟨first, again, rejection, hfilter, -, hbinding, place, -, hdeclares⟩ := binding_inv h hb
  exact .of_declares hfilter hdeclares hbinding

/-- Counters equal the attributed reads: every binding is tallied, and all use counts together
are the number of references that use a binding. -/
theorem counters_eq_reads (h : ofTree source tree typeContexts options = .ok a) :
  (∀ b ∈ a.registry.bindings,
      b.Tallied (tree.declared source typeContexts) (a.readsOf b.key))
    ∧ (a.registry.bindings.map (·.useCount)).sum
      = a.references.countP fun ref => ref.role.counts && ref.binding.isSome
  := by
  obtain ⟨hnodup, huses⟩ := nodup_keys h
  use fun b => tallied_of_mem h
  calc (a.registry.bindings.map (·.useCount)).sum
      = (a.registry.bindings.map fun b => (a.readsOf b.key).length).sum := by
        rw [List.map_congr_left fun b hb => (tallied_of_mem h hb).useCount]
    _ = (a.registry.keys.map fun key => (a.references.filter (·.uses key)).length).sum := by
        rw [Registry.keys, List.map_map]
        rfl
    _ = a.references.countP fun ref => ref.role.counts && ref.binding.isSome :=
        sum_length_uses hnodup huses

/-- The source `var a = 1; var a; a = b; export { a };`. -/
def declaredTwice : Bytes × Tree where
  fst := Utf8.encode "var a = 1; var a; a = b; export \x7b a \x7d;"
  snd :=
    .named .program 0 38 none
      [.named .variableDeclaration 0 10 none
        [.named .variableDeclarator 4 9 none
          [.named .identifier 4 5 (some .name) [], .named .number 8 9 (some .value) []]],
      .named .variableDeclaration 11 17 none
        [.named .variableDeclarator 15 16 none [.named .identifier 15 16 (some .name) []]],
      .named .expressionStatement 18 24 none
        [.named .assignmentExpression 18 23 none
          [.named .identifier 18 19 (some .left) [], .named .identifier 22 23 (some .right) []]],
      .named .exportStatement 25 38 none
        [.named .exportClause 32 37 none
          [.named .exportSpecifier 34 35 none [.named .identifier 34 35 (some .name) []]]]]

/-- The name that is declared twice has two uses, one of which writes and one of which exports
it. -/
theorem counters_eq_reads_declaredTwice :
  ∃ a, ofTree declaredTwice.1 declaredTwice.2 [] {} = .ok a
    ∧ (a.registry.bindings.map fun b => (b.useCount, b.redeclared, b.reassigned, b.exported))
      = [(2, true, true, true)]
    ∧ (∀ b ∈ a.registry.bindings,
      b.Tallied (declaredTwice.2.declared declaredTwice.1 []) (a.readsOf b.key))
    ∧ (a.registry.bindings.map (·.useCount)).sum
      = a.references.countP fun ref => ref.role.counts && ref.binding.isSome
  := by
  have hany : (ofTree declaredTwice.1 declaredTwice.2 [] {}).toOption.any fun a =>
      (a.registry.bindings.map fun b => (b.useCount, b.redeclared, b.reassigned, b.exported))
        = [(2, true, true, true)] := by
    decide +kernel
  obtain ⟨a, ha, hcounters⟩ := exists_ok_of_any hany
  use a, ha, of_decide_eq_true hcounters
  apply counters_eq_reads ha

end Analysis

end SingleUse
