import SingleUse.Analysis
import Mathlib.Data.List.Nodup
import Mathlib.Tactic.Common

/-!
# Registration

The registry of a tree against the list of its declarations.  Every binding of the registry
comes from the first declaration of its key; the later declarations of that key only mark it.
So a binding is told by the declarations of its key: it is *redeclared* if there is more than
one of them and *malformed* if one of them is.
-/

namespace SingleUse

/-! ### Computations that may fail -/

/-- A computation in two steps gives a result if the first one does, and the second one with
what the first one gives. -/
theorem exists_ok_of_bind {ε α β : Type} {x : Except ε α} {f : α → Except ε β} {result : β}
    (h : x >>= f = .ok result) :
  ∃ given, x = .ok given ∧ f given = .ok result
  := by
  cases x with
  | error e => cases h
  | ok given => exact ⟨given, rfl, h⟩

/-- A computation whose result passes a test gives a result. -/
theorem exists_ok_of_any {ε α : Type} {x : Except ε α} {p : α → Bool} (h : x.toOption.any p) :
  ∃ result, x = .ok result ∧ p result
  := by
  cases x with
  | error e => simp [Except.toOption] at h
  | ok result => exact ⟨result, rfl, by simpa [Except.toOption] using h⟩

/-! ### Events and declarations of a tree -/

/-- The events in the course of the traversal of a tree. -/
def Tree.events (tree : Tree) (source : Bytes) (typeContexts : List NodeType) : List Event :=
  (tree.traverse typeContexts).flatMap fun visit =>
    visit.events source (.ofVisits source (tree.traverse typeContexts))

/-- The declarations of a tree from first to last. -/
def Tree.declared (tree : Tree) (source : Bytes) (typeContexts : List NodeType) : List Binding :=
  declarations (tree.events source typeContexts)

/-- A declaration of a tree is one of the declarations at a visit. -/
theorem Tree.mem_declared {tree : Tree} {source : Bytes} {typeContexts : List NodeType}
    {b : Binding} :
  b ∈ tree.declared source typeContexts ↔
    ∃ visit ∈ tree.traverse typeContexts,
      b ∈ visit.bindings source (.ofVisits source (tree.traverse typeContexts))
  := by
  simp only [declared, declarations, events, List.mem_filterMap, List.mem_flatMap]
  constructor
  · rintro ⟨event, ⟨visit, hvisit, hevent⟩, hb⟩
    use visit, hvisit
    cases event with
    | declare d =>
      obtain rfl : d = b := by simpa using hb
      simpa [Visit.events] using hevent
    | assign span => simp at hb
    | ignore span => simp at hb
    | occur v => simp at hb
  · rintro ⟨visit, hvisit, hb⟩
    use .declare b
    constructor
    · use visit, hvisit
      simp [Visit.events, hb]
    · rfl

/-- What a visit says of a binding for good: where it is declared. -/
structure Visit.Places (visit : Visit) (source : Bytes) (b : Binding) : Prop where
  target : ∃ target, b.target = some target ∧ b.name = target.text source
  declaration : b.declaration = some visit.node
  lexical : b.lexical = visit.here.scope
  function : b.function = visit.here.function
  loops : b.loops = visit.here.loops
  initializer : b.origin = .declarator →
    visit.node.category = .declarator ∧ b.initializer = visit.node.childByField .value

/-- What a visit says of a binding that it declares: where it is, whether the code is broken
there, and that nothing is known of its reads and of other declarations yet. -/
structure Visit.Declares (visit : Visit) (source : Bytes) (b : Binding) : Prop
    extends visit.Places source b where
  malformed : ∃ target, b.target = some target
    ∧ b.malformed = (visit.here.inError || target.missing)
  unread : b.useCount = 0 ∧ b.lastRead = none ∧ b.fallbackReads = 0 ∧ b.reassigned = false
  once : b.redeclared = false

/-- What declares no variable has no initializer to speak of. -/
theorem Visit.declares_binding (visit : Visit) (source : Bytes) (target : Cursor)
    (scope : Option ScopeKey) {origin : Origin} (h : origin ≠ .declarator) :
  visit.Declares source (visit.binding source target scope origin)
  where
  target := ⟨target, rfl, rfl⟩
  declaration := rfl
  lexical := rfl
  function := rfl
  loops := rfl
  initializer h' := absurd h' h
  malformed := ⟨target, rfl, rfl⟩
  unread := ⟨rfl, rfl, rfl, rfl⟩
  once := rfl

/-- What a declarator declares has the value of the declarator for its initializer. -/
theorem Visit.declares_of_initializer {visit : Visit} (source : Bytes) (target : Cursor)
    (scope : Option ScopeKey) (origin : Origin) (exported : Bool) (shape : BindingShape)
    (patternKey : Option Cursor) (patternIndex : Option Nat) (rejection : Option Exclusion)
    (hcategory : visit.node.category = .declarator) :
  visit.Declares source
    { visit.binding source target scope origin with
      initializer := visit.node.childByField .value
      exported, shape, patternKey, patternIndex, rejection }
  where
  target := ⟨target, rfl, rfl⟩
  declaration := rfl
  lexical := rfl
  function := rfl
  loops := rfl
  initializer _ := ⟨hcategory, rfl⟩
  malformed := ⟨target, rfl, rfl⟩
  unread := ⟨rfl, rfl, rfl, rfl⟩
  once := rfl

/-- The declarations of a declarator. -/
theorem Visit.declares_of_mem_declaratorBindings {visit : Visit} {source : Bytes}
    {scopes : ScopeTree} {b : Binding} (hcategory : visit.node.category = .declarator)
    (hb : b ∈ visit.declaratorBindings source scopes) :
  visit.Declares source b
  := by
  unfold declaratorBindings at hb
  split at hb
  · simp at hb
  · dsimp only at hb
    split at hb
    case h_1 =>
      obtain rfl := List.mem_singleton.mp hb
      exact declares_of_initializer _ _ _ _ _ _ _ _ _ hcategory
    case h_4 => simp at hb
    all_goals
      split at hb
      · obtain rfl := List.mem_singleton.mp hb
        exact declares_of_initializer _ _ _ _ _ _ _ _ _ hcategory
      · obtain ⟨target, -, rfl⟩ := List.mem_map.mp hb
        exact declares_of_initializer _ _ _ _ _ _ _ _ _ hcategory

/-- Every declaration at a visit says what the visit says. -/
theorem Visit.declares_of_mem_bindings {visit : Visit} {source : Bytes} {scopes : ScopeTree}
    {b : Binding} (hb : b ∈ visit.bindings source scopes) :
  visit.Declares source b
  := by
  simp only [bindings] at hb
  split at hb
  case h_1 hcategory => apply declares_of_mem_declaratorBindings hcategory hb
  case h_2 =>
    rcases List.mem_append.mp hb with hb | hb
    all_goals
      obtain ⟨target, -, rfl⟩ := List.mem_map.mp hb
      apply declares_binding
      simp
  case h_4 =>
    split at hb
    · rename_i origin horigin
      obtain ⟨target, -, rfl⟩ := List.mem_map.mp hb
      apply declares_binding
      rintro rfl
      simp only [namedOrigin] at horigin
      split at horigin <;> simp at horigin
    · simp at hb
  case h_6 =>
    split at hb
    · simp at hb
    · split at hb
      · obtain ⟨target, -, rfl⟩ := List.mem_map.mp hb
        apply declares_binding
        simp
      · simp at hb
  case h_8 => simp at hb
  all_goals
    obtain ⟨target, -, rfl⟩ := List.mem_map.mp hb
    apply declares_binding
    simp

/-! ### Keys -/

namespace Registry

theorem get?_isSome {r : Registry} {key : BindingKey} :
  (r.get? key).isSome ↔ key ∈ r.keys
  := by
  simp [get?_eq_find?, keys]

theorem keys_modify {r : Registry} {key : BindingKey} {change : Binding → Binding}
    (h : ∀ b, (change b).key = b.key) :
  (r.modify key change h).keys = r.keys
  := by
  simp only [keys, bindings_modify, List.map_map]
  apply List.map_congr_left
  intro b _
  simp only [Function.comp]
  split
  · apply h
  · rfl

/-- Declaring a key that is there marks its binding. -/
theorem register_of_mem {r : Registry} {b : Binding} (h : b.key ∈ r.keys) :
  (r.register b).bindings = (r.modify b.key (·.redeclare b) (·.key_redeclare b)).bindings
  := by
  rw [bindings_register, if_pos h, bindings_modify]

/-- Declaring a new key adds a binding at the end. -/
theorem register_of_notMem {r : Registry} {b : Binding} (h : b.key ∉ r.keys) :
  (r.register b).bindings = r.bindings ++ [b]
  := by
  rw [bindings_register, if_neg h]

theorem keys_register (r : Registry) (b : Binding) :
  (r.register b).keys = if b.key ∈ r.keys then r.keys else r.keys ++ [b.key]
  := by
  split
  · rename_i h
    rw [keys, register_of_mem h]
    apply keys_modify
  · rename_i h
    rw [keys, register_of_notMem h]
    simp [keys]

end Registry

/-! ### What a binding is made of -/

namespace Binding

/-- A declaration with the result of its screening. -/
def screened (b : Binding) (rejection : Option Exclusion) : Binding := { b with rejection }

/-- Screening leaves the key of a declaration as it is. -/
@[simp]
theorem key_screened (b : Binding) (rejection : Option Exclusion) :
  (b.screened rejection).key = b.key
  := rfl

/-- The binding after several more declarations of its key. -/
def redeclareAll (b : Binding) (again : List Binding) : Binding := again.foldl redeclare b

/-- Further declarations mark a binding and spoil it if one of them is malformed. -/
theorem redeclareAll_eq (b : Binding) (again : List Binding) :
  b.redeclareAll again =
    { b with
      redeclared := b.redeclared || !again.isEmpty
      malformed := b.malformed || again.any (·.malformed) }
  := by
  induction again generalizing b with
  | nil => simp [redeclareAll]
  | cons head rest ih =>
    rw [redeclareAll, List.foldl_cons, ← redeclareAll, ih]
    simp [redeclare, Bool.or_assoc]

@[simp]
theorem origin_redeclareAll (b : Binding) (again : List Binding) :
  (b.redeclareAll again).origin = b.origin
  := by
  rw [redeclareAll_eq]

@[simp]
theorem rejection_redeclareAll (b : Binding) (again : List Binding) :
  (b.redeclareAll again).rejection = b.rejection
  := by
  rw [redeclareAll_eq]

@[simp]
theorem redeclared_redeclareAll (b : Binding) (again : List Binding) :
  (b.redeclareAll again).redeclared = (b.redeclared || !again.isEmpty)
  := by
  rw [redeclareAll_eq]

@[simp]
theorem malformed_redeclareAll (b : Binding) (again : List Binding) :
  (b.redeclareAll again).malformed = (b.malformed || again.any (·.malformed))
  := by
  rw [redeclareAll_eq]

theorem redeclareAll_append (b : Binding) (again more : List Binding) :
  b.redeclareAll (again ++ more) = (b.redeclareAll again).redeclareAll more
  := List.foldl_append

/-- A binding is *made* from declarations if it is the first declaration of its key, screened,
and then declared again by the others of that key. -/
def MadeFrom (b : Binding) (options : RuleOptions) (source : Bytes) (declared : List Binding) :
    Prop :=
  ∃ first again rejection,
    declared.filter (·.key = b.key) = first :: again
      ∧ first.screen options source = .ok rejection
      ∧ b = (first.screened rejection).redeclareAll again

variable {options : RuleOptions} {source : Bytes} {declared : List Binding} {b d : Binding}

/-- A declaration of another key has no part in a binding. -/
theorem MadeFrom.concat_of_ne (h : b.MadeFrom options source declared) (hd : d.key ≠ b.key) :
  b.MadeFrom options source (declared ++ [d])
  := by
  obtain ⟨first, again, rejection, hfilter, hscreen, hb⟩ := h
  use first, again, rejection
  constructor
  · rw [List.filter_append, hfilter]
    simp [hd]
  · exact ⟨hscreen, hb⟩

/-- A further declaration of its key declares a binding again. -/
theorem MadeFrom.concat_of_eq (h : b.MadeFrom options source declared) (hd : d.key = b.key) :
  (b.redeclare d).MadeFrom options source (declared ++ [d])
  := by
  obtain ⟨first, again, rejection, hfilter, hscreen, hb⟩ := h
  use first, again ++ [d], rejection
  constructor
  · rw [key_redeclare, List.filter_append, hfilter]
    simp [hd]
  · use hscreen
    rw [redeclareAll_append, ← hb]
    rfl

/-- A declaration of a new key is made from itself. -/
theorem MadeFrom.of_new {rejection : Option Exclusion} (hnew : d.key ∉ declared.map (·.key))
    (hscreen : d.screen options source = .ok rejection) :
  (d.screened rejection).MadeFrom options source (declared ++ [d])
  := by
  have hnone : declared.filter (·.key = d.key) = [] := by
    apply List.filter_eq_nil_iff.mpr
    intro e he
    simpa using fun heq => hnew (List.mem_map.mpr ⟨e, he, heq⟩)
  use d, [], rejection
  constructor
  · rw [key_screened, List.filter_append, hnone]
    simp
  · exact ⟨hscreen, rfl⟩

end Binding

/-! ### Filling a registry -/

namespace Registry

variable {options : RuleOptions} {source : Bytes}

/-- A registry *holds* declarations if its bindings are made from them and have all their keys. -/
structure Holds (r : Registry) (options : RuleOptions) (source : Bytes)
    (declared : List Binding) : Prop where
  made : ∀ b ∈ r.bindings, b.MadeFrom options source declared
  complete : ∀ key, key ∈ r.keys ↔ key ∈ declared.map (·.key)

/-- The empty registry holds nothing. -/
theorem holds_nil :
  ({} : Registry).Holds options source []
  where
  made := by simp
  complete := by simp [keys]

/-- Declaring a screened binding makes a registry hold one declaration more. -/
theorem Holds.register {r : Registry} {declared : List Binding}
    (h : r.Holds options source declared) {d : Binding} {rejection : Option Exclusion}
    (hscreen : d.screen options source = .ok rejection) :
  (r.register (d.screened rejection)).Holds options source (declared ++ [d])
  where
  made := by
    intro b hb
    by_cases hkey : d.key ∈ r.keys
    · rw [register_of_mem (by simpa using hkey), bindings_modify] at hb
      obtain ⟨e, he, rfl⟩ := List.mem_map.mp hb
      have hmade := h.made e he
      split
      · rename_i heq
        apply hmade.concat_of_eq (d := d) heq.symm
      · rename_i hne
        apply hmade.concat_of_ne (d := d) (Ne.symm hne)
    · rw [register_of_notMem (by simpa using hkey)] at hb
      rcases List.mem_append.mp hb with hb | hb
      · apply (h.made b hb).concat_of_ne
        rintro heq
        exact hkey (heq ▸ List.mem_map_of_mem hb)
      · obtain rfl := List.mem_singleton.mp hb
        exact .of_new (mt (h.complete _).mpr hkey) hscreen
  complete := by
    intro key
    rw [keys_register, List.map_append, List.mem_append, ← h.complete key]
    split <;> simp_all

/-- Declaring bindings one after the other makes a registry hold them all. -/
theorem Holds.declareAll {rest : List Binding} :
  ∀ {r r' : Registry} {declared : List Binding}, r.Holds options source declared →
    r.declareAll options source rest = .ok r' → r'.Holds options source (declared ++ rest)
  := by
  induction rest with
  | nil =>
    rintro r r' declared h hr
    cases hr
    simpa using h
  | cons d rest ih =>
    intro r r' declared h hr
    obtain ⟨rejection, hscreen, hr⟩ := exists_ok_of_bind hr
    simpa using ih (h.register hscreen) hr

end Registry

end SingleUse
