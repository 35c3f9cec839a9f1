import SingleUse.Proofs.Attribution
import SingleUse.Proofs.Firsts

/-!
# Resolution against a list of declarations

A registry is filled by declarations, one after the other.  Here it is told from the plain list of
them: its bindings are the *firsts* of the declarations by their keys, each *marked* by all
declarations of its key.  What a name refers to can be read off that list, too: the nearest scope of
the chain in which the name was declared, or else the first binding of that name.
-/

namespace SingleUse

/-! ### Marks -/

namespace Binding

/-- A declaration with what a list of declarations says of its key: whether there are several, and
whether one of them is malformed. -/
def marked (b : Binding) (declared : List Binding) : Binding :=
  { b with
    redeclared := 1 < declared.countP (·.key = b.key)
    malformed := declared.any fun d => d.key = b.key && d.malformed }

variable {b d : Binding} {declared : List Binding}

@[simp]
theorem key_marked (b : Binding) (declared : List Binding) :
  (b.marked declared).key = b.key
  := rfl

/-- A declaration of another key does not mark a binding. -/
theorem marked_concat_of_ne (h : d.key ≠ b.key) :
  b.marked (declared ++ [d]) = b.marked declared
  := by
  simp [marked, h]

/-- A further declaration of its key declares a binding again. -/
theorem marked_concat_of_eq (hmem : b ∈ declared) (h : d.key = b.key) :
  b.marked (declared ++ [d]) = (b.marked declared).redeclare d
  := by
  have hpos : 0 < declared.countP (·.key = b.key) := List.countP_pos_iff.mpr ⟨b, hmem, by simp⟩
  simp [marked, redeclare, h, hpos]

/-- The first declaration of its key is marked by what it says itself. -/
theorem marked_concat_of_new (hfresh : d.redeclared = false) (hnew : d.key ∉ declared.map (·.key)) :
  d.marked (declared ++ [d]) = d
  := by
  have hne : ∀ e ∈ declared, ¬ e.key = d.key := by
    intro e he heq
    apply hnew
    rw [← heq]
    apply List.mem_map_of_mem he
  have hcount : declared.countP (·.key = d.key) = 0 := by
    apply List.countP_eq_zero.mpr
    simpa using hne
  have hany : (declared.any fun e => e.key = d.key && e.malformed) = false := by
    apply List.any_eq_false.mpr
    intro e he
    simp [hne e he]
  have hmalformed : ((declared ++ [d]).any fun e => e.key = d.key && e.malformed)
      = d.malformed := by
    rw [List.any_append, hany]
    simp
  cases d
  subst hfresh
  simp only [marked, hmalformed, List.countP_append, hcount]
  simp

end Binding

/-! ### Declarations one after the other -/

namespace Registry

/-- The bindings of a registry are the firsts of what was declared, marked by all of it. -/
theorem bindings_foldl_register {declared : List Binding}
    (hfresh : ∀ d ∈ declared, d.redeclared = false) :
  (declared.foldl register {}).bindings = (firsts Binding.key declared).map (·.marked declared)
  := by
  induction declared using List.reverseRecOn with
  | nil => rfl
  | append_singleton declared d ih =>
    have hbindings := ih fun e he => hfresh e (List.mem_append_left _ he)
    have hkeys : ∀ key, key ∈ (declared.foldl register {}).keys ↔ key ∈ declared.map (·.key) := by
      intro key
      rw [keys, hbindings, List.map_map]
      exact mem_map_firsts
    rw [List.foldl_append, List.foldl_cons, List.foldl_nil, firsts_concat]
    by_cases hmem : d.key ∈ declared.map (·.key)
    · rw [if_pos hmem, register_of_mem ((hkeys _).mpr hmem), bindings_modify, hbindings,
        List.map_map]
      apply List.map_congr_left
      intro b hb
      rw [Function.comp_apply, Binding.key_marked]
      split
      · rename_i heq
        rw [Binding.marked_concat_of_eq ((firsts_sublist declared).mem hb) heq.symm]
      · rename_i hne
        rw [Binding.marked_concat_of_ne (Ne.symm hne)]
    · rw [if_neg hmem, register_of_notMem (mt (hkeys _).mp hmem), hbindings, List.map_append]
      have hold : (firsts Binding.key declared).map (·.marked (declared ++ [d]))
          = (firsts Binding.key declared).map (·.marked declared) := by
        apply List.map_congr_left
        intro b hb
        apply Binding.marked_concat_of_ne
        intro heq
        apply hmem
        rw [heq]
        apply List.mem_map_of_mem ((firsts_sublist declared).mem hb)
      rw [hold, List.map_singleton, Binding.marked_concat_of_new (hfresh d (by simp)) hmem]

/-! ### Resolution -/

section Resolution

variable {r : Registry} {t : ScopeTree} {name : String} {scope : Option ScopeKey}
  {key : BindingKey}

/-- A name refers to what the first scope of its chain that declares it holds. -/
theorem resolve_of_find? {k : ScopeKey}
    (h : (t.chain scope).find? (fun k => ⟨name, some k⟩ ∈ r.keys) = some k) :
  r.resolve t name scope = some (⟨name, some k⟩, false)
  := by
  rw [resolve_eq, List.find?_map]
  simp only [Function.comp_def, h, Option.map_some]

/-- A name that no scope of its chain declares is looked up among all names. -/
theorem resolve_of_forall_notMem (h : ∀ k ∈ t.chain scope, ⟨name, some k⟩ ∉ r.keys) :
  r.resolve t name scope = (r.keys.find? (·.name = name)).map fun key => (key, true)
  := by
  have hnone : (t.chain scope).find? (fun k => ⟨name, some k⟩ ∈ r.keys) = none := by
    apply List.find?_eq_none.mpr
    simpa using h
  rw [resolve_eq, List.find?_map]
  simp only [Function.comp_def, hnone, Option.map_none]

/-- Either a scope of the chain declares a name, or none does. -/
theorem find?_chain_cases (r : Registry) (t : ScopeTree) (name : String)
    (scope : Option ScopeKey) :
  (∃ k, (t.chain scope).find? (fun k => ⟨name, some k⟩ ∈ r.keys) = some k)
    ∨ ∀ k ∈ t.chain scope, ⟨name, some k⟩ ∉ r.keys
  := by
  cases hfind : (t.chain scope).find? (fun k => ⟨name, some k⟩ ∈ r.keys) with
  | some k => exact .inl ⟨k, rfl⟩
  | none => exact .inr (by simpa using List.find?_eq_none.mp hfind)

/-- A name refers to what is declared in the first scope of its chain that declares it. -/
theorem resolve_eq_near_iff :
  r.resolve t name scope = some (key, false)
    ↔ ∃ before k after, t.chain scope = before ++ k :: after
      ∧ key = ⟨name, some k⟩ ∧ key ∈ r.keys ∧ ∀ inner ∈ before, ⟨name, some inner⟩ ∉ r.keys
  := by
  constructor
  · intro h
    obtain ⟨k, hfind⟩ | hnone := r.find?_chain_cases t name scope
    · rw [resolve_of_find? hfind] at h
      obtain rfl : ⟨name, some k⟩ = key := by simpa using h
      obtain ⟨hk, before, after, hchain, hbefore⟩ := List.find?_eq_some_iff_append.mp hfind
      use before, k, after, hchain, rfl
      simpa using And.intro hk hbefore
    · simp [resolve_of_forall_notMem hnone] at h
  · rintro ⟨before, k, after, hchain, rfl, hk, hbefore⟩
    apply resolve_of_find?
    apply List.find?_eq_some_iff_append.mpr
    constructor
    · simpa using hk
    · use before, after, hchain
      simpa using hbefore

/-- A name refers to the first binding of that name if no scope of its chain declares it. -/
theorem resolve_eq_fallback_iff :
  r.resolve t name scope = some (key, true) ↔ (∀ k ∈ t.chain scope, ⟨name, some k⟩ ∉ r.keys)
    ∧ r.keys.find? (·.name = name) = some key
  := by
  obtain ⟨k, hfind⟩ | hnone := r.find?_chain_cases t name scope
  · have hk : ⟨name, some k⟩ ∈ r.keys := by simpa using List.find?_some hfind
    rw [resolve_of_find? hfind]
    constructor
    · simp
    · rintro ⟨hnone, -⟩
      exact absurd hk (hnone k (List.mem_of_find?_eq_some hfind))
  · rw [resolve_of_forall_notMem hnone]
    simpa using fun _ => hnone

/-- A name refers to nothing if nothing has that name. -/
theorem resolve_eq_none_iff :
  r.resolve t name scope = none ↔ ∀ key ∈ r.keys, key.name ≠ name
  := by
  obtain ⟨k, hfind⟩ | hnone := r.find?_chain_cases t name scope
  · have hk : ⟨name, some k⟩ ∈ r.keys := by simpa using List.find?_some hfind
    rw [resolve_of_find? hfind]
    simpa using ⟨_, hk, rfl⟩
  · rw [resolve_of_forall_notMem hnone]
    simp

end Resolution

/-! ### The list of declarations -/

/-- What a registry holds and answers is told by a list of declarations: what is found in the map
of keys, what is found in the map of names, and what names refer to. -/
structure Records (r : Registry) (declared : List Binding) : Prop where
  bindings : r.bindings = (firsts Binding.key declared).map (·.marked declared)
  size : r.size = (firsts Binding.key declared).length
  redeclared : ∀ b ∈ r.bindings, (b.redeclared ↔ 1 < declared.countP (·.key = b.key))
  malformed : ∀ b ∈ r.bindings, (b.malformed ↔ ∃ d ∈ declared, d.key = b.key ∧ d.malformed)
  get : ∀ key, r.get? key
    = ((firsts Binding.key declared).find? (·.key = key)).map (·.marked declared)
  named : ∀ name, r.named name
    = ((firsts Binding.key declared).filter (·.name = name)).map (·.marked declared)
  byName : ∀ name, r.lookupByName name
    = ((firsts Binding.key declared).find? (·.name = name)).map (·.marked declared)
  near : ∀ (t : ScopeTree) name scope key, r.resolve t name scope = some (key, false)
    ↔ ∃ before k after, t.chain scope = before ++ k :: after
      ∧ key = ⟨name, some k⟩ ∧ key ∈ declared.map (·.key)
      ∧ ∀ inner ∈ before, ⟨name, some inner⟩ ∉ declared.map (·.key)
  fallback : ∀ (t : ScopeTree) name scope key, r.resolve t name scope = some (key, true)
    ↔ (∀ k ∈ t.chain scope, ⟨name, some k⟩ ∉ declared.map (·.key))
      ∧ ((firsts Binding.key declared).find? (·.name = name)).map (·.key) = some key
  unknown : ∀ (t : ScopeTree) name scope, r.resolve t name scope = none
    ↔ ∀ d ∈ declared, d.name ≠ name

/-- A registry that is filled with new bindings, one after the other, records them. -/
theorem records_foldl_register {declared : List Binding}
    (hfresh : ∀ d ∈ declared, d.redeclared = false) :
  (declared.foldl register {}).Records declared
  := by
  have hbindings := bindings_foldl_register hfresh
  generalize declared.foldl register {} = r at hbindings
  have hkeys : r.keys = (firsts Binding.key declared).map (·.key) := by
    rw [keys, hbindings, List.map_map]
    rfl
  have hmem : ∀ key, key ∈ r.keys ↔ key ∈ declared.map (·.key) := by
    intro key
    rw [hkeys]
    exact mem_map_firsts
  constructor
  case bindings => exact hbindings
  case size => rw [size_eq, hbindings, List.length_map]
  case redeclared =>
    intro b hb
    rw [hbindings] at hb
    obtain ⟨first, -, rfl⟩ := List.mem_map.mp hb
    simp [Binding.marked, Binding.key]
  case malformed =>
    intro b hb
    rw [hbindings] at hb
    obtain ⟨first, -, rfl⟩ := List.mem_map.mp hb
    simp [Binding.marked, Binding.key]
  case get =>
    intro key
    rw [get?_eq_find?, hbindings, List.find?_map]
    rfl
  case named =>
    intro name
    rw [named_eq, hbindings, List.filter_map]
    rfl
  case byName =>
    intro name
    rw [lookupByName_eq_find?, hbindings, List.find?_map]
    rfl
  case near =>
    intro t name scope key
    simp only [resolve_eq_near_iff, hmem]
  case fallback =>
    intro t name scope key
    simp only [resolve_eq_fallback_iff, hmem]
    rw [hkeys, List.find?_map]
    rfl
  case unknown =>
    intro t name scope
    simp only [resolve_eq_none_iff, hmem, List.forall_mem_map]
    rfl

/-- A name in a program, twice the same one in a block inside, and one in another block. -/
def shadowing : List Binding := [
  { name := "a", scope := some ⟨0, 40, .program⟩ },
  { name := "a", scope := some ⟨10, 20, .statementBlock⟩ },
  { name := "a", scope := some ⟨10, 20, .statementBlock⟩, malformed := true },
  { name := "b", scope := some ⟨30, 38, .statementBlock⟩ }]

/-- A program with two blocks. -/
def twoBlocks : ScopeTree :=
  [⟨⟨0, 40, .program⟩, .program, none, 0⟩,
    ⟨⟨10, 20, .statementBlock⟩, .block, some ⟨0, 40, .program⟩, 1⟩,
    ⟨⟨30, 38, .statementBlock⟩, .block, some ⟨0, 40, .program⟩, 2⟩].foldl ScopeTree.insert {}

/-- The name in the block is the one that is declared again.  From there it hides the one outside,
the name in the other block is found by name only, and a third name is unknown. -/
theorem records_foldl_register_shadowing :
  (∀ d ∈ shadowing, d.redeclared = false)
    ∧ (shadowing.foldl register {}).Records shadowing
    ∧ (shadowing.foldl register {}).bindings.map (fun b => (b.name, b.redeclared, b.malformed))
      = [("a", false, false), ("a", true, true), ("b", false, false)]
    ∧ ["a", "b", "c"].map (fun name => (shadowing.foldl register {}).resolve twoBlocks name
        (some ⟨10, 20, .statementBlock⟩))
      = [some (⟨"a", some ⟨10, 20, .statementBlock⟩⟩, false),
        some (⟨"b", some ⟨30, 38, .statementBlock⟩⟩, true), none]
  := by
  have hfresh : ∀ d ∈ shadowing, d.redeclared = false := by decide
  use hfresh, records_foldl_register hfresh
  decide

end Registry

end SingleUse
