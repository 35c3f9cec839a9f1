import SingleUse.Binding

/-!
# Registries

A registry holds the bindings of a source in the order in which they were first declared.  A name
that can never be reported is registered too, with the reason in `rejection`, so that it hides the
names outside.  Declaring a key a second time makes no new binding; it marks the one that is there.

Bindings are looked for by name and scope, or by the name alone, and each has a map of its own.
The maps are kept apart: both refer to a binding by the number that it got when it was made, so
that what is found out about it is seen from either.  A registry is a pair of maps that describe
the same bindings.
-/

namespace SingleUse

namespace Registry

/-- Bindings and the two maps that lead to them. -/
structure Tables where
  /-- The bindings in the order in which they were made. -/
  made : List Binding := []
  /-- The numbers of bindings under names and scopes. -/
  byKey : List (BindingKey × Nat) := []
  /-- The numbers of the bindings of each name. -/
  byName : List (String × List Nat) := []

namespace Tables

/-- The number under a key. -/
def number? (t : Tables) (key : BindingKey) : Option Nat :=
  (t.byKey.find? fun entry => entry.1 = key).map (·.2)

/-- The numbers under a name. -/
def named (t : Tables) (name : String) : List Nat :=
  ((t.byName.find? fun entry => entry.1 = name).map (·.2)).getD []

/-- The bindings as the map of keys has them. -/
def bindings (t : Tables) : List Binding := t.byKey.filterMap fun entry => t.made[entry.2]?

/-- The bindings of a name as the map of names has them. -/
def bindingsNamed (t : Tables) (name : String) : List Binding :=
  (t.named name).filterMap fun i => t.made[i]?

/-- The binding with a key. -/
def get? (t : Tables) (key : BindingKey) : Option Binding :=
  (t.number? key).bind fun i => t.made[i]?

/-- The first binding of a name in any scope. -/
def lookupByName (t : Tables) (name : String) : Option Binding :=
  (t.named name).head?.bind fun i => t.made[i]?

/-- Puts a number behind those under a name. -/
def enlist (name : String) (i : Nat) : List (String × List Nat) → List (String × List Nat)
  | [] => [(name, [i])]
  | entry :: rest =>
    if entry.1 = name then (entry.1, entry.2 ++ [i]) :: rest else entry :: enlist name i rest

/-- Makes a binding and puts it into both maps. -/
def add (t : Tables) (b : Binding) : Tables where
  made := t.made ++ [b]
  byKey := t.byKey ++ [(b.key, t.made.length)]
  byName := enlist b.name t.made.length t.byName

/-- Changes the binding with a key. -/
def modify (t : Tables) (key : BindingKey) (change : Binding → Binding) : Tables :=
  match t.number? key with
  | some i => { t with made := t.made.modify i change }
  | none => t

/-- Declares a binding. -/
def register (t : Tables) (b : Binding) : Tables :=
  if (t.get? b.key).isSome then t.modify b.key (·.redeclare b) else t.add b

/-! ### Agreement -/

/-- Both maps describe the bindings that were made: the one has each of them under its key, in the
order in which they were made, and the other has under each name the bindings of that name. -/
structure Consistent (t : Tables) : Prop where
  byKey : t.byKey = t.made.zipIdx.map fun entry => (entry.1.key, entry.2)
  byName : ∀ name,
    t.named name = (t.made.zipIdx.filter fun entry => entry.1.name = name).map (·.2)
  nodup : (t.made.map (·.key)).Nodup

variable {t : Tables} {b : Binding} {key : BindingKey} {change : Binding → Binding}

/-- No maps agree on no bindings. -/
theorem consistent_nil :
  Consistent {}
  where
  byKey := rfl
  byName _ := rfl
  nodup := List.nodup_nil

theorem getElem?_of_mem_zipIdx {entry : Binding × Nat} (h : entry ∈ t.made.zipIdx) :
  t.made[entry.2]? = some entry.1
  := List.mk_mem_zipIdx_iff_getElem?.mp h

/-- A binding is found by way of its number. -/
theorem find?_zipIdx_bind (t : Tables) (p : Binding → Bool) :
  ((t.made.zipIdx.find? fun entry => p entry.1).bind fun entry => t.made[entry.2]?)
    = t.made.find? p
  := by
  have hfst : t.made.find? p = (t.made.zipIdx.find? fun entry => p entry.1).map (·.1) := by
    rw [← List.zipIdx_map_fst 0 t.made, List.find?_map, List.zipIdx_map_fst]
    rfl
  rw [hfst]
  cases hfind : t.made.zipIdx.find? fun entry => p entry.1 with
  | none => rfl
  | some entry => exact getElem?_of_mem_zipIdx (List.mem_of_find?_eq_some hfind)

/-- The numbers of some bindings lead to these bindings. -/
theorem filterMap_of_subset {entries : List (Binding × Nat)} (h : entries ⊆ t.made.zipIdx) :
  entries.filterMap (fun entry => t.made[entry.2]?) = entries.map (·.1)
  := by
  induction entries with
  | nil => rfl
  | cons entry rest ih =>
    rw [List.filterMap_cons, getElem?_of_mem_zipIdx (h List.mem_cons_self), List.map_cons,
      ih fun _ hentry => h (List.mem_cons_of_mem _ hentry)]

namespace Consistent

/-- The map of keys has all bindings. -/
theorem bindings_eq (h : t.Consistent) :
  t.bindings = t.made
  := by
  rw [bindings, h.byKey, List.filterMap_map]
  exact (filterMap_of_subset (List.Subset.refl _)).trans (List.zipIdx_map_fst 0 t.made)

/-- The map of names has the bindings of each name. -/
theorem bindingsNamed_eq (h : t.Consistent) (name : String) :
  t.bindingsNamed name = t.made.filter fun b => b.name = name
  := by
  rw [bindingsNamed, h.byName, List.filterMap_map]
  apply (filterMap_of_subset fun _ hentry => (List.mem_filter.mp hentry).1).trans
  rw [← List.zipIdx_map_fst 0 t.made, List.filter_map, List.zipIdx_map_fst]
  rfl

/-- The number under a key is that of the binding with this key. -/
theorem number?_eq (h : t.Consistent) (key : BindingKey) :
  t.number? key = (t.made.zipIdx.find? fun entry => entry.1.key = key).map (·.2)
  := by
  rw [number?, h.byKey, List.find?_map, Option.map_map]
  rfl

/-- The map of keys leads to the binding with a key. -/
theorem get?_eq (h : t.Consistent) (key : BindingKey) :
  t.get? key = t.made.find? fun b => b.key = key
  := by
  rw [← find?_zipIdx_bind, get?, h.number?_eq, Option.bind_map]
  rfl

/-- The map of names leads to the first binding of a name. -/
theorem lookupByName_eq (h : t.Consistent) (name : String) :
  t.lookupByName name = t.made.find? fun b => b.name = name
  := by
  rw [← find?_zipIdx_bind, lookupByName, h.byName, List.head?_map, List.head?_filter,
    Option.bind_map]
  rfl

/-- Of the bindings the one with a key is changed. -/
theorem made_modify (h : t.Consistent) (key : BindingKey) (change : Binding → Binding) :
  (t.modify key change).made = t.made.map fun b => if b.key = key then change b else b
  := by
  apply List.ext_getElem?
  intro j
  rw [modify, h.number?_eq, List.getElem?_map]
  cases hfind : t.made.zipIdx.find? fun entry => entry.1.key = key with
  | none =>
    have hnone := t.find?_zipIdx_bind fun b => b.key = key
    rw [hfind] at hnone
    cases hj : t.made[j]? with
    | none => simpa using hj
    | some b =>
      have hne := List.find?_eq_none.mp hnone.symm b (List.mem_of_getElem? hj)
      simp only [decide_eq_true_eq] at hne
      simp [hj, hne]
  | some entry =>
    have hi := getElem?_of_mem_zipIdx (List.mem_of_find?_eq_some hfind)
    have hkey : entry.1.key = key := by simpa using List.find?_some hfind
    simp only [Option.map_some, List.getElem?_modify]
    cases hj : t.made[j]? with
    | none => rfl
    | some b =>
      obtain ⟨hlt, -⟩ := List.getElem?_eq_some_iff.mp hi
      have hsame : entry.2 = j ↔ b.key = key := by
        rw [← List.getElem?_inj (by simpa using hlt) h.nodup, List.getElem?_map,
          List.getElem?_map, hi, hj, Option.map_some, Option.map_some, hkey, Option.some_inj]
        exact eq_comm
      by_cases hb : b.key = key
      · simp [hsame.mpr hb, hb]
      · simp [mt hsame.mp hb, hb]

/-- A change that leaves keys as they are leaves the maps in agreement. -/
theorem modify (h : t.Consistent) (key : BindingKey) (hchange : ∀ b, (change b).key = b.key) :
  (t.modify key change).Consistent
  := by
  have hmade := h.made_modify key change
  have hmaps : (t.modify key change).byKey = t.byKey
      ∧ (t.modify key change).byName = t.byName := by
    rw [Tables.modify]
    split <;> exact ⟨rfl, rfl⟩
  have hkey : ∀ b : Binding, (if b.key = key then change b else b).key = b.key := by
    intro b
    split
    · exact hchange b
    · rfl
  have hname : ∀ b : Binding, (if b.key = key then change b else b).name = b.name :=
    fun b => congrArg BindingKey.name (hkey b)
  constructor
  · rw [hmaps.1, hmade, h.byKey, List.zipIdx_map, List.map_map]
    simp [Function.comp_def, hkey]
  · intro name
    rw [named, hmaps.2, hmade, List.zipIdx_map, List.filter_map, List.map_map, ← named, h.byName]
    simp [Function.comp_def, hname]
  · rw [hmade, List.map_map]
    simpa [Function.comp_def, hkey] using h.nodup

/-- A number is put behind those under one name, and under no other one. -/
theorem find?_enlist (name name' : String) (i : Nat) (lists : List (String × List Nat)) :
  (((enlist name i lists).find? fun entry => entry.1 = name').map (·.2)).getD []
    = ((lists.find? fun entry => entry.1 = name').map (·.2)).getD []
      ++ if name = name' then [i] else []
  := by
  induction lists with
  | nil => by_cases hname : name = name' <;> simp [enlist, hname]
  | cons entry rest ih =>
    rw [enlist]
    by_cases hentry : entry.1 = name
    · rw [if_pos hentry]
      by_cases hname : name = name' <;> simp [hentry, hname]
    · rw [if_neg hentry]
      by_cases hname : entry.1 = name'
      · have hne : ¬ name = name' := fun heq => hentry (hname.trans heq.symm)
        simp [hname, hne]
      · simp [hname, ih]

/-- A binding with a new key is added to both maps. -/
theorem add (h : t.Consistent) (hb : b.key ∉ t.made.map (·.key)) :
  (t.add b).Consistent
  where
  byKey := by simp [Tables.add, h.byKey, List.zipIdx_append]
  byName name := by
    have hnamed := h.byName name
    rw [named] at hnamed
    rw [named, Tables.add, find?_enlist, hnamed, List.zipIdx_append, List.filter_append]
    by_cases hname : b.name = name <;> simp [hname]
  nodup := by
    rw [Tables.add, List.map_append, List.nodup_append]
    refine ⟨h.nodup, by simp, ?_⟩
    intro key hkey other hother heq
    obtain rfl : other = b.key := by simpa using hother
    exact hb (heq ▸ hkey)

/-- A declaration leaves the maps in agreement. -/
theorem register (h : t.Consistent) (b : Binding) :
  (t.register b).Consistent
  := by
  rw [Tables.register]
  split
  · apply h.modify
    exact fun old => old.key_redeclare b
  · rename_i hget
    apply h.add
    rw [h.get?_eq, List.find?_isSome] at hget
    simpa using hget

end Consistent

end Tables

end Registry

/-- The bindings of a source in the order of their first declaration. -/
structure Registry where
  tables : Registry.Tables
  consistent : tables.Consistent

namespace Registry

instance : EmptyCollection Registry := ⟨{}, Tables.consistent_nil⟩

/-- The bindings from first to last. -/
def bindings (r : Registry) : List Binding := r.tables.bindings

/-- The number of bindings. -/
def size (r : Registry) : Nat := r.tables.byKey.length

/-- The binding with a key. -/
def get? (r : Registry) (key : BindingKey) : Option Binding := r.tables.get? key

/-- The place of a key in the order of declaration. -/
def indexOf? (r : Registry) (key : BindingKey) : Option Nat :=
  r.bindings.findIdx? fun b => b.key = key

/-- Changes the binding with a key, which is to keep its key. -/
def modify (r : Registry) (key : BindingKey) (change : Binding → Binding)
    (hchange : ∀ b, (change b).key = b.key) : Registry :=
  ⟨r.tables.modify key change, r.consistent.modify key hchange⟩

/-- Declares a binding. -/
def register (r : Registry) (b : Binding) : Registry :=
  ⟨r.tables.register b, r.consistent.register b⟩

/-- The binding of a name in the first of several scopes that has one. -/
def lookup (r : Registry) (name : String) (scopes : List (Option ScopeKey)) : Option Binding :=
  scopes.findSome? fun scope => r.get? ⟨name, scope⟩

/-- The first binding of a name in any scope. -/
def lookupByName (r : Registry) (name : String) : Option Binding := r.tables.lookupByName name

/-- The bindings of a name from first to last, in any scopes. -/
def named (r : Registry) (name : String) : List Binding := r.tables.bindingsNamed name

/-- The bindings that are read once. -/
def singleUse (r : Registry) : List Binding :=
  r.bindings.filter fun b => b.useCount = 1

/-! ### The list of bindings -/

/-- The keys of the bindings in the order of declaration. -/
def keys (r : Registry) : List BindingKey := r.bindings.map (·.key)

@[simp]
theorem bindings_empty :
  ({} : Registry).bindings = []
  := rfl

theorem bindings_eq (r : Registry) :
  r.bindings = r.tables.made
  := r.consistent.bindings_eq

/-- No two bindings have the same key. -/
theorem nodup_keys (r : Registry) :
  r.keys.Nodup
  := by
  rw [keys, bindings_eq]
  exact r.consistent.nodup

/-- There are as many keys in the map as there are bindings. -/
theorem size_eq (r : Registry) :
  r.size = r.bindings.length
  := by
  rw [size, r.consistent.byKey, bindings_eq, List.length_map, List.length_zipIdx]

/-- The map of keys finds what is found in the list. -/
theorem get?_eq_find? (r : Registry) (key : BindingKey) :
  r.get? key = r.bindings.find? fun b => b.key = key
  := by
  rw [bindings_eq]
  exact r.consistent.get?_eq key

/-- The map of names finds what is found in the list. -/
theorem lookupByName_eq_find? (r : Registry) (name : String) :
  r.lookupByName name = r.bindings.find? fun b => b.name = name
  := by
  rw [bindings_eq]
  exact r.consistent.lookupByName_eq name

/-- The map of names has the bindings of a name as the list has them. -/
theorem named_eq (r : Registry) (name : String) :
  r.named name = r.bindings.filter fun b => b.name = name
  := by
  rw [bindings_eq]
  exact r.consistent.bindingsNamed_eq name

theorem bindings_modify (r : Registry) (key : BindingKey) {change : Binding → Binding}
    (hchange : ∀ b, (change b).key = b.key) :
  (r.modify key change hchange).bindings
    = r.bindings.map fun b => if b.key = key then change b else b
  := by
  rw [bindings_eq, bindings_eq]
  exact r.consistent.made_modify key change

/-- A declaration marks the binding with its key, or else it is a new binding at the end. -/
theorem bindings_register (r : Registry) (b : Binding) :
  (r.register b).bindings = if b.key ∈ r.keys
    then r.bindings.map fun old => if old.key = b.key then old.redeclare b else old
    else r.bindings ++ [b]
  := by
  have hthere : (r.tables.get? b.key).isSome ↔ b.key ∈ r.keys := by
    have hget := r.get?_eq_find? b.key
    rw [get?] at hget
    simp [hget, keys]
  rw [bindings_eq, bindings_eq]
  change (r.tables.register b).made = _
  rw [Tables.register]
  by_cases hb : b.key ∈ r.keys
  · rw [if_pos hb, if_pos (hthere.mpr hb)]
    exact r.consistent.made_modify b.key (·.redeclare b)
  · rw [if_neg hb, if_neg (mt hthere.mp hb)]
    rfl

end Registry

end SingleUse
