import SingleUse.Proofs.Surroundings
import Mathlib.Data.List.Infix
import Mathlib.Data.List.Nodup

/-!
# Chains of scopes

The scopes of a tree form a forest: each is opened within scopes that are open already.  Hence
every chain comes to an end, the chain of a key goes on with the chain of the scope around it,
and two chains that meet go on together.  If no two places open a scope with the same key, the
chain of a place lists the places around it that open a scope.
-/

namespace SingleUse

namespace ScopeTree

/-! ### Forests -/

/-- The keys of the scopes in the order of their opening. -/
def keys (t : ScopeTree) : List ScopeKey := t.scopes.map (·.key)

theorem contains_iff {t : ScopeTree} {key : ScopeKey} :
  t.contains key ↔ key ∈ t.keys
  := by
  simp [contains, get?, keys]

theorem scopes_insert (t : ScopeTree) (scope : Scope) :
  (t.insert scope).scopes
    = if scope.key ∈ t.keys then t.scopes else t.scopes ++ [scope]
  := by
  simp [insert, contains_iff]

/-- A scope tree is a *forest* if its keys are distinct and every scope is opened after the
scope around it. -/
structure Forest (t : ScopeTree) : Prop where
  nodup : t.keys.Nodup
  parents : ∀ before scope after, t.scopes = before ++ scope :: after →
    ∀ key, scope.parent = some key → key ∈ before.map (·.key)

/-- The tree without scopes is a forest. -/
theorem forest_nil :
  ({} : ScopeTree).Forest
  where
  nodup := by simp [keys]
  parents := by simp

theorem keys_insert (t : ScopeTree) (scope : Scope) :
  (t.insert scope).keys = if scope.key ∈ t.keys then t.keys else t.keys ++ [scope.key]
  := by
  rw [keys, scopes_insert]
  split <;> simp [keys]

/-- What is open stays open. -/
theorem mem_keys_insert {t : ScopeTree} {scope : Scope} {key : ScopeKey} (h : key ∈ t.keys) :
  key ∈ (t.insert scope).keys
  := by
  rw [keys_insert]
  split <;> simp [h]

theorem key_mem_keys_insert (t : ScopeTree) (scope : Scope) :
  scope.key ∈ (t.insert scope).keys
  := by
  rw [keys_insert]
  split
  · assumption
  · simp

/-- Opening a scope within an open one makes a forest of a forest. -/
theorem Forest.insert {t : ScopeTree} (h : t.Forest) {scope : Scope}
    (hparent : ∀ key, scope.parent = some key → key ∈ t.keys) :
  (t.insert scope).Forest
  where
  nodup := by
    rw [keys_insert]
    split
    · exact h.nodup
    · rename_i hnew
      simpa using h.nodup.concat hnew
  parents := by
    intro before scope' after hscopes key hkey
    rw [scopes_insert] at hscopes
    split at hscopes
    · exact h.parents before scope' after hscopes key hkey
    · rcases List.eq_nil_or_concat after with rfl | ⟨init, last, rfl⟩
      · obtain ⟨rfl, heq⟩ := List.append_inj' hscopes rfl
        obtain rfl := List.singleton_inj.mp heq
        exact hparent key hkey
      · have hsplit : t.scopes ++ [scope] = (before ++ scope' :: init) ++ [last] := by
          simpa using hscopes
        obtain ⟨hold, -⟩ := List.append_inj' hsplit rfl
        exact h.parents before scope' init hold key hkey

/-! ### Opening scopes within open ones -/

/-- Whether of some scopes, opened one after the other, each stands alone or within one that is open
by then. -/
def OpensWithin (t : ScopeTree) : List Scope → Prop
  | [] => True
  | scope :: rest => (∀ key ∈ scope.parent, key ∈ t.keys) ∧ (t.insert scope).OpensWithin rest

/-- Decides whether scopes are opened within open ones. -/
def decideOpensWithin : ∀ (t : ScopeTree) (scopes : List Scope), Decidable (t.OpensWithin scopes)
  | _, [] => isTrue trivial
  | t, scope :: rest =>
    have := decideOpensWithin (t.insert scope) rest
    inferInstanceAs (Decidable ((∀ key ∈ scope.parent, key ∈ t.keys) ∧ _))

instance (t : ScopeTree) (scopes : List Scope) : Decidable (t.OpensWithin scopes) :=
  t.decideOpensWithin scopes

theorem opensWithin_append {t : ScopeTree} {scopes more : List Scope} :
  t.OpensWithin (scopes ++ more) ↔ t.OpensWithin scopes ∧ (scopes.foldl insert t).OpensWithin more
  := by
  induction scopes generalizing t with
  | nil => simp [OpensWithin]
  | cons head rest ih => rw [List.cons_append, OpensWithin, OpensWithin, ih, and_assoc]; rfl

/-- Opening scopes within open ones makes a forest of a forest. -/
theorem OpensWithin.forest {t : ScopeTree} {scopes : List Scope} (h : t.OpensWithin scopes)
    (hforest : t.Forest) :
  (scopes.foldl .insert t).Forest
  := by
  induction scopes generalizing t with
  | nil => exact hforest
  | cons head rest ih => apply ih h.2 (hforest.insert h.1)

/-- The scopes that are open stay the first ones. -/
theorem scopes_isPrefix_foldl_insert (scopes : List Scope) :
  ∀ t : ScopeTree, t.scopes <+: (scopes.foldl insert t).scopes
  := by
  induction scopes with
  | nil =>
    intro t
    exact List.prefix_rfl
  | cons scope rest ih =>
    intro t
    apply List.IsPrefix.trans _ (ih (t.insert scope))
    rw [scopes_insert]
    split
    · exact List.prefix_rfl
    · apply List.prefix_append

theorem keys_subset_foldl_insert (scopes : List Scope) (t : ScopeTree) :
  t.keys ⊆ (scopes.foldl insert t).keys
  := ((scopes_isPrefix_foldl_insert scopes t).map _).subset

/-! ### Chains -/

/-- The place of a key in the order of opening. -/
def rank (t : ScopeTree) (key : ScopeKey) : Nat := t.keys.idxOf key

/-- The scope around a scope was opened before it. -/
theorem Forest.rank_lt_of_parent {t : ScopeTree} (h : t.Forest) {key up : ScopeKey}
    (hparent : t.parent key = some up) :
  t.rank up < t.rank key ∧ t.rank key < t.size
  := by
  obtain ⟨scope, hget, hup⟩ := Option.bind_eq_some_iff.mp hparent
  obtain ⟨hkey, before, after, hscopes, hbefore⟩ := List.find?_eq_some_iff_append.mp hget
  obtain rfl : scope.key = key := by simpa using hkey
  have hmem := h.parents before scope after hscopes up hup
  have hnot : scope.key ∉ before.map (·.key) := by
    intro hin
    obtain ⟨scope', hscope', heq⟩ := List.mem_map.mp hin
    simpa [heq] using hbefore scope' hscope'
  have hrank : t.rank scope.key = before.length := by
    rw [rank, keys, hscopes, List.map_append, List.idxOf_append_of_notMem hnot]
    simp
  constructor
  · rw [hrank, rank, keys, hscopes, List.map_append, List.idxOf_append_of_mem hmem]
    simpa using List.idxOf_lt_length_of_mem hmem
  · rw [hrank, size, hscopes]
    simp

/-- What holds of no key, and of a key if it holds of the one around it, holds of all keys. -/
theorem Forest.induction_on_parent {t : ScopeTree} (h : t.Forest)
    {motive : Option ScopeKey → Prop} (outside : motive none)
    (within : ∀ key, motive (t.parent key) → motive (some key)) (key : Option ScopeKey) :
  motive key
  := by
  have hall : ∀ n key, t.rank key < n → motive (some key) := by
    intro n
    induction n with
    | zero => intro key hlt; omega
    | succ n ih =>
      intro key hlt
      apply within
      cases hparent : t.parent key with
      | none => exact outside
      | some up =>
        have hrank := h.rank_lt_of_parent hparent
        exact ih up (by omega)
  cases key with
  | none => exact outside
  | some key => exact hall _ key (Nat.lt_succ_self _)

@[simp]
theorem chain_none (t : ScopeTree) :
  t.chain none = []
  := by
  simp [chain, chainUpTo]

/-- Beyond the rank of a key its chain gets no longer. -/
theorem Forest.chainUpTo_congr {t : ScopeTree} (h : t.Forest) {n : Nat} :
  ∀ {m : Nat} {key : ScopeKey}, t.rank key < n → t.rank key < m →
    t.chainUpTo n (some key) = t.chainUpTo m (some key)
  := by
  induction n with
  | zero => intro m key hn; omega
  | succ n ih =>
    intro m key hn hm
    cases m with
    | zero => omega
    | succ m =>
      rw [chainUpTo, chainUpTo]
      cases hparent : t.parent key with
      | none => cases n <;> cases m <;> rfl
      | some up =>
        have hrank := h.rank_lt_of_parent hparent
        rw [ih (m := m) (by omega) (by omega)]

/-- The chain of a key goes on with that of the scope around it. -/
theorem Forest.chain_some {t : ScopeTree} (h : t.Forest) (key : ScopeKey) :
  t.chain (some key) = key :: t.chain (t.parent key)
  := by
  rw [chain, chainUpTo, chain]
  cases hparent : t.parent key with
  | none => cases t.size <;> rfl
  | some up =>
    have hrank := h.rank_lt_of_parent hparent
    rw [h.chainUpTo_congr (m := t.size + 1) (by omega) (by omega)]

/-- From any of its keys on, a chain is the chain of that key. -/
theorem Forest.chain_suffix {t : ScopeTree} (h : t.Forest) {key : ScopeKey}
    {inner : Option ScopeKey} (hmem : key ∈ t.chain inner) :
  t.chain (some key) <:+ t.chain inner
  := by
  induction inner using h.induction_on_parent with
  | outside => simp at hmem
  | within inner ih =>
    rw [h.chain_some inner] at hmem ⊢
    rcases List.mem_cons.mp hmem with rfl | hmem
    · rw [h.chain_some]
    · exact (ih hmem).trans (List.suffix_cons _ _)

/-- A chain has no key twice. -/
theorem Forest.nodup_chain {t : ScopeTree} (h : t.Forest) (inner : Option ScopeKey) :
  (t.chain inner).Nodup
  := by
  induction inner using h.induction_on_parent with
  | outside => simp
  | within inner ih =>
    rw [h.chain_some inner]
    apply List.nodup_cons.mpr
    constructor
    · intro hmem
      have hlength := (h.chain_suffix hmem).length_le
      rw [h.chain_some inner, List.length_cons] at hlength
      omega
    · exact ih

end ScopeTree

/-! ### The scopes of a tree -/

namespace Cursor

variable (source : Bytes) (typeContexts : List NodeType)

/-- The scope that a place opens. -/
def scope? (c : Cursor) : Option Scope := (Visit.at typeContexts c).scope? source

/-- The tree after the scopes of some places were opened, one after the other. -/
def openAll (t : ScopeTree) (places : List Cursor) : ScopeTree :=
  (places.filterMap (scope? source typeContexts)).foldl .insert t

variable {source typeContexts}

theorem key_of_scope?_eq_some {c : Cursor} {scope : Scope}
    (h : c.scope? source typeContexts = some scope) :
  scope.key = .ofNode c ∧ scope.parent = (Surroundings.around typeContexts c).scope
    ∧ (Surroundings.inside typeContexts c).scope = some (.ofNode c)
  := by
  obtain ⟨kind, hkind, rfl⟩ := Option.map_eq_some_iff.mp h
  have hopens : c.scopeKind = some kind := hkind
  refine ⟨rfl, rfl, ?_⟩
  rw [Surroundings.inside_eq, Surroundings.enter, hopens]
  rfl

theorem scope?_eq_none_iff {c : Cursor} :
  c.scope? source typeContexts = none ↔ c.scopeKind = none
  := by
  simp [scope?, Visit.scope?, Visit.at, Visit.ofNode]

/-- A place that opens no scope has the scope around it inside. -/
theorem scope_inside_of_none {c : Cursor} (h : c.scopeKind = none) :
  (Surroundings.inside typeContexts c).scope = (Surroundings.around typeContexts c).scope
  := by
  rw [Surroundings.inside_eq, Surroundings.enter, h]
  rfl

variable (source typeContexts)

/-- Whether the scope around a place is open. -/
def Ready (t : ScopeTree) (c : Cursor) : Prop :=
  ∀ key, (Surroundings.around typeContexts c).scope = some key → key ∈ t.keys

/-- Whether opening the scopes of some places turns forests into forests, as long as the scopes
around given places are open. -/
def GrowsForests (around places : List Cursor) : Prop :=
  ∀ t : ScopeTree, t.Forest → (∀ c ∈ around, Ready typeContexts t c) →
    (openAll source typeContexts t places).Forest
      ∧ t.keys ⊆ (openAll source typeContexts t places).keys

variable {source typeContexts}

theorem Ready.mono {t t' : ScopeTree} {c : Cursor} (h : Ready typeContexts t c)
    (hkeys : t.keys ⊆ t'.keys) :
  Ready typeContexts t' c
  := fun key hkey => hkeys (h key hkey)

/-- The scope of a place is opened within an open one if the scope around the place is open. -/
theorem opensWithin_singleton {t : ScopeTree} {c : Cursor} (hready : Ready typeContexts t c) :
  t.OpensWithin ([c].filterMap (scope? source typeContexts))
  := by
  cases hscope : c.scope? source typeContexts with
  | none => simp [hscope, ScopeTree.OpensWithin]
  | some scope =>
    obtain ⟨-, hparent, -⟩ := key_of_scope?_eq_some hscope
    rw [List.filterMap_cons, hscope]
    constructor
    · rw [hparent]
      exact hready
    · trivial

/-- After the scope of a place is opened, those around the places below are open. -/
theorem ready_openAll_singleton {t : ScopeTree} {c child : Cursor} (hready : Ready typeContexts t c)
    (hparent : child.parent = some c) :
  Ready typeContexts (openAll source typeContexts t [c]) child
  := by
  intro key hkey
  rw [Surroundings.around_of_parent hparent] at hkey
  cases hscope : c.scope? source typeContexts with
  | none =>
    rw [scope_inside_of_none (scope?_eq_none_iff.mp hscope)] at hkey
    simpa [openAll, hscope] using hready key hkey
  | some scope =>
    obtain ⟨hscopeKey, -, hinside⟩ := key_of_scope?_eq_some hscope
    obtain rfl : scope.key = key := by
      rw [hscopeKey]
      exact Option.some.inj (hinside.symm.trans hkey)
    simpa [openAll, hscope] using t.key_mem_keys_insert scope

theorem opensWithin_flatMap {f : Cursor → List Cursor} {places : List Cursor} :
  ∀ {t : ScopeTree}, (∀ c ∈ places, Ready typeContexts t c) →
    (∀ c ∈ places, ∀ {t : ScopeTree}, Ready typeContexts t c →
      t.OpensWithin ((f c).filterMap (scope? source typeContexts))) →
        t.OpensWithin ((places.flatMap f).filterMap (scope? source typeContexts))
  := by
  induction places with
  | nil =>
    intro t _ _
    trivial
  | cons c rest ih =>
    intro t hready h
    rw [List.flatMap_cons, List.filterMap_append]
    apply ScopeTree.opensWithin_append.mpr
    constructor
    · apply h c List.mem_cons_self (hready c List.mem_cons_self)
    · apply ih
      · intro d hd
        apply (hready d (List.mem_cons_of_mem _ hd)).mono
        apply ScopeTree.keys_subset_foldl_insert
      · intro d hd
        exact h d (List.mem_cons_of_mem _ hd)

/-- Visiting from a place on opens scopes within open ones only. -/
theorem opensWithin_visited (c : Cursor) :
  ∀ {t : ScopeTree}, Ready typeContexts t c →
    t.OpensWithin (c.visited.filterMap (scope? source typeContexts))
  := by
  induction c using induction_on_namedChildren with
  | step c ih =>
    intro t hready
    have hvisited : c.visited = [c] ++ if c.isOpen then c.namedChildren.flatMap visited else [] :=
      c.visited_eq
    rw [hvisited, List.filterMap_append]
    apply ScopeTree.opensWithin_append.mpr
    use opensWithin_singleton hready
    split
    · apply opensWithin_flatMap
      · intro child hchild
        apply ready_openAll_singleton hready (parent_of_mem_namedChildren hchild)
      · exact ih
    · trivial

/-- Visiting from a place on makes forests of forests. -/
theorem growsForests_visited (c : Cursor) :
  GrowsForests source typeContexts [c] c.visited
  := by
  intro t hforest hready
  constructor
  · apply (opensWithin_visited c (hready c (List.mem_singleton_self c))).forest hforest
  · apply ScopeTree.keys_subset_foldl_insert

end Cursor

/-- The scopes that are opened in the course of a traversal are those of the visited places. -/
theorem ScopeTree.ofVisits_traverse (source : Bytes) (tree : Tree) (typeContexts : List NodeType) :
  ofVisits source (tree.traverse typeContexts)
    = Cursor.openAll source typeContexts {} (Cursor.root tree).visited
  := by
  rw [Tree.traverse_eq, ofVisits, Cursor.openAll, List.filterMap_map]
  rfl

/-- The scopes of a tree form a forest. -/
theorem ScopeTree.forest_ofVisits (source : Bytes) (tree : Tree) (typeContexts : List NodeType) :
  (ofVisits source (tree.traverse typeContexts)).Forest
  := by
  rw [ofVisits_traverse]
  apply (Cursor.growsForests_visited (.root tree) {} forest_nil _).1
  simp [Cursor.Ready, Surroundings.around, Cursor.root, Cursor.parent]

/-! ### Chains of places -/

namespace Cursor

/-- Whether a place opens a scope. -/
def opensScope (c : Cursor) : Bool := c.scopeKind.isSome

/-- The keys of the places that open a scope. -/
def scopeKeys (places : List Cursor) : List ScopeKey :=
  (places.filter opensScope).map .ofNode

theorem scopeKeys_append (places more : List Cursor) :
  scopeKeys (places ++ more) = scopeKeys places ++ scopeKeys more
  := by
  simp [scopeKeys]

/-- Whether the key of a place is that of one visited place that opens a scope, and not of
more. -/
def OpensAlone (tree : Tree) (c : Cursor) : Prop :=
  (scopeKeys (root tree).visited).count (.ofNode c) = 1

instance (tree : Tree) (c : Cursor) : Decidable (c.OpensAlone tree) :=
  inferInstanceAs (Decidable (_ = _))

theorem exists_scope?_of_opensScope {c : Cursor} (h : c.opensScope) (source : Bytes)
    (typeContexts : List NodeType) :
  ∃ scope, c.scope? source typeContexts = some scope
  := by
  apply Option.ne_none_iff_exists'.mp
  rw [Ne, scope?_eq_none_iff]
  exact Option.isSome_iff_ne_none.mp h

theorem opensScope_of_scope?_eq_some {source : Bytes} {typeContexts : List NodeType} {c : Cursor}
    {scope : Scope} (h : c.scope? source typeContexts = some scope) :
  c.opensScope
  := by
  rw [opensScope, Option.isSome_iff_ne_none]
  intro hnone
  simp [scope?_eq_none_iff.mpr hnone] at h

/-- Where a place opens a scope alone, no other visited place opens one with its key. -/
theorem OpensAlone.eq {tree : Tree} {c other : Cursor} (h : c.OpensAlone tree)
    (hc : c ∈ (root tree).visited) (hopens : c.opensScope) (hother : other ∈ (root tree).visited)
    (hopens' : other.opensScope) (hkey : ScopeKey.ofNode other = .ofNode c) :
  other = c
  := by
  rw [OpensAlone, scopeKeys, List.count, List.countP_map, List.countP_eq_length_filter] at h
  obtain ⟨only, honly⟩ := List.length_eq_one_iff.mp h
  have hmem : ∀ place ∈ (root tree).visited, place.opensScope →
      ScopeKey.ofNode place = .ofNode c → place = only := by
    intro place hplace hopens hkey
    apply List.mem_singleton.mp
    rw [← honly]
    simp [hplace, hopens, hkey]
  rw [hmem c hc hopens rfl, hmem other hother hopens' hkey]

end Cursor

namespace ScopeTree

variable {source : Bytes} {tree : Tree} {typeContexts : List NodeType}

/-- What is there after opening some scopes was there before or is one of them; and each of their
keys is there. -/
theorem mem_foldl_insert (scopes : List Scope) (t : ScopeTree) :
  (∀ scope ∈ (scopes.foldl insert t).scopes, scope ∈ t.scopes ∨ scope ∈ scopes)
    ∧ ∀ key, key ∈ t.keys ∨ key ∈ scopes.map (·.key) → key ∈ (scopes.foldl insert t).keys
  := by
  induction scopes generalizing t with
  | nil => simp
  | cons head rest ih =>
    rw [List.foldl_cons]
    obtain ⟨hscopes, hkeys⟩ := ih (t.insert head)
    constructor
    · intro scope hscope
      rcases hscopes scope hscope with hold | hrest
      · rw [scopes_insert] at hold
        split at hold
        · exact .inl hold
        · rcases List.mem_append.mp hold with hold | hnew
          · exact .inl hold
          · exact .inr (List.mem_cons.mpr (.inl (List.mem_singleton.mp hnew)))
      · exact .inr (List.mem_cons_of_mem _ hrest)
    · rintro key (hold | hnew)
      · exact hkeys key (.inl (mem_keys_insert hold))
      · rcases List.mem_cons.mp hnew with rfl | hrest
        · exact hkeys head.key (.inl (t.key_mem_keys_insert head))
        · exact hkeys key (.inr hrest)

/-- What a place opens alone is the scope with its key. -/
theorem get?_ofNode {c : Cursor} (hc : c ∈ (Cursor.root tree).visited) (hopens : c.opensScope)
    (halone : c.OpensAlone tree) :
  (ofVisits source (tree.traverse typeContexts)).get? (.ofNode c) = c.scope? source typeContexts
  := by
  rw [ofVisits_traverse, Cursor.openAll]
  obtain ⟨hscopes, hkeys⟩ := mem_foldl_insert
    ((Cursor.root tree).visited.filterMap (Cursor.scope? source typeContexts)) {}
  have hcontains : ScopeKey.ofNode c ∈ ((Cursor.root tree).visited.filterMap
      (Cursor.scope? source typeContexts)).map (·.key) := by
    obtain ⟨scope, hscope⟩ := Cursor.exists_scope?_of_opensScope hopens source typeContexts
    rw [← (Cursor.key_of_scope?_eq_some hscope).1]
    exact List.mem_map_of_mem (List.mem_filterMap.mpr ⟨c, hc, hscope⟩)
  obtain ⟨found, hfound⟩ := Option.isSome_iff_exists.mp
    (contains_iff.mpr (hkeys _ (.inr hcontains)))
  have hmem := hscopes found (List.mem_of_find?_eq_some hfound)
  obtain ⟨other, hother, hscope⟩ := List.mem_filterMap.mp (hmem.resolve_left (by simp))
  obtain ⟨hkey, -⟩ := Cursor.key_of_scope?_eq_some hscope
  have hfoundKey : found.key = .ofNode c := by simpa using List.find?_some hfound
  obtain rfl := halone.eq hc hopens hother (Cursor.opensScope_of_scope?_eq_some hscope)
    (hkey.symm.trans hfoundKey)
  rw [hfound, hscope]

/-- The scope that a place opens alone lies in the scope around the place. -/
theorem parent_ofNode {c : Cursor} (hc : c ∈ (Cursor.root tree).visited) (hopens : c.opensScope)
    (halone : c.OpensAlone tree) :
  (ofVisits source (tree.traverse typeContexts)).parent (.ofNode c)
    = (Surroundings.around typeContexts c).scope
  := by
  obtain ⟨scope, hscope⟩ := Cursor.exists_scope?_of_opensScope hopens source typeContexts
  rw [parent, get?_ofNode hc hopens halone, hscope, ← (Cursor.key_of_scope?_eq_some hscope).2.1]
  rfl

/-- The chain inside a place is the one around it, after the key of the place if it opens a
scope. -/
theorem chain_inside_eq {c : Cursor} (hc : c ∈ (Cursor.root tree).visited)
    (halone : c.opensScope → c.OpensAlone tree) :
  (ofVisits source (tree.traverse typeContexts)).chain (Surroundings.inside typeContexts c).scope
    = Cursor.scopeKeys [c] ++ (ofVisits source (tree.traverse typeContexts)).chain
        (Surroundings.around typeContexts c).scope
  := by
  have hforest := forest_ofVisits source tree typeContexts
  by_cases hopens : c.opensScope
  · have hscope : (Surroundings.inside typeContexts c).scope = some (.ofNode c) := by
      rw [Surroundings.inside_eq, Surroundings.enter]
      exact if_pos hopens
    rw [hscope, hforest.chain_some, parent_ofNode hc hopens (halone hopens)]
    simp [Cursor.scopeKeys, hopens]
  · rw [Cursor.scope_inside_of_none (by simpa [Cursor.opensScope] using hopens)]
    simp [Cursor.scopeKeys, hopens]

/-- The chain inside a place below a child of `up` begins with keys of places at or below that
child and goes on with the chain inside `up`. -/
theorem chain_inside_append {c child up : Cursor} (hc : c ∈ (Cursor.root tree).visited)
    (hchild : child ∈ c.ancestors) (hparent : child.parent = some up)
    (halone : ∀ place ∈ c.ancestors, child ∈ place.ancestors → place.opensScope →
      place.OpensAlone tree) :
  ∃ inner, inner ⊆ c.ancestors ∧ (∀ place ∈ inner, child ∈ place.ancestors)
    ∧ (ofVisits source (tree.traverse typeContexts)).chain
        (Surroundings.inside typeContexts c).scope
      = Cursor.scopeKeys inner ++ (ofVisits source (tree.traverse typeContexts)).chain
        (Surroundings.inside typeContexts up).scope
  := by
  induction c using Cursor.induction_on_parent with
  | top c htop =>
    rw [Cursor.ancestors_of_parent_eq_none htop, List.mem_singleton] at hchild
    rw [hchild, htop] at hparent
    cases hparent
  | below c above habove ih =>
    have hancestors := Cursor.ancestors_of_parent habove
    rw [chain_inside_eq hc (halone c c.self_mem_ancestors hchild),
      Surroundings.around_of_parent habove]
    rw [hancestors] at hchild
    rcases List.mem_cons.mp hchild with rfl | habove'
    · obtain rfl := Option.some.inj (habove.symm.trans hparent)
      use [child]
      simp [Cursor.self_mem_ancestors]
    · have hvisited : above ∈ (Cursor.root tree).visited := by
        rcases Cursor.parent_mem_visited hc habove with rfl | hvisited
        · simp [Cursor.root, Cursor.parent] at habove
        · exact hvisited
      obtain ⟨inner, hsubset, hbelow, hchain⟩ := ih hvisited habove' fun place hplace =>
        halone place (hancestors ▸ List.mem_cons_of_mem _ hplace)
      use c :: inner
      refine ⟨?_, ?_, ?_⟩
      · rw [hancestors]
        exact List.cons_subset_cons _ hsubset
      · simpa [hancestors, habove'] using hbelow
      · rw [hchain, ← List.append_assoc, ← Cursor.scopeKeys_append]
        rfl

end ScopeTree

end SingleUse
