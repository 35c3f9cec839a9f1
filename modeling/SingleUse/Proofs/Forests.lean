import SingleUse.Proofs.Firsts
import SingleUse.Proofs.Visiting

/-!
# Forests of scopes

Scopes are opened one after the other.  If each of them stands alone or *within* one that is open
already, as in the course of a traversal, going outward from an open scope comes to an end: the
scope around a scope was opened before it.  So lying around is a partial order of the open scopes,
hoisting always finds its scope, and opening a scope again changes nothing.
-/

namespace SingleUse

namespace ScopeTree

variable {t t' : ScopeTree}

/-! ### Scopes that are open already -/

/-- The scopes that are opened in the course of some visits stay the first ones. -/
theorem scopes_ofVisits_isPrefix (source : Bytes) (visits more : List Visit) :
  (ofVisits source visits).scopes <+: (ofVisits source (visits ++ more)).scopes
  := by
  rw [ofVisits, ofVisits, List.filterMap_append, List.foldl_append]
  apply scopes_isPrefix_foldl_insert

/-- The first scopes of a forest are a forest. -/
theorem Forest.of_isPrefix (h : t'.Forest) (hfirst : t.scopes <+: t'.scopes) :
  t.Forest
  := by
  obtain ⟨more, hscopes⟩ := hfirst
  constructor
  · have hnodup := h.nodup
    rw [keys, ← hscopes, List.map_append] at hnodup
    exact (List.nodup_append.mp hnodup).1
  · intro before scope after hsplit key hkey
    apply h.parents before scope (after ++ more) _ key hkey
    rw [← hscopes, hsplit, List.append_assoc, List.cons_append]

/-- What is said of an open key is not changed by scopes that are opened later. -/
theorem get?_of_isPrefix (hfirst : t.scopes <+: t'.scopes) {key : ScopeKey} (hkey : key ∈ t.keys) :
  t'.get? key = t.get? key
  := by
  obtain ⟨scope, hscope⟩ := Option.isSome_iff_exists.mp (contains_iff.mpr hkey)
  rw [hscope]
  apply hfirst.find?_eq_some hscope

/-- The scope around an open one is open. -/
theorem Forest.mem_keys_of_parent (h : t.Forest) {key up : ScopeKey}
    (hparent : t.parent key = some up) :
  up ∈ t.keys
  := by
  obtain ⟨hlt, hsize⟩ := h.rank_lt_of_parent hparent
  apply List.idxOf_lt_length_iff.mp
  rw [keys, List.length_map]
  apply hlt.trans hsize

/-- The chain of an open key is open throughout, and is not changed by scopes that are opened
later. -/
theorem Forest.chain_of_isPrefix (h : t'.Forest) (hfirst : t.scopes <+: t'.scopes)
    {key : Option ScopeKey} (hopen : ∀ k, key = some k → k ∈ t.keys) :
  t'.chain key = t.chain key ∧ t.chain key ⊆ t.keys
  := by
  have hforest := h.of_isPrefix hfirst
  induction key using hforest.induction_on_parent with
  | outside => simp
  | within key ih =>
    have hkey := hopen key rfl
    have hparent : t'.parent key = t.parent key := by
      rw [parent, parent, get?_of_isPrefix hfirst hkey]
    obtain ⟨hchain, hkeys⟩ := ih fun up hup => hforest.mem_keys_of_parent hup
    rw [h.chain_some, hforest.chain_some, hparent, hchain]
    exact ⟨rfl, List.cons_subset.mpr ⟨hkey, hkeys⟩⟩

/-- The chain of an open key is open throughout. -/
theorem Forest.chain_subset_keys (h : t.Forest) {key : ScopeKey} (hkey : key ∈ t.keys) :
  t.chain (some key) ⊆ t.keys
  := by
  apply (h.chain_of_isPrefix List.prefix_rfl _).2
  rintro _ ⟨⟩
  exact hkey

/-- Along open keys the search for a function always has an answer, which is not changed by scopes
that are opened later. -/
theorem hoistingKey?_of_isPrefix (hfirst : t.scopes <+: t'.scopes) {chain : List ScopeKey}
    (hopen : chain ⊆ t.keys) :
  ∃ found, t.hoistingKey? chain = some found ∧ t'.hoistingKey? chain = some found
  := by
  induction chain with
  | nil => exact ⟨none, rfl, rfl⟩
  | cons key rest ih =>
    obtain ⟨hkey, hrest⟩ := List.cons_subset.mp hopen
    obtain ⟨scope, hscope⟩ := Option.isSome_iff_exists.mp (contains_iff.mpr hkey)
    rw [hoistingKey?, hoistingKey?, get?_of_isPrefix hfirst hkey, hscope]
    simp only
    split
    · exact ⟨some key, rfl, rfl⟩
    · apply ih hrest

/-- Hoisting from an open key finds a scope, the same as after all scopes are open. -/
theorem Forest.functionScope?_of_isPrefix (h : t'.Forest) (hfirst : t.scopes <+: t'.scopes)
    {key : Option ScopeKey} (hopen : ∀ k, key = some k → k ∈ t.keys) :
  t.functionScope? key = some (t'.functionScope key)
  := by
  obtain ⟨hchain, hkeys⟩ := h.chain_of_isPrefix hfirst hopen
  obtain ⟨found, hfound, hfound'⟩ := hoistingKey?_of_isPrefix hfirst hkeys
  rw [functionScope, functionScope?, functionScope?, hchain, hfound, hfound']
  rfl

/-! ### Opening scopes one after the other -/

/-- The scopes of a tree are those that were the first to be opened with their key. -/
theorem scopes_foldl_insert (opened : List Scope) :
  (opened.foldl insert {}).scopes = firsts (·.key) opened
  := by
  induction opened using List.reverseRecOn with
  | nil => rfl
  | append_singleton opened scope ih =>
    rw [List.foldl_append, List.foldl_cons, List.foldl_nil, scopes_insert, keys, ih, firsts_concat]
    simp only [mem_map_firsts]

/-! ### Going outward -/

/-- Going from a scope to the scope around it for as long as there is one passes some keys and comes
to an end. -/
inductive Climbs (t : ScopeTree) : Option ScopeKey → List ScopeKey → Prop
  | outside : Climbs t none []
  | within (key : ScopeKey) {rest : List ScopeKey} (h : Climbs t (t.parent key) rest) :
    Climbs t (some key) (key :: rest)

/-- In a forest going outward from a key comes to an end and passes its chain. -/
theorem Forest.climbs (h : t.Forest) (key : Option ScopeKey) :
  t.Climbs key (t.chain key)
  := by
  induction key using h.induction_on_parent with
  | outside =>
    rw [chain_none]
    exact .outside
  | within key ih =>
    rw [h.chain_some]
    exact .within key ih

/-- The last key that is passed has no scope around it. -/
theorem Climbs.exists_last {key : ScopeKey} {passed : List ScopeKey}
    (h : t.Climbs (some key) passed) :
  ∃ top, passed.getLast? = some top ∧ t.parent top = none
  := by
  generalize hstart : some key = start at h
  induction h generalizing key with
  | outside => simp at hstart
  | within inner h ih =>
    cases hparent : t.parent inner with
    | none =>
      rw [hparent] at h
      cases h
      use inner
      simp [hparent]
    | some up =>
      obtain ⟨top, hlast, htop⟩ := ih hparent.symm
      use top
      simp [List.getLast?_cons, hlast, htop]

theorem isAncestor_iff {outer : ScopeKey} {inner : Option ScopeKey} :
  t.isAncestor (some outer) inner ↔ outer ∈ t.chain inner
  := by
  simp [isAncestor]

/-- Two scopes of a forest that lie around each other are the same. -/
theorem Forest.eq_of_mem_chain (h : t.Forest) {a b : ScopeKey} (hab : a ∈ t.chain (some b))
    (hba : b ∈ t.chain (some a)) :
  a = b
  := by
  have hsuffix := h.chain_suffix hab
  have hchains := hsuffix.eq_of_length_le (h.chain_suffix hba).length_le
  rw [h.chain_some, h.chain_some] at hchains
  exact (List.cons.inj hchains).1

/-- Whether an open key is that of a function or the program. -/
def hoistsAt (t : ScopeTree) (key : ScopeKey) : Bool := (t.get? key).any (·.kind.hoists)

/-- Along open keys the search for a function finds the first one. -/
theorem hoistingKey?_eq {chain : List ScopeKey} (hopen : chain ⊆ t.keys) :
  t.hoistingKey? chain = some (chain.find? t.hoistsAt)
  := by
  induction chain with
  | nil => rfl
  | cons key rest ih =>
    obtain ⟨hkey, hrest⟩ := List.cons_subset.mp hopen
    obtain ⟨scope, hscope⟩ := Option.isSome_iff_exists.mp (contains_iff.mpr hkey)
    have hhoists : t.hoistsAt key = scope.kind.hoists := by rw [hoistsAt, hscope, Option.any_some]
    rw [hoistingKey?, hscope, List.find?_cons, hhoists]
    cases hkind : scope.kind.hoists with
    | true => simp [hkind]
    | false => simpa [hkind] using ih hrest

/-! ### The scopes of a tree -/

variable {source : Bytes} {tree : Tree} {typeContexts : List NodeType}

/-- When a place is visited, the places above it have been visited. -/
theorem mem_of_mem_ancestors {before after : List Cursor} {c up : Cursor}
    (hvisited : (Cursor.root tree).visited = before ++ c :: after) (hup : up ∈ c.ancestors) :
  up ∈ before ++ [c]
  := by
  by_cases hsame : c = up
  · simp [hsame]
  · have hc : c ∈ (Cursor.root tree).visited := by simp [hvisited]
    obtain ⟨before', after', hsplit, hmem⟩ := Cursor.visited_eq_append
      (Cursor.mem_visited_of_mem_ancestors hc hup) hc hup hsame
    have hnodup := Cursor.nodup_visited_root tree
    rw [hsplit] at hnodup hvisited
    obtain ⟨-, hright, hapart⟩ := List.nodup_append.mp hnodup
    have hbefore : c ∉ before' := fun hin => hapart c hin c List.mem_cons_self rfl
    have hafter : c ∉ after' := (List.nodup_cons.mp hright).1
    obtain ⟨rfl, -, -⟩ := (List.append_cons_inj_of_notMem hbefore hafter).mp hvisited
    apply List.mem_append_left _ hmem

/-- When a node is visited, the scope inside it is open. -/
theorem mem_keys_ofVisits {before after : List Visit} {visit : Visit}
    (hvisits : tree.traverse typeContexts = before ++ visit :: after) {key : ScopeKey}
    (hkey : visit.here.scope = some key) :
  key ∈ (ofVisits source (before ++ [visit])).keys
  := by
  rw [Tree.traverse_eq] at hvisits
  obtain ⟨left, right, hvisited, rfl, hright⟩ := List.map_eq_append_iff.mp hvisits
  obtain ⟨c, rest, rfl, rfl, -⟩ := List.map_eq_cons_iff.mp hright
  rw [Visit.here_at, Surroundings.scope_inside] at hkey
  obtain ⟨up, hfind, rfl⟩ := Option.map_eq_some_iff.mp hkey
  have hopens : up.opensScope := List.find?_some hfind
  have hup := mem_of_mem_ancestors hvisited (List.mem_of_find?_eq_some hfind)
  obtain ⟨scope, hscope⟩ := Cursor.exists_scope?_of_opensScope hopens source typeContexts
  apply (mem_foldl_insert _ _).2 _ (.inr _)
  rw [← (Cursor.key_of_scope?_eq_some hscope).1]
  apply List.mem_map_of_mem
  apply List.mem_filterMap.mpr
  use Visit.at typeContexts up
  constructor
  · have hmem := List.mem_map_of_mem (f := Visit.at typeContexts) hup
    rwa [List.map_append] at hmem
  · exact hscope

/-- A traversal opens scopes within open ones. -/
theorem opensWithin_traverse (source : Bytes) (tree : Tree) (typeContexts : List NodeType) :
  ({} : ScopeTree).OpensWithin ((tree.traverse typeContexts).filterMap (·.scope? source))
  := by
  have hready : Cursor.Ready typeContexts {} (.root tree) := by
    simp [Cursor.Ready, Surroundings.around, Cursor.root, Cursor.parent]
  rw [Tree.traverse_eq, List.filterMap_map]
  apply Cursor.opensWithin_visited (.root tree) hready

/-! ### What the order of opening grants -/

/-- What can be relied on in a tree after some scopes were opened. -/
structure Nests (t : ScopeTree) (opened : List Scope) : Prop where
  /-- Going outward from an open key comes to an end and passes the keys of its chain. -/
  climbs : ∀ key ∈ t.keys, t.Climbs (some key) (t.chain (some key))
  /-- A chain lists no key twice. -/
  nodup : ∀ key ∈ t.keys, (t.chain (some key)).Nodup
  /-- A chain lists open keys. -/
  subset : ∀ key ∈ t.keys, t.chain (some key) ⊆ t.keys
  /-- A chain ends in a scope that stands alone. -/
  ends : ∀ key ∈ t.keys, ∃ top, (t.chain (some key)).getLast? = some top ∧ t.parent top = none
  /-- The scope around a scope was opened before it. -/
  earlier : ∀ key up, t.parent key = some up → t.rank up < t.rank key
  refl : ∀ a ∈ t.keys, t.isAncestor (some a) (some a)
  antisymm : ∀ a ∈ t.keys, ∀ b ∈ t.keys, t.isAncestor (some a) (some b) →
    t.isAncestor (some b) (some a) → a = b
  trans : ∀ a ∈ t.keys, ∀ b ∈ t.keys, ∀ c ∈ t.keys, t.isAncestor (some a) (some b) →
    t.isAncestor (some b) (some c) → t.isAncestor (some a) (some c)
  /-- Hoisting from an open key finds the first function or program of its chain, or else stays with
  the key. -/
  hoists : ∀ key ∈ t.keys,
    t.functionScope? (some key) = some (some (((t.chain (some key)).find? t.hoistsAt).getD key))
  /-- The scopes are those that were first opened with their key, in the order of opening. -/
  scopes : t.scopes = firsts (·.key) opened
  /-- Opening an open key again leaves all scopes as they are. -/
  reopened : ∀ again : Scope, again.key ∈ t.keys → (t.insert again).scopes = t.scopes

/-- In a forest of the first scopes with their keys all of that can be relied on. -/
theorem Forest.nests (h : t.Forest) {opened : List Scope}
    (hscopes : t.scopes = firsts (·.key) opened) :
  t.Nests opened
  where
  climbs key _ := h.climbs (some key)
  nodup key _ := h.nodup_chain (some key)
  subset key hkey := h.chain_subset_keys hkey
  ends key _ := (h.climbs (some key)).exists_last
  earlier key up hparent := (h.rank_lt_of_parent hparent).1
  refl a _ := by
    rw [isAncestor_iff, h.chain_some]
    apply List.mem_cons_self
  antisymm a _ b _ hab hba := by
    rw [isAncestor_iff] at hab hba
    apply h.eq_of_mem_chain hab hba
  trans a _ b _ c _ hab hbc := by
    rw [isAncestor_iff] at hab hbc ⊢
    apply (h.chain_suffix hbc).mem hab
  hoists key hkey := by
    rw [functionScope?, hoistingKey?_eq (h.chain_subset_keys hkey)]
    cases (t.chain (some key)).find? t.hoistsAt <;> rfl
  scopes := hscopes
  reopened again hagain := by
    rw [scopes_insert, if_pos hagain]

/-- Opening scopes one after the other, each alone or within one that is open by then, makes a tree
in which going outward comes to an end, scopes are partly ordered by lying around each other,
hoisting finds its scope and a scope stays as it was first opened.  Every traversal opens scopes
that way. -/
theorem nests_foldl_insert :
  (∀ opened : List Scope, ({} : ScopeTree).OpensWithin opened →
      (opened.foldl insert {}).Nests opened)
    ∧ ∀ (source : Bytes) (tree : Tree) (typeContexts : List NodeType),
      ({} : ScopeTree).OpensWithin ((tree.traverse typeContexts).filterMap (·.scope? source))
  := by
  constructor
  · intro opened h
    apply Forest.nests (h.forest forest_nil)
    apply scopes_foldl_insert
  · exact opensWithin_traverse

/-- A program, a function, and a block with the bytes and the type of a block around it; at last the
key of the program comes up again inside. -/
def repeatedKeys : List Scope := [
  ⟨⟨0, 40, .program⟩, .program, none, 0⟩,
  ⟨⟨4, 38, .functionDeclaration⟩, .function, some ⟨0, 40, .program⟩, 0⟩,
  ⟨⟨20, 38, .statementBlock⟩, .block, some ⟨4, 38, .functionDeclaration⟩, 1⟩,
  ⟨⟨20, 38, .statementBlock⟩, .branch, some ⟨20, 38, .statementBlock⟩, 1⟩,
  ⟨⟨0, 40, .program⟩, .loop, some ⟨20, 38, .statementBlock⟩, 0⟩]

/-- Neither the block nor the program comes to lie around itself, and hoisting from the block finds
the function. -/
theorem nests_foldl_insert_repeatedKeys :
  ({} : ScopeTree).OpensWithin repeatedKeys
    ∧ (repeatedKeys.foldl insert {}).Nests repeatedKeys
    ∧ (repeatedKeys.foldl insert {}).chain (some ⟨20, 38, .statementBlock⟩)
      = [⟨20, 38, .statementBlock⟩, ⟨4, 38, .functionDeclaration⟩, ⟨0, 40, .program⟩]
    ∧ (repeatedKeys.foldl insert {}).functionScope? (some ⟨20, 38, .statementBlock⟩)
      = some (some ⟨4, 38, .functionDeclaration⟩)
  := by
  have hopens : ({} : ScopeTree).OpensWithin repeatedKeys := by decide
  use hopens, nests_foldl_insert.1 repeatedKeys hopens
  decide

end ScopeTree

end SingleUse
