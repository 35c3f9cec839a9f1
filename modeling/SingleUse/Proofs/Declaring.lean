import SingleUse.Proofs.Introducing

/-!
# Declaring names

A declaration is no use of its own name.  A node that introduces names is visited before them, so
that their bytes are marked by the time they are reached, and in a laminar tree no other identifier
stands on these bytes.  Between such a node and a name of it there are only patterns, which
introduce no names themselves.  So the last mark on the bytes of a name is that of its own
declaration, and its reference refers to the binding that was registered for it.
-/

namespace SingleUse

namespace Cursor

/-! ### Places between two others -/

variable {c child up t : Cursor}

theorem eq_of_mem_ancestors_of_mem_ancestors (hup : up ∈ c.ancestors) (hc : c ∈ up.ancestors) :
  up = c
  := by
  apply eq_of_mem_ancestors hup c.self_mem_ancestors
  have hle := length_path_le_of_mem_ancestors hup
  have hge := length_path_le_of_mem_ancestors hc
  omega

/-- Of two ancestors of a place one is an ancestor of the other. -/
theorem mem_ancestors_total {a b : Cursor} (ha : a ∈ t.ancestors) (hb : b ∈ t.ancestors) :
  a ∈ b.ancestors ∨ b ∈ a.ancestors
  := by
  rcases List.suffix_or_suffix_of_suffix (ancestors_suffix ha) (ancestors_suffix hb) with h | h
  · exact .inl (h.mem a.self_mem_ancestors)
  · exact .inr (h.mem b.self_mem_ancestors)

/-- What stands between a place and one below a child is the place itself, or stands at or below the
child. -/
theorem mem_ancestors_of_between (hparent : child.parent = some c) (hchild : child ∈ t.ancestors)
    (hup : up ∈ t.ancestors) (hc : c ∈ up.ancestors) :
  up = c ∨ child ∈ up.ancestors
  := by
  rcases mem_ancestors_total hchild hup with hbelow | habove
  · exact .inr hbelow
  · rw [ancestors_of_parent hparent] at habove
    rcases List.mem_cons.mp habove with rfl | habove
    · exact .inr up.self_mem_ancestors
    · exact .inl (eq_of_mem_ancestors_of_mem_ancestors habove hc)

/-- Nothing above a reached place shuts it out. -/
theorem Reached.not_shuts (h : t.Reached) (hc : c ∈ t.ancestors) (hne : t ≠ c) :
  ¬ c.Shuts
  := (h.2 c ((List.mem_cons.mp hc).resolve_left (Ne.symm hne))).2

/-! ### From a pattern to its names -/

theorem HasPart.parent {part : Cursor} (h : c.HasPart part) :
  part.parent = some c
  := parent_of_mem_children (mem_children_of_mem_patternParts (mem_patternParts_iff.mpr h))

theorem Names.mem_ancestors (h : c.Names t) :
  c ∈ t.ancestors
  := (of_mem_targets (mem_targets_iff.mpr h)).1

theorem Names.isTarget (h : c.Names t) :
  isTarget t.type
  := (of_mem_targets (mem_targets_iff.mpr h)).2

/-- From a pattern down to a name of it there are only patterns with parts. -/
theorem Names.exists_hasPart (h : c.Names t) (hup : up ∈ t.ancestors) (hc : c ∈ up.ancestors) :
  up = t ∨ ∃ part, up.HasPart part
  := by
  induction h with
  | self => exact .inl (eq_of_mem_ancestors_of_mem_ancestors hup hc)
  | part hpart h ih =>
    rcases mem_ancestors_of_between hpart.parent h.mem_ancestors hup hc with rfl | hbelow
    · exact .inr ⟨_, hpart⟩
    · exact ih hup hbelow

/-! ### From a node to the names that it introduces -/

theorem Brings.mem_ancestors (h : c.Brings t) :
  c ∈ t.ancestors
  := by
  induction h with
  | specifier _ hname _ =>
    rcases Option.or_eq_some_iff.mp hname with hname | ⟨-, hname⟩
    all_goals exact mem_ancestors_of_parent (parent_of_childByField hname).1
  | identifier _ hchild _ => exact mem_ancestors_of_parent (parent_of_mem_namedChildren hchild)
  | inside _ hchild _ _ ih => exact mem_ancestors_of_mem_children (List.mem_filter.mp hchild).1 ih

theorem Brings.isTarget (h : c.Brings t) :
  isTarget t.type
  := by
  rw [isTarget_iff]
  induction h with
  | specifier _ _ hidentifier => simp [hidentifier]
  | identifier _ _ hidentifier => simp [hidentifier]
  | inside _ _ _ _ ih => exact ih

variable {home home' : Home}

/-- A name that a node introduces is a child of the node, a name of a pattern that is a child, or
brought by a part of an import. -/
theorem Introduces.exists_child (h : c.Introduces home t) :
  ∃ child, child.parent = some c
    ∧ (child = t ∨ child.Names t ∨ c.category = .importStatement ∧ child.Brings t)
  := by
  cases h with
  | declarator _ hname _ h => exact ⟨_, (parent_of_childByField hname).1, .inr (.inl h)⟩
  | functionName _ hname _ => exact ⟨t, (parent_of_childByField hname).1, .inl rfl⟩
  | parameter _ hlist h =>
    rcases Option.or_eq_some_iff.mp hlist with hlist | ⟨-, hlist⟩
    all_goals exact ⟨_, (parent_of_childByField hlist).1, .inr (.inl h)⟩
  | className _ hname => exact ⟨t, (parent_of_childByField hname).1, .inl rfl⟩
  | named _ _ hname _ => exact ⟨t, (parent_of_childByField hname).1, .inl rfl⟩
  | caught _ hpattern h => exact ⟨_, (parent_of_childByField hpattern).1, .inr (.inl h)⟩
  | element _ _ hleft _ h => exact ⟨_, (parent_of_childByField hleft).1, .inr (.inl h)⟩
  | imported hcategory hchild h =>
    exact ⟨_, parent_of_mem_namedChildren hchild, .inr (.inr ⟨hcategory, h⟩)⟩

/-- A name stands below the node that introduces it. -/
theorem Introduces.mem_ancestors (h : c.Introduces home t) :
  c ∈ t.ancestors ∧ t ≠ c
  := by
  obtain ⟨child, hparent, hnames⟩ := h.exists_child
  have hchild : child ∈ t.ancestors := by
    rcases hnames with rfl | h | ⟨-, h⟩
    · exact child.self_mem_ancestors
    · exact h.mem_ancestors
    · exact h.mem_ancestors
  use mem_ancestors_trans hchild (mem_ancestors_of_parent hparent)
  rintro rfl
  have hlength := length_path_of_parent hparent
  have hle := length_path_le_of_mem_ancestors hchild
  omega

/-- From a node that is no import down to a name that it introduces there are only patterns with
parts. -/
theorem Introduces.exists_hasPart (h : c.Introduces home t)
    (himport : c.category ≠ .importStatement) (hup : up ∈ t.ancestors) (hc : c ∈ up.ancestors) :
  up = c ∨ up = t ∨ ∃ part, up.HasPart part
  := by
  obtain ⟨child, hparent, hnames⟩ := h.exists_child
  rcases hnames with rfl | hnames | ⟨hcategory, -⟩
  · rw [ancestors_of_parent hparent] at hup
    rcases List.mem_cons.mp hup with rfl | hup
    · exact .inr (.inl rfl)
    · exact .inl (eq_of_mem_ancestors_of_mem_ancestors hup hc)
  · rcases mem_ancestors_of_between hparent hnames.mem_ancestors hup hc with rfl | hchild
    · exact .inl rfl
    · exact .inr (hnames.exists_hasPart hup hchild)
  · exact absurd hcategory himport

/-- The categories of the nodes that introduce names. -/
theorem Introduces.category_mem (h : c.Introduces home t) :
  c.category ∈ [.declarator, .function, .classLike, .namedDeclaration, .catchClause, .loop,
    .importStatement]
  := by
  cases h <;> simp_all

/-- A name that is introduced and not overlooked is an identifier or the shorthand for a
property. -/
theorem Introduces.isTarget (h : c.Introduces home t) (hplain : ¬ c.Overlooks t) :
  isTarget t.type
  := by
  cases h with
  | declarator _ _ _ h => exact h.isTarget
  | functionName _ _ hidentifier => simp [isTarget_iff, hidentifier]
  | parameter _ _ h => exact h.isTarget
  | className hcategory _ =>
    have hidentifier : t.type = .identifier := by
      by_contra hother
      exact hplain ⟨hcategory, hother⟩
    simp [isTarget_iff, hidentifier]
  | named _ _ _ hidentifier => simp [isTarget_iff, hidentifier]
  | caught _ _ h => exact h.isTarget
  | element _ _ _ _ h => exact h.isTarget
  | imported _ _ h => exact h.isTarget

/-- A pattern with parts introduces no names. -/
theorem HasPart.not_introduces {part : Cursor} (hpart : c.HasPart part) :
  ¬ c.Introduces home t
  := by
  have hpattern : Category.ofType c.type ∈ [.patternElement, .patternProperty, .other] := by
    cases hpart with
    | value htype _ =>
      rw [htype]
      decide
    | member htype _ =>
      simp only [List.mem_cons, List.not_mem_nil, or_false] at htype
      rcases htype with htype | htype | htype | htype <;> rw [htype] <;> decide
    | left htype _ =>
      simp only [List.mem_cons, List.not_mem_nil, or_false] at htype
      rcases htype with htype | htype <;> rw [htype] <;> decide
    | pattern htype _ =>
      simp only [List.mem_cons, List.not_mem_nil, or_false] at htype
      rcases htype with htype | htype <;> rw [htype] <;> decide
  intro h
  have hcategory := h.category_mem
  rw [category, Category.ofLabel] at hcategory
  split at hcategory
  · simp at hcategory
  · split at hcategory
    · change Category.ofType c.type ∈ _ at hcategory
      simp only [List.mem_cons, List.not_mem_nil, or_false] at hpattern
      rcases hpattern with hpattern | hpattern | hpattern <;> simp [hpattern] at hcategory
    · simp at hcategory

/-- What introduces a name that is reached is no import. -/
theorem Introduces.not_import (h : c.Introduces home t) (ht : t.Reached) :
  c.category ≠ .importStatement
  := by
  intro hcategory
  obtain ⟨habove, hne⟩ := h.mem_ancestors
  exact ht.not_shuts habove hne (.inl hcategory)

/-- What introduces a name and stands above a reached name stands at or above the node that
introduces the latter. -/
theorem Introduces.mem_ancestors_of_introduces (h : c.Introduces home t) (ht : t.Reached)
    {other u : Cursor} (hother : other.Introduces home' u) (habove : other ∈ t.ancestors)
    (hne : t ≠ other) :
  other ∈ c.ancestors
  := by
  rcases mem_ancestors_total habove h.mem_ancestors.1 with hup | hbelow
  · exact hup
  · rcases h.exists_hasPart (h.not_import ht) habove hbelow with rfl | rfl | ⟨part, hpart⟩
    · exact other.self_mem_ancestors
    · exact absurd rfl hne
    · exact absurd hother hpart.not_introduces

/-- A name that is introduced and reached is an identifier unless it is missing. -/
theorem Introduces.category_of_reached (h : c.Introduces home t) (hplain : ¬ c.Overlooks t)
    (ht : t.Reached) (hmissing : t.missing = false) :
  t.category = .identifier
  := by
  obtain ⟨habove, hne⟩ := h.mem_ancestors
  have hnamed : t.named := by
    rcases ht.1 with hparent | hnamed
    · rw [ancestors_of_parent_eq_none hparent, List.mem_singleton] at habove
      exact absurd habove.symm hne
    · exact hnamed
  have htype : t.label.type ∈ [.identifier, .shorthandPropertyIdentifierPattern] :=
    isTarget_iff.mp (h.isTarget hplain)
  change t.label.missing = false at hmissing
  change t.label.named at hnamed
  rw [category, Category.ofLabel, hmissing, hnamed]
  simp only [List.mem_cons, List.not_mem_nil, or_false] at htype
  rcases htype with htype | htype <;> rw [htype] <;> rfl

/-! ### The home of a name -/

/-- Where a name that a node introduces is at home, told by the node and the name. -/
def homeOf (c t : Cursor) : Home :=
  match c.category with
  | .declarator => .ofVar (c.parent.any fun statement => statement.type = .variableDeclaration)
  | .function =>
    if c.childByField .name = some t
        ∧ c.type ∈ [.functionDeclaration, .generatorFunctionDeclaration] then .enclosing
    else .governing
  | .loop => .ofVar ((c.childByField .kind).any isVar)
  | _ => .governing

/-- A name is at home in one scope only. -/
theorem Introduces.home_eq (h : c.Introduces home t) :
  home = c.homeOf t
  := by
  cases h with
  | declarator hcategory => simp [homeOf, hcategory]
  | functionName hcategory hname _ => simp [homeOf, hcategory, hname]
  | @parameter list _ hcategory hlist h =>
    -- the name of a function is no part of its parameters
    have hname : c.childByField .name ≠ some t := by
      intro hname
      obtain ⟨hparent, hfield⟩ := parent_of_childByField hname
      obtain ⟨field, hne, hlist⟩ : ∃ field, field ≠ Field.name
          ∧ c.childByField field = some list := by
        rcases Option.or_eq_some_iff.mp hlist with hlist | ⟨-, hlist⟩
        · exact ⟨_, by simp, hlist⟩
        · exact ⟨_, by simp, hlist⟩
      obtain ⟨hparent', hfield'⟩ := parent_of_childByField hlist
      obtain rfl : list = t := by
        apply eq_of_mem_ancestors h.mem_ancestors t.self_mem_ancestors
        rw [length_path_of_parent hparent, length_path_of_parent hparent']
      exact hne (Option.some.inj (hfield'.symm.trans hfield))
    simp [homeOf, hcategory, hname]
  | className hcategory => simp [homeOf, hcategory]
  | named hcategory => simp [homeOf, hcategory]
  | caught hcategory => simp [homeOf, hcategory]
  | element hcategory _ _ hkind => simp [homeOf, hcategory, hkind]
  | imported hcategory => simp [homeOf, hcategory]

end Cursor

/-! ### Names on the same bytes -/

namespace Tree.Laminar

open Cursor

variable {tree : Tree} {c t u : Cursor} {home home' : Home}

/-- What has all bytes of an identifier shares a byte with it. -/
theorem not_disjoint (htree : tree.Laminar) (ht : root tree ∈ t.ancestors)
    (hidentifier : t.category = .identifier) (hstart : c.start ≤ t.start)
    (hstop : t.stop ≤ c.stop) :
  ¬ c.Disjoint t
  := by
  have hlt := htree.nonempty t (mem_preorder_iff.mpr ht) hidentifier
  rw [Cursor.Disjoint]
  omega

/-- A node that introduces a name on the bytes of a visited identifier stands above the
identifier. -/
theorem mem_ancestors_of_introduces (htree : tree.Laminar) (hc : c ∈ (root tree).visited)
    (h : c.Introduces home u) (ht : t ∈ (root tree).visited)
    (hidentifier : t.category = .identifier) (hspan : u.span = t.span) :
  c ∈ t.ancestors ∧ t ≠ c
  := by
  have hne : t ≠ c := by
    rintro rfl
    have hcategory := h.category_mem
    simp [hidentifier] at hcategory
  obtain ⟨hroot, hreached⟩ := mem_visited_root_iff.mp hc
  obtain ⟨hroot', -⟩ := mem_visited_root_iff.mp ht
  have hstart : u.start = t.start := congrArg Span.start hspan
  have hstop : u.stop = t.stop := congrArg Span.stop hspan
  have habove := h.mem_ancestors.1
  have hbounds := htree.bounds (mem_ancestors_trans habove hroot) habove
  rw [hstart, hstop] at hbounds
  rcases htree.comparable (self_mem_ancestors _) (mem_preorder_iff.mpr hroot)
      (mem_preorder_iff.mpr hroot') (htree.not_disjoint hroot' hidentifier hbounds.1 hbounds.2)
    with habove | hbelow
  · exact ⟨habove, hne⟩
  · exact absurd (.inr (.inl hidentifier)) (hreached.not_shuts hbelow (Ne.symm hne))

/-- A node introduces no other name on the bytes of a visited one. -/
theorem eq_of_introduces (htree : tree.Laminar) (hc : c ∈ (root tree).visited)
    (h : c.Introduces home t) (hplain : ¬ c.Overlooks t) (h' : c.Introduces home' u)
    (hplain' : ¬ c.Overlooks u) (ht : t ∈ (root tree).visited)
    (hidentifier : t.category = .identifier) (hspan : u.span = t.span) :
  u = t
  := by
  obtain ⟨habove, hne⟩ := h.mem_ancestors
  obtain ⟨habove', hne'⟩ := h'.mem_ancestors
  have himport := h.not_import (mem_visited_root_iff.mp ht).2
  have hroot := (mem_visited_root_iff.mp hc).1
  have hroot' := mem_ancestors_trans habove hroot
  have hstart : u.start = t.start := congrArg Span.start hspan
  have hstop : u.stop = t.stop := congrArg Span.stop hspan
  rcases htree.comparable (self_mem_ancestors _)
      (mem_preorder_iff.mpr (mem_ancestors_trans habove' hroot)) (mem_preorder_iff.mpr hroot')
      (htree.not_disjoint hroot' hidentifier hstart.le hstop.ge) with hup | hup
  · rcases h.exists_hasPart himport hup habove' with heq | heq | ⟨part, hpart⟩
    · exact absurd heq hne'
    · exact heq
    · exact absurd (h'.isTarget hplain') hpart.not_isTarget
  · rcases h'.exists_hasPart himport hup habove with heq | heq | ⟨part, hpart⟩
    · exact absurd heq hne
    · exact heq.symm
    · exact absurd (h.isTarget hplain) hpart.not_isTarget

end Tree.Laminar

/-! ### Marks of declared names -/

/-- Of the events that declare a name on some bytes the last one settles the mark: if all of them
that come with it have one key, that is the key. -/
theorem Marks.declaredAt?_afterAll (marks : Marks) {earlier here later : List Event} {span : Span}
    {key : BindingKey} (hlater : ∀ entry ∈ later.filterMap Event.declared?, entry.1 ≠ span)
    (hhere : ∀ entry ∈ here.filterMap Event.declared?, entry.1 = span → entry.2 = key)
    (hown : (span, key) ∈ here.filterMap Event.declared?) :
  (marks.afterAll (earlier ++ (here ++ later))).declaredAt? span = some key
  := by
  have hnone : (later.filterMap Event.declared?).reverse.find? (fun entry => entry.1 = span)
      = none := by
    apply List.find?_eq_none.mpr
    intro entry hentry
    simpa using hlater entry (List.mem_reverse.mp hentry)
  obtain ⟨entry, hentry⟩ : ∃ entry, (here.filterMap Event.declared?).reverse.find?
      (fun entry => entry.1 = span) = some entry := by
    apply Option.isSome_iff_exists.mp
    apply List.find?_isSome.mpr
    exact ⟨(span, key), List.mem_reverse.mpr hown, by simp⟩
  have hkey : entry.2 = key := by
    apply hhere entry (List.mem_reverse.mp (List.mem_of_find?_eq_some hentry))
    simpa using List.find?_some hentry
  rw [declaredAt?, afterAll_eq]
  simp only [List.filterMap_append, List.reverse_append, List.append_assoc, List.find?_append,
    hnone, hentry, Option.none_or, Option.some_or, Option.map_some, hkey]

namespace Tree

variable {tree : Tree} {source : Bytes} {typeContexts : List NodeType}

/-- What stands above a visited place was visited before it. -/
theorem mem_before_of_mem_ancestors {before after : List Cursor} {c t : Cursor}
    (hvisited : (Cursor.root tree).visited = before ++ t :: after) (habove : c ∈ t.ancestors)
    (hne : t ≠ c) :
  c ∈ before
  := by
  have hmem := ScopeTree.mem_of_mem_ancestors hvisited habove
  simpa [Ne.symm hne] using hmem

/-- The names that are marked as declared at some visited places are those that the places
introduce. -/
theorem mem_declared_eventsAt_iff (source : Bytes) (typeContexts : List NodeType)
    {places : List Cursor} (hplaces : places ⊆ (Cursor.root tree).visited)
    {entry : Span × BindingKey} :
  entry ∈ (tree.eventsAt source typeContexts places).filterMap Event.declared?
    ↔ ∃ c ∈ places, ∃ home t, c.Introduces home t ∧ ¬ c.Overlooks t
      ∧ entry = (t.span,
        ⟨t.text source, home.scope (.ofVisits source (tree.traverse typeContexts)) c⟩)
  := by
  rw [List.mem_filterMap]
  constructor
  · rintro ⟨event, hevent, hentry⟩
    obtain ⟨c, hc, hevent⟩ := List.mem_flatMap.mp hevent
    cases event with
    | declare b =>
      obtain ⟨home, t, h, hplain, htarget, hkey⟩ :=
        Visit.exists_introduces_of_mem_bindings (Visit.declare_mem_events.mp hevent)
      rw [ScopeTree.scopeOf_at (hplaces hc)] at hkey
      refine ⟨c, hc, home, t, h, hplain, ?_⟩
      simpa [Event.declared?, htarget, hkey] using hentry.symm
    | assign span => simp [Event.declared?] at hentry
    | ignore span => simp [Event.declared?] at hentry
    | occur visit => simp [Event.declared?] at hentry
  · rintro ⟨c, hc, home, t, h, hplain, rfl⟩
    obtain ⟨b, hb, htarget, hkey⟩ := Visit.exists_mem_bindings_of_introduces (.at typeContexts c)
      source (.ofVisits source (tree.traverse typeContexts)) h hplain
    rw [ScopeTree.scopeOf_at (hplaces hc)] at hkey
    refine ⟨.declare b, List.mem_flatMap.mpr ⟨c, hc, Visit.declare_mem_events.mpr hb⟩, ?_⟩
    simp [Event.declared?, htarget, hkey]

/-- When a name is visited, the last mark on its bytes is that of its own declaration. -/
theorem declaredAt?_marksAfter (source : Bytes) (typeContexts : List NodeType)
    (htree : tree.Laminar) {c t : Cursor} (hc : c ∈ (Cursor.root tree).visited) {home : Home}
    (h : c.Introduces home t) (hplain : ¬ c.Overlooks t) (hidentifier : t.category = .identifier)
    {before after : List Cursor}
    (hvisited : (Cursor.root tree).visited = before ++ t :: after) {key : BindingKey}
    (hkey : key
      = ⟨t.text source, home.scope (.ofVisits source (tree.traverse typeContexts)) c⟩) :
  (tree.marksAfter source typeContexts before).declaredAt? t.span = some key
  := by
  have ht : t ∈ (Cursor.root tree).visited := by simp [hvisited]
  obtain ⟨left, mid, rfl⟩ := List.append_of_mem
    (mem_before_of_mem_ancestors hvisited h.mem_ancestors.1 h.mem_ancestors.2)
  have hsplit : (Cursor.root tree).visited = left ++ c :: (mid ++ t :: after) := by
    rw [hvisited, List.append_assoc, List.cons_append]
  have hnodup := Cursor.nodup_visited_root tree
  rw [hsplit, List.append_cons] at hnodup
  have hevents : tree.eventsAt source typeContexts (left ++ c :: mid)
      = tree.eventsAt source typeContexts left ++ (tree.eventsAt source typeContexts [c]
        ++ tree.eventsAt source typeContexts mid) := by
    simp [eventsAt]
  have hplace : [c] ⊆ (Cursor.root tree).visited := by simpa using hc
  rw [marksAfter, hevents]
  apply Marks.declaredAt?_afterAll
  -- what introduces a name on these bytes stands above `c`, and was visited before
  case hlater =>
    intro entry hentry hspan
    have hmid : mid ⊆ (Cursor.root tree).visited := by
      intro d hd
      simp [hsplit, hd]
    obtain ⟨d, hd, _, u, h', -, rfl⟩ :=
      (mem_declared_eventsAt_iff source typeContexts hmid).mp hentry
    obtain ⟨habove, hne⟩ := htree.mem_ancestors_of_introduces (hmid hd) h' ht hidentifier hspan
    have hup := h.mem_ancestors_of_introduces (Cursor.mem_visited_root_iff.mp ht).2 h' habove hne
    exact List.disjoint_of_nodup_append hnodup (ScopeTree.mem_of_mem_ancestors hsplit hup)
      (List.mem_append_left _ hd)
  case hhere =>
    intro entry hentry hspan
    obtain ⟨d, hd, home', u, h', hplain', rfl⟩ :=
      (mem_declared_eventsAt_iff source typeContexts hplace).mp hentry
    obtain rfl := List.mem_singleton.mp hd
    obtain rfl := htree.eq_of_introduces hc h hplain h' hplain' ht hidentifier hspan
    rw [hkey, h.home_eq, h'.home_eq]
  case hown =>
    apply (mem_declared_eventsAt_iff source typeContexts hplace).mpr
    exact ⟨c, List.mem_singleton_self c, home, t, h, hplain, by rw [hkey]⟩

/-- On the bytes of a name that is introduced at one of some visited places a declaration is
marked. -/
theorem isSome_declaredAt?_marksAfter (source : Bytes) (typeContexts : List NodeType)
    {places : List Cursor} (hplaces : places ⊆ (Cursor.root tree).visited) {c t : Cursor}
    (hc : c ∈ places) {home : Home} (h : c.Introduces home t) (hplain : ¬ c.Overlooks t) :
  ((tree.marksAfter source typeContexts places).declaredAt? t.span).isSome
  := by
  have hmem := (mem_declared_eventsAt_iff source typeContexts hplaces).mpr
    ⟨c, hc, home, t, h, hplain, rfl⟩
  rw [marksAfter, Marks.afterAll_eq, Marks.declaredAt?, Option.isSome_map, List.find?_isSome]
  exact ⟨_, List.mem_append_left _ (List.mem_reverse.mpr hmem), decide_eq_true rfl⟩

/-- The references in the course of the visits of some places are made by the marks of the visits
before. -/
theorem exists_reference?_of_mem_eventsAt {ref : Reference} {places : List Cursor} :
  ∀ {marks : Marks},
    ref ∈ collectReferences source marks (tree.eventsAt source typeContexts places) →
      ∃ before after, places = before ++ ref.node :: after ∧ ref.node.category = .identifier
        ∧ (marks.afterAll (tree.eventsAt source typeContexts before)).reference? source
          (.at typeContexts ref.node) = some ref
  := by
  induction places with
  | nil =>
    intro marks href
    simp [eventsAt, collectReferences] at href
  | cons c rest ih =>
    intro marks href
    have hevents : tree.eventsAt source typeContexts (c :: rest)
        = (Visit.at typeContexts c).events source (.ofVisits source (tree.traverse typeContexts))
          ++ tree.eventsAt source typeContexts rest := rfl
    rw [hevents, collectReferences_append] at href
    rcases List.mem_append.mp href with hhere | hrest
    · by_cases hidentifier : c.category = .identifier
      · rw [Visit.events_of_identifier hidentifier] at hhere
        have hmade : marks.reference? source (.at typeContexts c) = some ref := by
          simpa [collectReferences] using hhere
        obtain rfl : ref.node = c := congrArg Occurrence.node (Marks.reference?_inv hmade).1
        exact ⟨[], rest, rfl, hidentifier, hmade⟩
      · have hnodes := (nodes_collectReferences_sublist source _ marks).mem
          (List.mem_map_of_mem (f := fun ref : Reference => ref.node) hhere)
        have hother : (Visit.at typeContexts c).node.category ≠ .identifier := hidentifier
        rw [Visit.filterMap_occurring?_events, if_neg hother] at hnodes
        simp at hnodes
    · obtain ⟨before, after, rfl, hidentifier, hmade⟩ := ih hrest
      refine ⟨c :: before, after, rfl, hidentifier, ?_⟩
      have hbefore : tree.eventsAt source typeContexts (c :: before)
          = (Visit.at typeContexts c).events source (.ofVisits source (tree.traverse typeContexts))
            ++ tree.eventsAt source typeContexts before := rfl
      rw [hbefore, Marks.afterAll, List.foldl_append]
      exact hmade

end Tree

/-- An identifier on whose bytes a name is declared has no other role than that of the
declaration. -/
theorem Marks.role?_of_declaredAt? {marks : Marks} {source : Bytes} {visit : Visit}
    (h : (marks.declaredAt? visit.node.span).isSome) :
  marks.role? source visit
    = if marks.ignored.contains visit.node.span || visit.here.typeMode = .type then none
      else some .declarationTarget
  := by
  rw [role?]
  simp only [h, if_true]

/-- Attribution leaves a reference as it is that uses no variable. -/
theorem Reference.attributed_of_not_counts {ref : Reference} (h : ref.role.counts = false)
    (r : Registry) (scopes : ScopeTree) :
  ref.attributed r scopes = ref
  := by
  rw [attributed, h]
  rfl

namespace Analysis

variable {source : Bytes} {tree : Tree} {typeContexts : List NodeType} {options : RuleOptions}
  {a : Analysis}

/-- In a laminar tree no reference on the bytes of a declared name counts. -/
theorem not_counts_of_introduces (h : ofTree source tree typeContexts options = .ok a)
    (htree : tree.Laminar) {c t : Cursor} (hc : c ∈ (Cursor.root tree).visited) {home : Home}
    (hintroduces : c.Introduces home t) (hplain : ¬ c.Overlooks t) {ref : Reference}
    (href : ref ∈ a.references) (hspan : ref.span = t.span) :
  ref.role.counts = false
  := by
  rw [references_eq_map h htree] at href
  obtain ⟨made, hmade, rfl⟩ := List.mem_map.mp href
  rw [Reference.toOccurrence_attributed] at hspan ⊢
  rw [Tree.collected, Tree.events_eq] at hmade
  obtain ⟨before, after, hvisited, hidentifier, hreference⟩ :=
    Tree.exists_reference?_of_mem_eventsAt hmade
  have hnode : made.node ∈ (Cursor.root tree).visited := by simp [hvisited]
  obtain ⟨habove, hne⟩ :=
    htree.mem_ancestors_of_introduces hc hintroduces hnode hidentifier hspan.symm
  have hbefore := Tree.mem_before_of_mem_ancestors hvisited habove hne
  have hplaces : before ⊆ (Cursor.root tree).visited := by
    rw [hvisited]
    apply List.subset_append_left
  have hdeclared := Tree.isSome_declaredAt?_marksAfter source typeContexts hplaces hbefore
    hintroduces hplain
  rw [← hspan] at hdeclared
  obtain ⟨role, hrole, heq⟩ := Option.map_eq_some_iff.mp hreference
  rw [Marks.role?_of_declaredAt? hdeclared] at hrole
  split at hrole
  · cases hrole
  · cases hrole
    rw [← heq]
    rfl

/-- In a laminar tree a declared name has a single reference on its bytes, provided that the name is
visited, worth recording and in no type. -/
theorem exists_reference_of_introduces (h : ofTree source tree typeContexts options = .ok a)
    (htree : tree.Laminar) {c t : Cursor} (hc : c ∈ (Cursor.root tree).visited) {home : Home}
    (hintroduces : c.Introduces home t) (hplain : ¬ c.Overlooks t)
    (ht : t ∈ (Cursor.root tree).visited) (hmissing : t.missing = false)
    (hignored : ¬ tree.Ignores t.span) (hvalue : ¬ t.InType typeContexts) :
  ∃ ref, (a.references.filter fun ref => ref.span = t.span) = [ref] ∧ ref.node = t
    ∧ ref.role = .declarationTarget
    ∧ ref.binding = some ⟨t.text source, home.scope a.scopes c⟩
  := by
  have hidentifier := hintroduces.category_of_reached hplain
    (Cursor.mem_visited_root_iff.mp ht).2 hmissing
  obtain ⟨before, after, hvisited⟩ := List.append_of_mem ht
  have hplaces : before ⊆ (Cursor.root tree).visited := by
    rw [hvisited]
    apply List.subset_append_left
  have hdeclared := Tree.declaredAt?_marksAfter source typeContexts htree hc hintroduces hplain
    hidentifier hvisited rfl
  have hworth : ((tree.marksAfter source typeContexts before).ignored.contains t.span
      || (Visit.at typeContexts t).here.typeMode = .type) = false := by
    rw [Visit.here_at, Bool.or_eq_false_iff, decide_eq_false_iff_not,
      Surroundings.typeMode_inside_eq_type_iff]
    refine ⟨?_, hvalue⟩
    rw [← Bool.not_eq_true, List.contains_iff_mem]
    exact fun hmem => hignored (Tree.ignores_of_mem hplaces hmem)
  obtain ⟨made, hmade, hrole, hbinding⟩ : ∃ made : Reference,
      (tree.marksAfter source typeContexts before).reference? source (.at typeContexts t)
        = some made ∧ made.role = .declarationTarget
      ∧ made.binding = (tree.marksAfter source typeContexts before).declaredAt? t.span := by
    have hsome : ((tree.marksAfter source typeContexts before).declaredAt?
        (Visit.at typeContexts t).node.span).isSome := by
      change (Marks.declaredAt? _ t.span).isSome
      rw [hdeclared]
      rfl
    rw [Marks.reference?, Marks.role?_of_declaredAt? hsome, if_neg (Bool.not_eq_true _ ▸ hworth)]
    exact ⟨_, rfl, rfl, rfl⟩
  have hnode : made.node = t := congrArg Occurrence.node (Marks.reference?_inv hmade).1
  obtain ⟨earlier, later, hcollected⟩ :=
    Tree.collected_eq_append source typeContexts hvisited hidentifier
  have href : made ∈ a.references := by
    have hcounts : made.role.counts = false := by rw [hrole]; rfl
    rw [references_eq_map h htree, List.mem_map]
    refine ⟨made, ?_, Reference.attributed_of_not_counts hcounts a.registry a.scopes⟩
    rw [hcollected, hmade]
    simp
  refine ⟨made, ?_, hnode, hrole, ?_⟩
  · rw [← hnode]
    exact filter_eq_singleton (nodup_spans h htree) href
  · rw [hbinding, hdeclared, (ofTree_inv h).2.1]

/-- In a laminar tree no reference on the bytes of a declared name counts.  If the name is visited,
worth recording and in no type, a single reference stands on its bytes: that of the name, which is a
declaration and refers to the binding that was registered for the name. -/
theorem not_counts_of_mem_declared (h : ofTree source tree typeContexts options = .ok a)
    (htree : tree.Laminar) {b : Binding} (hb : b ∈ tree.declared source typeContexts) :
  ∃ t, b.target = some t
    ∧ (∀ ref ∈ a.references, ref.span = t.span → ref.role.counts = false)
    ∧ (t ∈ (Cursor.root tree).visited → t.missing = false → ¬ tree.Ignores t.span →
      ¬ t.InType typeContexts →
        ∃ ref, (a.references.filter fun ref => ref.span = t.span) = [ref] ∧ ref.node = t
          ∧ ref.role = .declarationTarget ∧ ref.binding = some b.key
          ∧ (a.registry.get? b.key).isSome)
  := by
  obtain ⟨c, hc, home, t, hintroduces, hplain, htarget, hkey⟩ :=
    Tree.exists_introduces_of_mem_declared hb
  refine ⟨t, htarget, ?_, ?_⟩
  · intro ref href hspan
    exact not_counts_of_introduces h htree hc hintroduces hplain href hspan
  · intro ht hmissing hignored hvalue
    obtain ⟨ref, honly, hnode, hrole, hbinding⟩ := exists_reference_of_introduces h htree hc
      hintroduces hplain ht hmissing hignored hvalue
    refine ⟨ref, honly, hnode, hrole, ?_, ?_⟩
    · rw [hbinding, hkey, (ofTree_inv h).2.1]
    · rw [Registry.get?_isSome, mem_keys_iff h]
      exact ⟨b, hb, rfl⟩

/-- The source `function f(\x7b k: [a = 1] \x7d) \x7b g(a); \x7d`. -/
def destructured : Bytes × Tree where
  fst := Utf8.encode "function f(\x7b k: [a = 1] \x7d) \x7b g(a); \x7d"
  snd :=
    .named .program 0 36 none
      [.named .functionDeclaration 0 36 none
        [.named .identifier 9 10 (some .name) [],
        .named .formalParameters 10 26 (some .parameters)
          [.named .objectPattern 11 25 none
            [.named .pairPattern 13 23 none
              [.named .propertyIdentifier 13 14 (some .key) [],
              .named .arrayPattern 16 23 (some .value)
                [.named .assignmentPattern 17 22 none
                  [.named .identifier 17 18 (some .left) [],
                  .named .number 21 22 (some .right) []]]]]],
        .named .statementBlock 27 36 (some .body)
          [.named .expressionStatement 29 34 none
            [.named .callExpression 29 33 none
              [.named .identifier 29 30 (some .function) [],
              .named .arguments 30 33 (some .arguments) [.named .identifier 31 32 none []]]]]]]

/-- The name inside the patterns of the parameter is a declaration, and the one in the call a
read. -/
theorem not_counts_of_mem_declared_destructured :
  ∃ a, ofTree destructured.1 destructured.2 [] {} = .ok a ∧ destructured.2.Laminar
    ∧ (a.references.filter (·.name = "a")).map (·.role) = [.declarationTarget, .read]
    ∧ ∃ b ∈ destructured.2.declared destructured.1 [], b.name = "a"
      ∧ ∃ t, b.target = some t
        ∧ (∀ ref ∈ a.references, ref.span = t.span → ref.role.counts = false)
        ∧ ∃ ref, (a.references.filter fun ref => ref.span = t.span) = [ref] ∧ ref.node = t
          ∧ ref.role = .declarationTarget ∧ ref.binding = some b.key
          ∧ (a.registry.get? b.key).isSome
  := by
  have htree : destructured.2.Laminar := by
    decide +kernel
  have hdeclared : ∃ b ∈ destructured.2.declared destructured.1 [], b.name = "a"
      ∧ ∀ t ∈ b.target, t ∈ (Cursor.root destructured.2).visited ∧ t.missing = false
        ∧ ¬ destructured.2.Ignores t.span ∧ ¬ t.InType [] := by
    decide +kernel
  have hany : (ofTree destructured.1 destructured.2 [] {}).toOption.any fun a =>
      (a.references.filter (·.name = "a")).map (·.role) = [.declarationTarget, .read] := by
    decide +kernel
  obtain ⟨b, hb, hname, hplace⟩ := hdeclared
  obtain ⟨a, ha, hroles⟩ := exists_ok_of_any hany
  obtain ⟨t, htarget, hcounts, hsingle⟩ := not_counts_of_mem_declared ha htree hb
  obtain ⟨ht, hmissing, hignored, hvalue⟩ := hplace t htarget
  exact ⟨a, ha, htree, of_decide_eq_true hroles, b, hb, hname, t, htarget, hcounts,
    hsingle ht hmissing hignored hvalue⟩

end Analysis

end SingleUse
