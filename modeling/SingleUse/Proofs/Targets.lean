import SingleUse.Proofs.Declaring

/-!
# Targets of patterns

The *targets* of a pattern are the identifiers that it declares or assigns.  They stand at or below
it, in the order of the source and each once, and none of them in the key of a property or in a
default value: every step from a pattern down to a target leads to a part that is a pattern itself.
A *single* pattern has one target and nothing else in it, and says which element of an array or
which property of an object the target takes.
-/

namespace SingleUse

namespace Cursor

variable {c t up child : Cursor}

/-! ### Order of the bytes -/

/-- Whether the bytes at and below a place are ordered: those of a node are bytes of its parent, and
siblings follow each other. -/
structure Orderly (c : Cursor) : Prop where
  nested : ∀ place ∈ c.preorder, ∀ child ∈ place.children,
    place.start ≤ child.start ∧ child.stop ≤ place.stop
  ordered : ∀ place ∈ c.preorder, place.children.Pairwise fun a b => a.stop ≤ b.start

instance (c : Cursor) : Decidable c.Orderly :=
  decidable_of_iff ((∀ place ∈ c.preorder, ∀ child ∈ place.children,
        place.start ≤ child.start ∧ child.stop ≤ place.stop)
      ∧ ∀ place ∈ c.preorder, place.children.Pairwise fun a b => a.stop ≤ b.start)
    ⟨fun ⟨hnested, hordered⟩ => ⟨hnested, hordered⟩, fun h => ⟨h.nested, h.ordered⟩⟩

/-- The places of a well-formed tree are ordered. -/
theorem Orderly.of_wellFormed {tree : Tree} {source : Bytes} (h : tree.WellFormed source)
    (hc : root tree ∈ c.ancestors) :
  c.Orderly
  := by
  have hbelow : ∀ place ∈ c.preorder, place ∈ (root tree).preorder := fun place hplace =>
    mem_preorder_iff.mpr (mem_ancestors_trans (mem_preorder_iff.mp hplace) hc)
  exact ⟨fun place hplace => h.nested place (hbelow place hplace),
    fun place hplace => h.ordered place (hbelow place hplace)⟩

/-- What lies below an ordered place is ordered. -/
theorem Orderly.of_mem_children (h : c.Orderly) (hchild : child ∈ c.children) :
  child.Orderly
  := by
  have hbelow : ∀ place ∈ child.preorder, place ∈ c.preorder := fun place hplace =>
    mem_preorder_iff.mpr (mem_ancestors_of_mem_children hchild (mem_preorder_iff.mp hplace))
  exact ⟨fun place hplace => h.nested place (hbelow place hplace),
    fun place hplace => h.ordered place (hbelow place hplace)⟩

/-- The bytes of all places below an ordered one are bytes of it. -/
theorem Orderly.bounds (h : c.Orderly) (hc : c ∈ t.ancestors) :
  c.start ≤ t.start ∧ t.stop ≤ c.stop
  := by
  induction c using induction_on_children with
  | step c ih =>
    have hmem := mem_preorder_iff.mpr hc
    rw [preorder_eq] at hmem
    rcases List.mem_cons.mp hmem with rfl | hmem
    · exact ⟨Nat.le_refl _, Nat.le_refl _⟩
    · obtain ⟨child, hchild, ht⟩ := List.mem_flatMap.mp hmem
      have hinner := ih child hchild (h.of_mem_children hchild) (mem_preorder_iff.mp ht)
      have houter := h.nested c c.self_mem_preorder child hchild
      omega

/-! ### Targets in order -/

/-- The parts of a pattern are some of its children, in their order. -/
theorem patternParts_sublist_children (c : Cursor) :
  c.patternParts.Sublist c.children
  := by
  have hfield : ∀ field, (c.childByField field).toList.Sublist c.children := by
    intro field
    rw [childByField, ← List.take_one]
    exact (List.take_sublist _ _).trans List.filter_sublist
  unfold patternParts
  split
  all_goals first
    | exact List.filter_sublist.trans List.filter_sublist
    | apply hfield
    | apply List.nil_sublist

/-- The targets of a pattern come in pre-order. -/
theorem targets_sublist_preorder (c : Cursor) :
  c.targets.Sublist c.preorder
  := by
  induction c using induction_on_children with
  | step c ih =>
    rw [targets_eq, preorder_eq]
    split
    · simp
    · apply List.Sublist.cons
      have hparts : (c.patternParts.flatMap targets).Sublist (c.patternParts.flatMap preorder) := by
        apply List.Sublist.flatMap_right
        exact fun part hpart => ih part (mem_children_of_mem_patternParts hpart)
      exact hparts.trans (c.patternParts_sublist_children.flatMap _)

/-- Of the targets of a pattern one ends before the next one starts. -/
theorem Orderly.pairwise_targets (h : c.Orderly) :
  c.targets.Pairwise fun a b => a.stop ≤ b.start
  := by
  induction c using induction_on_children with
  | step c ih =>
    rw [targets_eq]
    split
    · apply List.pairwise_singleton
    · rw [List.pairwise_flatMap]
      constructor
      · intro part hpart
        have hchild := mem_children_of_mem_patternParts hpart
        exact ih part hchild (h.of_mem_children hchild)
      · have hparts := (h.ordered c c.self_mem_preorder).sublist c.patternParts_sublist_children
        apply hparts.imp_of_mem
        intro part part' hpart hpart' hle t ht t' ht'
        have hchild := mem_children_of_mem_patternParts hpart
        have hchild' := mem_children_of_mem_patternParts hpart'
        have hbounds := (h.of_mem_children hchild).bounds (of_mem_targets ht).1
        have hbounds' := (h.of_mem_children hchild').bounds (of_mem_targets ht').1
        omega

/-! ### From a pattern down to a target -/

/-- Between a pattern and a name of it each place has the one below it for a part. -/
theorem Names.hasPart (h : c.Names t) (hc : c ∈ up.ancestors) (hchild : child ∈ up.children)
    (ht : child ∈ t.ancestors) :
  up.HasPart child
  := by
  have hup := mem_ancestors_of_mem_children hchild ht
  have hlength := length_path_of_parent (parent_of_mem_children hchild)
  induction h with
  | self =>
    have hle := length_path_le_of_mem_ancestors ht
    have hge := length_path_le_of_mem_ancestors hc
    omega
  | part hpart h ih =>
    rcases mem_ancestors_of_between hpart.parent h.mem_ancestors hup hc with rfl | hbelow
    · -- only one child of a place is above another place
      rw [eq_of_mem_ancestors ht h.mem_ancestors
        (hlength.trans (length_path_of_parent hpart.parent).symm)]
      exact hpart
    · exact ih hbelow ht hup

/-- Whether a child of a pattern is no pattern itself: the key of a property, or a default value. -/
inductive IsAside (up child : Cursor) : Prop
  | key (htype : up.type = .pairPattern) (hfield : child.label.field = some .key)
  | default (htype : up.type ∈ [.assignmentPattern, .objectAssignmentPattern])
    (hfield : child.label.field = some .right)
  /-- Parameters have their default values in another field. -/
  | parameter (htype : up.type ∈ [.requiredParameter, .optionalParameter])
    (hfield : child.label.field = some .value)

/-- Keys and default values are no parts of a pattern. -/
theorem IsAside.not_hasPart (h : up.IsAside child) :
  ¬ up.HasPart child
  := by
  intro hpart
  have hfieldOf : ∀ field, up.childByField field = some child → child.label.field = some field :=
    fun field hchild => (parent_of_childByField hchild).2
  cases h <;> cases hpart <;> grind

/-! ### Single patterns -/

/-- What a single pattern declares: its only element, at the position told by the commas before it,
or its only property, under its own name or under the key that is given for it. -/
inductive DeclaresOnly (c : Cursor) : SinglePattern → Prop
  | element {t : Cursor} {left right : List Cursor} (htype : c.type = .arrayPattern)
    (honly : c.significantChildren = [t]) (hidentifier : t.type = .identifier)
    (hchildren : c.children = left ++ t :: right) :
    DeclaresOnly c (.element t (left.countP fun node => node.type = .comma))
  | shorthand {t : Cursor} (htype : c.type = .objectPattern) (honly : c.significantChildren = [t])
    (hshorthand : t.type = .shorthandPropertyIdentifierPattern) :
    DeclaresOnly c (.property t t)
  | pair {pair t key : Cursor} (htype : c.type = .objectPattern)
    (honly : c.significantChildren = [pair]) (hpair : pair.type = .pairPattern)
    (hvalue : pair.childByField .value = some t) (hidentifier : t.type = .identifier)
    (hkey : pair.childByField .key = some key) :
    DeclaresOnly c (.property t key)

/-- The commas before a child that is not empty are counted up to its bytes. -/
theorem commasBefore_eq {left right : List Cursor} (hchildren : c.children = left ++ t :: right)
    (hordered : c.children.Pairwise fun a b => a.stop ≤ b.start) (hnonempty : t.start < t.stop)
    (hcomma : t.type ≠ .comma) :
  commasBefore t.span c.children = left.countP fun node => node.type = .comma
  := by
  have hleft : ∀ node ∈ left, node.span ≠ t.span := by
    intro node hnode hspan
    rw [hchildren] at hordered
    have hle := (List.pairwise_append.mp hordered).2.2 node hnode t List.mem_cons_self
    have hstop : node.stop = t.stop := congrArg Span.stop hspan
    omega
  rw [commasBefore, hchildren, List.takeWhile_append_of_pos, List.takeWhile_cons_of_neg,
    List.append_nil]
  · simp [hcomma]
  · intro node hnode
    simp [hleft node hnode]

/-- A pattern is single exactly if it declares one name in one of these ways. -/
theorem single_eq_some_iff {pattern : SinglePattern}
    (htype : c.type ∈ [.arrayPattern, .objectPattern])
    (hordered : c.children.Pairwise fun a b => a.stop ≤ b.start)
    (hnonempty : ∀ child ∈ c.children, child.start < child.stop) :
  c.single = some pattern ↔ c.DeclaresOnly pattern
  := by
  have hindex : ∀ {t left right}, c.children = left ++ t :: right → t.type = .identifier →
      commasBefore t.span c.children = left.countP fun node => node.type = .comma := by
    intro t left right hchildren hidentifier
    apply commasBefore_eq hchildren hordered
    · apply hnonempty
      simp [hchildren]
    · simp [hidentifier]
  constructor
  · intro h
    unfold single at h
    split at h
    · rename_i element honly
      split at h
      · rename_i harray
        split at h
        · rename_i hidentifier
          cases h
          have hmem : element ∈ c.children := by
            apply mem_children_of_mem_significantChildren
            simp [honly]
          obtain ⟨left, right, hchildren⟩ := List.append_of_mem hmem
          rw [hindex hchildren hidentifier]
          exact .element harray honly hidentifier hchildren
        · cases h
      · rename_i harray
        have hobject : c.type = .objectPattern := by
          simpa [harray] using htype
        split at h
        · rename_i hshorthand
          cases h
          exact .shorthand hobject honly hshorthand
        · rename_i hpair
          split at h
          · rename_i value key hvalue hkey
            split at h
            · rename_i hidentifier
              cases h
              exact .pair hobject honly hpair hvalue hidentifier hkey
            · cases h
          · cases h
        · cases h
    · cases h
  · intro h
    cases h with
    | element harray honly hidentifier hchildren =>
      simp only [single, honly, harray, if_true, hidentifier, hindex hchildren hidentifier]
    | shorthand hobject honly hshorthand => simp [single, honly, hobject, hshorthand]
    | pair hobject honly hpair hvalue hidentifier hkey =>
      simp [single, honly, hobject, hpair, hvalue, hidentifier, hkey]

/-- The targets of a pattern are identifiers at or below it, in the order of the source and each
once, and none of them stands in a key or in a default value of the pattern.  A single pattern has
its name for the only target, and declares it in one of three ways. -/
theorem targets_ordered (h : c.Orderly) :
  (c.type ∈ [.arrayPattern, .objectPattern] →
      (∀ child ∈ c.children, child.start < child.stop) → ∀ pattern,
        (c.single = some pattern ↔ c.DeclaresOnly pattern)
          ∧ (c.single = some pattern → c.targets = [pattern.target]))
    ∧ (∀ t ∈ c.targets, c ∈ t.ancestors
      ∧ t.type ∈ [.identifier, .shorthandPropertyIdentifierPattern])
    ∧ (c.targets.Nodup ∧ c.targets.Pairwise fun a b => a.stop ≤ b.start)
    ∧ ∀ t ∈ c.targets, ∀ up child : Cursor, c ∈ up.ancestors → child ∈ up.children →
      up.IsAside child → child ∉ t.ancestors
  := by
  refine ⟨?_, ?_, ⟨?_, h.pairwise_targets⟩, ?_⟩
  · intro htype hnonempty pattern
    have hordered := h.ordered c c.self_mem_preorder
    exact ⟨single_eq_some_iff htype hordered hnonempty, targets_of_single htype⟩
  · intro t ht
    obtain ⟨habove, htarget⟩ := of_mem_targets ht
    exact ⟨habove, isTarget_iff.mp htarget⟩
  · exact c.nodup_preorder.sublist c.targets_sublist_preorder
  · intro t ht up child hc hchild haside hbelow
    exact haside.not_hasPart ((mem_targets_iff.mp ht).hasPart hc hchild hbelow)

/-- The pattern `[ , /* b */ a]`. -/
def holed : Tree :=
  .named .arrayPattern 0 14 none
    [.node ⟨.other "[", 0, 1, false, false, none⟩ [], .node ⟨.comma, 2, 3, false, false, none⟩ [],
    .named .comment 4 11 none [], .named .identifier 12 13 none [],
    .node ⟨.other "]", 13, 14, false, false, none⟩ []]

/-- The pattern `{ k: [x = y], ...r }`. -/
def nested : Tree :=
  .named .objectPattern 0 20 none
    [.named .pairPattern 2 12 none
      [.named .propertyIdentifier 2 3 (some .key) [],
      .named .arrayPattern 5 12 (some .value)
        [.named .assignmentPattern 6 11 none
          [.named .identifier 6 7 (some .left) [], .named .identifier 10 11 (some .right) []]]],
    .named .restPattern 14 18 none [.named .identifier 17 18 none []]]

/-- The name of the first pattern takes the element after the hole; those of the second one do not
include the default value. -/
theorem targets_ordered_nested :
  (root holed).Orderly ∧ (root nested).Orderly
    ∧ (∀ child ∈ (root holed).children, child.start < child.stop)
    ∧ (∃ pattern, (root holed).DeclaresOnly pattern ∧ pattern.index = some 1
      ∧ (root holed).targets = [pattern.target] ∧ pattern.target.span = ⟨12, 13⟩)
    ∧ (root nested).targets.map (·.span) = [⟨6, 7⟩, ⟨17, 18⟩]
    ∧ ∀ t ∈ (root nested).targets, ∀ up child : Cursor, root nested ∈ up.ancestors →
      child ∈ up.children → up.IsAside child → child ∉ t.ancestors
  := by
  have hholed : (root holed).Orderly := by decide +kernel
  have hnested : (root nested).Orderly := by decide +kernel
  have hnonempty : ∀ child ∈ (root holed).children, child.start < child.stop := by decide +kernel
  have hany : (root holed).single.any fun pattern =>
      pattern.index = some 1 ∧ pattern.target.span = ⟨12, 13⟩ := by
    decide +kernel
  obtain ⟨pattern, hpattern, hplace⟩ := (Option.any_eq_true _ _).mp hany
  obtain ⟨hindex, hspan⟩ := of_decide_eq_true hplace
  obtain ⟨hiff, htargets⟩ := (targets_ordered hholed).1 (by decide) hnonempty pattern
  refine ⟨hholed, hnested, hnonempty, ⟨pattern, hiff.mp hpattern, hindex, htargets hpattern, hspan⟩,
    ?_, (targets_ordered hnested).2.2.2⟩
  decide +kernel

end Cursor

end SingleUse
