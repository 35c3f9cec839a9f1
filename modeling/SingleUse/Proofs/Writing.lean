import SingleUse.Proofs.Marking
import SingleUse.Proofs.Reporting

/-!
# Writing

Names that are assigned to.  A node that writes is visited before the names that it writes to, and
marks their bytes.  So the references of these names are assignment targets, and attribution marks
the bindings that they refer to.

Marked and counted bytes tell identifiers apart in a *laminar* tree: the bytes of a node are bytes
of its parent, siblings share no byte, and identifiers are not empty.
-/

namespace SingleUse

/-! ### Laminar trees -/

/-- Whether two places share no byte. -/
def Cursor.Disjoint (a b : Cursor) : Prop := min a.stop b.stop ≤ max a.start b.start

instance (a b : Cursor) : Decidable (a.Disjoint b) :=
  inferInstanceAs (Decidable (_ ≤ _))

instance : Std.Symm Cursor.Disjoint where
  symm := by
    intro a b h
    rw [Cursor.Disjoint] at h ⊢
    omega

/-- Whether the bytes of a tree are nested, and identifiers are told by theirs. -/
structure Tree.Laminar (tree : Tree) : Prop where
  /-- The bytes of a node are bytes of its parent. -/
  nested : ∀ c ∈ (Cursor.root tree).preorder, ∀ child ∈ c.children,
    c.start ≤ child.start ∧ child.stop ≤ c.stop
  /-- Siblings share no byte. -/
  disjoint : ∀ c ∈ (Cursor.root tree).preorder, c.children.Pairwise Cursor.Disjoint
  /-- Identifiers are not empty. -/
  nonempty : ∀ c ∈ (Cursor.root tree).preorder, c.category = .identifier → c.start < c.stop

instance (tree : Tree) : Decidable tree.Laminar :=
  decidable_of_iff ((∀ c ∈ (Cursor.root tree).preorder, ∀ child ∈ c.children,
        c.start ≤ child.start ∧ child.stop ≤ c.stop)
      ∧ (∀ c ∈ (Cursor.root tree).preorder, c.children.Pairwise Cursor.Disjoint)
      ∧ ∀ c ∈ (Cursor.root tree).preorder, c.category = .identifier → c.start < c.stop)
    ⟨fun ⟨hnested, hdisjoint, hnonempty⟩ => ⟨hnested, hdisjoint, hnonempty⟩,
    fun h => ⟨h.nested, h.disjoint, h.nonempty⟩⟩

/-- Well-formed trees are laminar. -/
theorem Tree.WellFormed.laminar {tree : Tree} {source : Bytes} (h : tree.WellFormed source) :
  tree.Laminar
  where
  nested := h.nested
  disjoint := by
    intro c hc
    apply (h.ordered c hc).imp
    intro a b hle
    rw [Cursor.Disjoint]
    omega
  nonempty c hc hcategory := h.nonempty c hc (.inl hcategory)

namespace Tree.Laminar

variable {tree : Tree}

/-- The bytes of a place are bytes of all its ancestors. -/
theorem bounds (h : tree.Laminar) {up c : Cursor} (hc : Cursor.root tree ∈ c.ancestors)
    (hup : up ∈ c.ancestors) :
  up.start ≤ c.start ∧ c.stop ≤ up.stop
  := by
  induction hup using Cursor.induction_on_ancestors with
  | self => exact ⟨Nat.le_refl _, Nat.le_refl _⟩
  | above up top hup hparent ih =>
    have hroot := Cursor.root_mem_ancestors_of_mem hc hup
    have htop := Cursor.root_mem_ancestors_of_parent hroot hparent
    have hnested := h.nested top (Cursor.mem_preorder_iff.mpr htop) up
      (Cursor.mem_children_of_parent hparent)
    omega

/-- Of two places that share a byte one lies above the other. -/
theorem comparable (h : tree.Laminar) {top a b : Cursor} (htop : Cursor.root tree ∈ top.ancestors)
    (ha : a ∈ top.preorder) (hb : b ∈ top.preorder) (hshared : ¬ a.Disjoint b) :
  a ∈ b.ancestors ∨ b ∈ a.ancestors
  := by
  induction top using Cursor.induction_on_children with
  | step top ih =>
    have hbelow : ∀ c ∈ top.preorder, c = top ∨ ∃ child ∈ top.children, c ∈ child.preorder := by
      intro c hc
      rw [Cursor.preorder_eq] at hc
      simpa using hc
    rcases hbelow a ha with rfl | ⟨x, hx, hax⟩
    · exact .inl (Cursor.mem_preorder_iff.mp hb)
    · rcases hbelow b hb with rfl | ⟨y, hy, hby⟩
      · exact .inr (Cursor.mem_preorder_iff.mp ha)
      · have hroot : ∀ child ∈ top.children, Cursor.root tree ∈ child.ancestors :=
          fun child => Cursor.root_mem_ancestors_of_mem_children htop
        by_cases hxy : x = y
        · subst hxy
          exact ih x hx (hroot x hx) hax hby
        · have hdisjoint : x.Disjoint y :=
            (h.disjoint top (Cursor.mem_preorder_iff.mpr htop)).forall hx hy hxy
          have hxa := Cursor.mem_preorder_iff.mp hax
          have hyb := Cursor.mem_preorder_iff.mp hby
          have ha := h.bounds (Cursor.mem_ancestors_trans hxa (hroot x hx)) hxa
          have hb := h.bounds (Cursor.mem_ancestors_trans hyb (hroot y hy)) hyb
          rw [Cursor.Disjoint] at hdisjoint hshared
          omega

/-- Visited identifiers are told by their bytes. -/
theorem eq_of_span_eq (h : tree.Laminar) {a b : Cursor} (ha : a ∈ (Cursor.root tree).visited)
    (hb : b ∈ (Cursor.root tree).visited) (hidentifier : a.category = .identifier)
    (hidentifier' : b.category = .identifier) (hspan : a.span = b.span) :
  a = b
  := by
  obtain ⟨hrootA, hreachedA⟩ := Cursor.mem_visited_root_iff.mp ha
  obtain ⟨hrootB, hreachedB⟩ := Cursor.mem_visited_root_iff.mp hb
  have hshared : ¬ a.Disjoint b := by
    have hstart : a.start = b.start := congrArg Span.start hspan
    have hstop : a.stop = b.stop := congrArg Span.stop hspan
    have hlt := h.nonempty a (Cursor.mem_preorder_iff.mpr hrootA) hidentifier
    rw [Cursor.Disjoint]
    omega
  -- nothing below an identifier is visited
  rcases h.comparable (Cursor.self_mem_ancestors _) (Cursor.mem_preorder_iff.mpr hrootA)
      (Cursor.mem_preorder_iff.mpr hrootB) hshared with habove | habove
  · rcases List.mem_cons.mp habove with heq | habove
    · exact heq
    · exact absurd (.inr (.inl hidentifier)) (hreachedB.2 a habove).2
  · rcases List.mem_cons.mp habove with heq | habove
    · exact heq.symm
    · exact absurd (.inr (.inl hidentifier')) (hreachedA.2 b habove).2

end Tree.Laminar

/-! ### What a node writes to -/

namespace Cursor

/-- Whether a node assigns to the parts of a target: an assignment, an update, or a loop over
elements that declares no variable. -/
inductive Writes (c target : Cursor) : Prop
  | assignment (hcategory : c.category = .assignment) (htarget : c.childByField .left = some target)
  | update (hcategory : c.category = .update) (htarget : c.childByField .argument = some target)
  | loop (hcategory : c.category = .loop) (htype : c.type = .forInStatement)
      (hkind : c.childByField .kind = none) (htarget : c.childByField .left = some target)

theorem Writes.assigned_eq {c target : Cursor} (h : c.Writes target) :
  c.assigned = target.unwrap.targets.map (·.span)
  := by
  cases h with
  | assignment hcategory htarget => simp [assigned, hcategory, htarget]
  | update hcategory htarget => simp [assigned, hcategory, htarget]
  | loop hcategory htype hkind htarget => simp [assigned, hcategory, htype, hkind, htarget]

theorem Writes.mem_children {c target : Cursor} (h : c.Writes target) :
  target ∈ c.children ∧ c.category ≠ .identifier
  := by
  cases h with
  | assignment hcategory htarget =>
    use mem_children_of_childByField htarget
    simp [hcategory]
  | update hcategory htarget =>
    use mem_children_of_childByField htarget
    simp [hcategory]
  | loop hcategory _ _ htarget =>
    use mem_children_of_childByField htarget
    simp [hcategory]

theorem mem_children_of_mem_patternParts {c part : Cursor} (h : part ∈ c.patternParts) :
  part ∈ c.children
  := by
  unfold patternParts at h
  split at h
  all_goals first
    | exact mem_children_of_mem_significantChildren h
    | exact mem_children_of_childByField (Option.mem_toList.mp h)
    | simp at h

/-- The targets of a pattern stand at or below it, and are names. -/
theorem of_mem_targets {c t : Cursor} (h : t ∈ c.targets) :
  c ∈ t.ancestors ∧ isTarget t.type
  := by
  induction c using induction_on_children with
  | step c ih =>
    rw [targets_eq] at h
    split at h
    · rename_i htarget
      obtain rfl := List.mem_singleton.mp h
      exact ⟨t.self_mem_ancestors, htarget⟩
    · obtain ⟨part, hpart, ht⟩ := List.mem_flatMap.mp h
      have hchild := mem_children_of_mem_patternParts hpart
      obtain ⟨habove, htarget⟩ := ih part hchild ht
      exact ⟨mem_ancestors_of_mem_children hchild habove, htarget⟩

/-- The expression inside all wrappers stands at or below them. -/
theorem mem_ancestors_unwrap (c : Cursor) :
  c ∈ c.unwrap.ancestors
  := by
  induction c using induction_on_children with
  | step c ih =>
    rw [unwrap]
    split
    · apply self_mem_ancestors
    · rename_i inner hinner
      have hchild := mem_children_of_wrapped hinner
      apply mem_ancestors_of_mem_children hchild (ih inner hchild)

end Cursor

/-! ### Written names -/

/-- A name that is assigned to is an assignment target by the marks at its visit. -/
theorem Tree.role?_of_writes {tree : Tree} (source : Bytes) {typeContexts : List NodeType}
    {c target t : Cursor} (hc : c ∈ (Cursor.root tree).visited) (hwrites : c.Writes target)
    (ht : t ∈ target.unwrap.targets) (hvisited : t ∈ (Cursor.root tree).visited)
    (hidentifier : t.category = .identifier)
    (hdeclared : ¬ tree.Declares source typeContexts t.span) (hignored : ¬ tree.Ignores t.span)
    (hvalue : ¬ t.InType typeContexts) :
  ∃ before after, (Cursor.root tree).visited = before ++ t :: after
    ∧ (tree.marksAfter source typeContexts before).role? source (.at typeContexts t)
      = some .assignmentTarget
  := by
  obtain ⟨htarget, hnotIdentifier⟩ := hwrites.mem_children
  obtain ⟨hunwrapped, hname⟩ := Cursor.of_mem_targets ht
  have habove : c ∈ t.ancestors := by
    apply Cursor.mem_ancestors_of_mem_children htarget
    apply Cursor.mem_ancestors_trans hunwrapped target.mem_ancestors_unwrap
  have hne : t ≠ c := by
    rintro rfl
    exact hnotIdentifier hidentifier
  obtain ⟨before, after, hsplit, hbefore⟩ := Cursor.visited_eq_append hc hvisited habove hne
  have hplaces : before ⊆ (Cursor.root tree).visited := by
    rw [hsplit]
    apply List.subset_append_left
  use before, after, hsplit
  apply Marks.role?_of_assigned hname
  · rw [Visit.here_at, Ne, Surroundings.typeMode_inside_eq_type_iff]
    exact hvalue
  · apply Tree.mem_assigned_marksAfter hbefore
    rw [hwrites.assigned_eq]
    exact List.mem_map_of_mem ht
  · exact fun hmem => hignored (Tree.ignores_of_mem hplaces hmem)
  · intro entry hentry hspan
    have hentry := Tree.declares_of_mem hplaces hentry
    rw [hspan] at hentry
    exact hdeclared hentry

/-- Of a list whose members have different images, one is alone with its image. -/
theorem filter_eq_singleton {α β : Type} [DecidableEq β] {f : α → β} {l : List α}
    (h : (l.map f).Nodup) {x : α} (hx : x ∈ l) :
  (l.filter fun y => f y = f x) = [x]
  := by
  obtain ⟨left, right, rfl⟩ := List.append_of_mem hx
  rw [List.map_append, List.map_cons] at h
  have hnotMem := List.nodup_middle.mp h
  simp only [List.nodup_cons, List.mem_append, List.mem_map, not_or] at hnotMem
  obtain ⟨⟨hleft, hright⟩, -⟩ := hnotMem
  have hnone : ∀ part : List α, (¬ ∃ y ∈ part, f y = f x) →
      part.filter (fun y => f y = f x) = [] := by
    intro part hpart
    apply List.filter_eq_nil_iff.mpr
    intro y hy heq
    exact hpart ⟨y, hy, of_decide_eq_true heq⟩
  rw [List.filter_append, List.filter_cons_of_pos (by simp), hnone left hleft, hnone right hright]
  rfl

namespace Analysis

variable {source : Bytes} {tree : Tree} {typeContexts : List NodeType} {options : RuleOptions}
  {a : Analysis}

/-- In a laminar tree no two references stand on the same bytes. -/
theorem nodup_spans (h : ofTree source tree typeContexts options = .ok a) (htree : tree.Laminar) :
  (a.references.map (·.span)).Nodup
  := by
  have hplaces : ∀ c ∈ a.references.map (·.node),
      c ∈ (Cursor.root tree).visited ∧ c.category = .identifier := by
    intro c hc
    obtain ⟨ref, href, rfl⟩ := List.mem_map.mp hc
    obtain ⟨hvisited, hidentifier, -⟩ := exists_reference?_of_mem h href
    exact ⟨hvisited, hidentifier⟩
  have hmap := List.Nodup.map_on (fun c hc other hother =>
    htree.eq_of_span_eq (hplaces c hc).1 (hplaces other hother).1 (hplaces c hc).2
      (hplaces other hother).2) (nodup_nodes h)
  rwa [List.map_map] at hmap

/-- In a laminar tree every reference is attributed to what its name refers to. -/
theorem references_eq_map (h : ofTree source tree typeContexts options = .ok a)
    (htree : tree.Laminar) :
  a.references
    = (tree.collected source typeContexts).map (·.attributed a.registry a.scopes)
  := by
  have hspans : ((tree.collected source typeContexts).map (·.span)).Nodup := by
    have hsame := congrArg (List.map Cursor.span) (nodes_references h)
    rw [List.map_map, List.map_map] at hsame
    exact hsame ▸ nodup_spans h htree
  obtain ⟨-, -, r, -, hregistry, hreferences⟩ := ofTree_inv h
  have hkeys : a.registry.keys = r.keys := by
    rw [hregistry, Attribution.keys_run fresh_of_mem_collected]
  rw [hreferences, Attribution.run_eq_map a.scopes hspans (by simp)]
  simp only [Reference.attributed, Registry.resolve_congr hkeys]

/-- A name that is assigned to has a single reference, which is an assignment target, and the
binding that it refers to is marked and not reported. -/
theorem reassigned_of_writes (h : ofTree source tree typeContexts options = .ok a)
    (htree : tree.Laminar) {c target t : Cursor} (hc : c ∈ (Cursor.root tree).visited)
    (hwrites : c.Writes target) (ht : t ∈ target.unwrap.targets)
    (hvisited : t ∈ (Cursor.root tree).visited) (hidentifier : t.category = .identifier)
    (hdeclared : ¬ tree.Declares source typeContexts t.span) (hignored : ¬ tree.Ignores t.span)
    (hvalue : ¬ t.InType typeContexts) :
  ∃ ref, a.references.filter (·.node = t) = [ref] ∧ ref.name = t.text source
    ∧ ref.role = .assignmentTarget
    ∧ ∀ b ∈ a.registry.bindings,
      (a.registry.resolve a.scopes ref.name ref.scope).map (·.1) = some b.key →
        b.reassigned ∧ ∀ reported, a.registry.reportable options a.scopes = .ok reported →
          b ∉ reported
  := by
  obtain ⟨before, after, hsplit, hrole⟩ :=
    Tree.role?_of_writes source hc hwrites ht hvisited hidentifier hdeclared hignored hvalue
  obtain ⟨earlier, later, hcollected⟩ :=
    Tree.collected_eq_append source typeContexts hsplit hidentifier
  obtain ⟨made, hmade, hassigns⟩ : ∃ made : Reference,
      (tree.marksAfter source typeContexts before).reference? source (.at typeContexts t)
        = some made ∧ made.role = .assignmentTarget := by
    rw [Marks.reference?, hrole]
    exact ⟨_, rfl, rfl⟩
  have hoccurrence := (Marks.reference?_inv hmade).1
  have href : made.attributed a.registry a.scopes ∈ a.references := by
    rw [references_eq_map h htree, hcollected, hmade]
    apply List.mem_map_of_mem
    simp
  have hnode : (made.attributed a.registry a.scopes).node = t := by
    rw [Reference.toOccurrence_attributed, hoccurrence]
    rfl
  have hrole : (made.attributed a.registry a.scopes).role = .assignmentTarget := by
    rw [Reference.toOccurrence_attributed, hassigns]
  use made.attributed a.registry a.scopes
  refine ⟨?_, ?_, hrole, ?_⟩
  · rw [← hnode]
    exact filter_eq_singleton (nodup_nodes h) href
  · rw [Reference.toOccurrence_attributed, hoccurrence]
    rfl
  · intro b hb hresolve
    rw [Reference.toOccurrence_attributed] at hresolve
    have huses : (made.attributed a.registry a.scopes).uses b.key := by
      apply Reference.uses_attributed _ hresolve
      rw [hassigns]
      rfl
    have hreassigned : b.reassigned := by
      apply (tallied_of_mem h hb).reassigned.mpr
      exact ⟨_, List.mem_filter.mpr ⟨href, huses⟩, hrole⟩
    use hreassigned
    intro reported hreported hmem
    obtain ⟨-, -, read, -, hpasses⟩ := Registry.passes_of_mem_reportable hreported hmem
    simp [hpasses.reassigned] at hreassigned

/-- The source `let a = 1; (\x7b k: [a = 2] \x7d = f());`. -/
def written : Bytes × Tree where
  fst := Utf8.encode "let a = 1; (\x7b k: [a = 2] \x7d = f());"
  snd :=
    .named .program 0 34 none
      [.named .lexicalDeclaration 0 10 none
        [.named .variableDeclarator 4 9 none
          [.named .identifier 4 5 (some .name) [], .named .number 8 9 (some .value) []]],
      .named .expressionStatement 11 34 none
        [.named .parenthesizedExpression 11 33 none
          [.named .assignmentExpression 12 32 none
            [.named .objectPattern 12 26 (some .left)
              [.named .pairPattern 14 24 none
                [.named .propertyIdentifier 14 15 (some .key) [],
                .named .arrayPattern 17 24 (some .value)
                  [.named .assignmentPattern 18 23 none
                    [.named .identifier 18 19 (some .left) [],
                    .named .number 22 23 (some .right) []]]]],
            .named .callExpression 29 32 (some .right)
              [.named .identifier 29 30 (some .function) [],
              .named .arguments 30 32 (some .arguments) []]]]]]

/-- The pattern writes to the name inside it, so its variable is reassigned and not reported. -/
theorem reassigned_of_writes_written :
  ∃ a, ofTree written.1 written.2 [] {} = .ok a ∧ written.2.Laminar
    ∧ ∃ c ∈ (Cursor.root written.2).visited, ∃ target, c.Writes target
    ∧ ∃ t ∈ target.unwrap.targets, t ∈ (Cursor.root written.2).visited
      ∧ t.category = .identifier ∧ ¬ written.2.Declares written.1 [] t.span
      ∧ ¬ written.2.Ignores t.span ∧ ¬ t.InType []
      ∧ (∃ b ∈ a.registry.bindings, ∃ ref ∈ a.references, ref.node = t
        ∧ (a.registry.resolve a.scopes ref.name ref.scope).map (·.1) = some b.key)
      ∧ ∃ ref, a.references.filter (·.node = t) = [ref] ∧ ref.name = t.text written.1
        ∧ ref.role = .assignmentTarget
        ∧ ∀ b ∈ a.registry.bindings,
          (a.registry.resolve a.scopes ref.name ref.scope).map (·.1) = some b.key →
            b.reassigned ∧ ∀ reported, a.registry.reportable {} a.scopes = .ok reported →
              b ∉ reported
  := by
  have htree : written.2.Laminar := by
    decide +kernel
  have hwrites : ∃ c ∈ (Cursor.root written.2).visited, c.category = .assignment
      ∧ ∃ target ∈ c.childByField .left, ∃ t ∈ target.unwrap.targets,
        t ∈ (Cursor.root written.2).visited ∧ t.category = .identifier
          ∧ ¬ written.2.Declares written.1 [] t.span ∧ ¬ written.2.Ignores t.span
          ∧ ¬ t.InType []
          ∧ (ofTree written.1 written.2 [] {}).toOption.any fun a =>
            a.registry.bindings.any fun b => a.references.any fun ref => ref.node = t
              ∧ (a.registry.resolve a.scopes ref.name ref.scope).map (·.1) = some b.key := by
    decide +kernel
  obtain ⟨c, hc, hcategory, target, htarget, t, ht, hvisited, hidentifier, hdeclared, hignored,
    hvalue, hany⟩ := hwrites
  obtain ⟨a, ha, hresolved⟩ := exists_ok_of_any hany
  have hwriter : c.Writes target := .assignment hcategory htarget
  refine ⟨a, ha, htree, c, hc, target, hwriter, t, ht, hvisited, hidentifier, hdeclared, hignored,
    hvalue, ?_, ?_⟩
  · simpa using hresolved
  · exact reassigned_of_writes ha htree hc hwriter ht hvisited hidentifier hdeclared hignored hvalue

end Analysis

end SingleUse
