import SingleUse.Proofs.Relaxing
import SingleUse.Proofs.Visiting
import SingleUse.Proofs.Writing

/-!
# Ordering

The order of the findings.  A registry keeps its bindings in the order in which their keys were
first declared, whatever declares them: parameters, patterns with several names, `var` declarations
whose names belong to a scope further out, and declarations of a key that is there already.  What it
*offers* are the bindings that passed their screening.  Only a *candidate* can pass, the only name
of a declarator, so that each declarator declares at most one.  As the declarators are visited in
pre-order, so are the bindings on offer, and the findings are made from some of these.
-/

namespace SingleUse

/-! ### Candidates -/

/-- Whether a declaration may pass its screening: its name is the only one of a declarator. -/
def Binding.isCandidate (b : Binding) : Bool := b.origin = .declarator && b.rejection.isNone

/-- What passes its screening is a candidate. -/
theorem Binding.isCandidate_of_screen {options : RuleOptions} {source : Bytes} {b : Binding}
    (h : b.screen options source = .ok none) :
  b.isCandidate
  := by
  have horigin := Analysis.origin_of_screen h
  have hrejection : b.rejection = none := by
    by_contra hsome
    rw [screen, if_neg (not_not_intro horigin),
      if_pos (Option.isSome_iff_ne_none.mpr hsome)] at h
    apply hsome (Except.ok.inj h)
  simp [isCandidate, horigin, hrejection]

namespace Visit

variable {visit : Visit} {source : Bytes} {scopes : ScopeTree}

/-- A declarator declares at most one candidate: of a pattern with several names none is one. -/
theorem length_candidates_declaratorBindings_le :
  ((visit.declaratorBindings source scopes).filter (·.isCandidate)).length ≤ 1
  := by
  unfold declaratorBindings
  split
  · simp
  · dsimp only
    split
    case h_1 => apply List.length_filter_le
    case h_4 => simp
    all_goals
      split
      · apply List.length_filter_le
      · rw [List.filter_map, List.length_map]
        simp [Function.comp_def, Binding.isCandidate]

/-- At a visit at most one candidate is declared, and it is declared by the visited node. -/
theorem declaration_candidates_sublist :
  (((visit.bindings source scopes).filter (·.isCandidate)).map (·.declaration)).Sublist
    [some visit.node]
  := by
  have hdeclaration : ∀ b ∈ (visit.bindings source scopes).filter (·.isCandidate),
      b.declaration = some visit.node := by
    intro b hb
    apply (declares_of_mem_bindings (List.mem_filter.mp hb).1).declaration
  have hlength : ((visit.bindings source scopes).filter (·.isCandidate)).length ≤ 1 := by
    by_cases hcategory : visit.node.category = .declarator
    · simp only [bindings, hcategory]
      apply length_candidates_declaratorBindings_le
    · have hnone : (visit.bindings source scopes).filter (·.isCandidate) = [] := by
        apply List.filter_eq_nil_iff.mpr
        intro b hb hcandidate
        have horigin : b.origin = .declarator := by
          simpa using (Bool.and_eq_true_iff.mp hcandidate).1
        apply hcategory ((declares_of_mem_bindings hb).initializer horigin).1
      simp [hnone]
  have hmap : ((visit.bindings source scopes).filter (·.isCandidate)).map (·.declaration)
      = List.replicate ((visit.bindings source scopes).filter (·.isCandidate)).length
        (some visit.node) := by
    apply List.eq_replicate_iff.mpr
    constructor
    · apply List.length_map
    · intro declaration hmem
      obtain ⟨b, hb, rfl⟩ := List.mem_map.mp hmem
      apply hdeclaration b hb
  rw [hmap]
  apply (List.replicate_sublist_replicate (n := 1) _).mpr hlength

end Visit

/-- The declarations of a tree are those at its visits. -/
theorem Tree.declared_eq (tree : Tree) (source : Bytes) (typeContexts : List NodeType) :
  tree.declared source typeContexts
    = (tree.traverse typeContexts).flatMap fun visit =>
      visit.bindings source (.ofVisits source (tree.traverse typeContexts))
  := by
  rw [declared, declarations, events, List.filterMap_flatMap]
  apply List.flatMap_congr
  intro visit _
  simp only [Visit.events, List.filterMap_append, List.filterMap_map]
  split <;> simp

/-- The candidates of a tree come in the order in which the nodes that declare them are visited,
at most one for each node. -/
theorem Tree.declaration_candidates_sublist (tree : Tree) (source : Bytes)
    (typeContexts : List NodeType) :
  (((tree.declared source typeContexts).filter (·.isCandidate)).map (·.declaration)).Sublist
    ((Cursor.root tree).visited.map some)
  := by
  have hvisited : (Cursor.root tree).visited.map some
      = (tree.traverse typeContexts).flatMap fun visit => [some visit.node] := by
    rw [traverse_eq, List.flatMap_map, ← List.map_eq_flatMap]
    rfl
  rw [declared_eq, List.filter_flatMap, List.map_flatMap, hvisited]
  generalize ScopeTree.ofVisits source (tree.traverse typeContexts) = scopes
  induction tree.traverse typeContexts with
  | nil => apply List.Sublist.refl
  | cons visit rest ih =>
    rw [List.flatMap_cons, List.flatMap_cons]
    apply Visit.declaration_candidates_sublist.append ih

/-! ### What a registry offers -/

namespace Registry

/-- What declares the bindings that passed their screening, in the order of the registry. -/
def offered (r : Registry) : List (Option Cursor) :=
  (r.bindings.filter (·.rejection.isNone)).map (·.declaration)

/-- Changes that leave rejections and declarations as they are leave what is on offer as it is. -/
theorem offered_of_map {change : Binding → Binding} {r r' : Registry}
    (h : r'.bindings = r.bindings.map change)
    (hrejection : ∀ b, (change b).rejection = b.rejection)
    (hdeclaration : ∀ b, (change b).declaration = b.declaration) :
  r'.offered = r.offered
  := by
  simp [offered, h, List.filter_map, Function.comp_def, hrejection, hdeclaration]

variable {options : RuleOptions} {source : Bytes}

/-- Declaring a screened binding adds it to what is on offer at most, and only a candidate. -/
theorem offered_register_sublist {r : Registry} {d : Binding} {rejection : Option Exclusion}
    (hscreen : d.screen options source = .ok rejection) :
  (r.register (d.screened rejection)).offered.Sublist
    (r.offered ++ ([d].filter (·.isCandidate)).map (·.declaration))
  := by
  by_cases hkey : (d.screened rejection).key ∈ r.keys
  · have hsame : (r.register (d.screened rejection)).offered = r.offered := by
      apply offered_of_map
      · rw [register_of_mem hkey, bindings_modify]
      all_goals
        intro b
        split <;> rfl
    rw [hsame]
    apply List.sublist_append_left
  · rw [offered, register_of_notMem hkey, List.filter_append, List.map_append]
    apply List.Sublist.append (List.Sublist.refl _)
    cases rejection with
    | some exclusion => simp [Binding.screened]
    | none => simp [Binding.screened, Binding.isCandidate_of_screen hscreen]

/-- Declaring bindings one after the other adds the candidates to what is on offer at most, in
their order. -/
theorem offered_declareAll_sublist {declared : List Binding} :
  ∀ {r r' : Registry}, r.declareAll options source declared = .ok r' →
    r'.offered.Sublist (r.offered ++ (declared.filter (·.isCandidate)).map (·.declaration))
  := by
  induction declared with
  | nil =>
    intro r r' h
    cases h
    simp
  | cons d rest ih =>
    intro r r' h
    obtain ⟨rejection, hscreen, h⟩ := exists_ok_of_bind h
    have hstep := (offered_register_sublist hscreen (r := r)).append_right
      ((rest.filter (·.isCandidate)).map (·.declaration))
    rw [List.append_assoc, ← List.map_append, ← List.filter_append] at hstep
    apply (ih h).trans hstep

/-- What is reported is on offer. -/
theorem declaration_reportable_sublist {r : Registry} {scopes : ScopeTree}
    {reported : List Binding} (h : r.reportable options scopes = .ok reported) :
  (reported.map (·.declaration)).Sublist r.offered
  := by
  rw [reportable_inv h]
  apply List.Sublist.map
  apply List.monotone_filter_right
  intro b hb
  obtain ⟨-, read, -, hnone⟩ := Binding.check_inv (of_decide_eq_true hb)
  simp [(Binding.passes_of_exclusion?_eq_none hnone).rejection]

end Registry

/-! ### The order of what is reported -/

/-- In a well-formed tree no node starts before one that comes before it in pre-order. -/
theorem Tree.WellFormed.pairwise_start {tree : Tree} {source : Bytes} (h : tree.WellFormed source) :
  (Cursor.root tree).preorder.Pairwise fun c d => c.start ≤ d.start
  := by
  have hbelow : ∀ {c : Cursor}, .root tree ∈ c.ancestors → ∀ d ∈ c.preorder,
      c.start ≤ d.start ∧ d.stop ≤ c.stop := by
    intro c hc d hd
    have hup := Cursor.mem_preorder_iff.mp hd
    apply h.laminar.bounds (Cursor.mem_ancestors_trans hup hc) hup
  suffices haux : ∀ c : Cursor, .root tree ∈ c.ancestors →
      c.preorder.Pairwise fun c d => c.start ≤ d.start from
    haux _ (Cursor.self_mem_ancestors _)
  intro c
  induction c using Cursor.induction_on_children with
  | step c ih =>
    intro hc
    have hin : ∀ child ∈ c.children, .root tree ∈ child.ancestors := fun child =>
      Cursor.root_mem_ancestors_of_mem_children hc
    rw [Cursor.preorder_eq]
    apply List.pairwise_cons.mpr
    constructor
    · intro d hd
      apply (hbelow hc d _).1
      rw [Cursor.preorder_eq]
      apply List.mem_cons_of_mem _ hd
    · apply List.pairwise_flatMap.mpr
      use fun child hchild => ih child hchild (hin child hchild)
      have hordered := h.ordered c (Cursor.mem_preorder_iff.mpr hc)
      apply hordered.imp_of_mem
      intro a b ha hb hle d hd e he
      -- what lies below the left sibling ends before the right one starts
      calc d.start
        _ ≤ d.stop := (h.stop_le_length
            (Cursor.mem_ancestors_trans (Cursor.mem_preorder_iff.mp hd) (hin a ha))).1
        _ ≤ a.stop := (hbelow (hin a ha) d hd).2
        _ ≤ b.start := hle
        _ ≤ e.start := (hbelow (hin b hb) e he).1

namespace Analysis

variable {source : Bytes} {tree : Tree} {typeContexts : List NodeType} {options : RuleOptions}
  {a : Analysis}

/-- What an analysis offers comes in the order in which the nodes that declare it are visited. -/
theorem offered_sublist (h : ofTree source tree typeContexts options = .ok a) :
  a.registry.offered.Sublist ((Cursor.root tree).visited.map some)
  := by
  obtain ⟨r, hr, h⟩ := exists_ok_of_bind h
  have hdeclared : r.offered.Sublist
      (((tree.declared source typeContexts).filter (·.isCandidate)).map (·.declaration)) :=
    Registry.offered_declareAll_sublist (r := {}) hr
  have hsame : a.registry.offered = r.offered := by
    cases h
    have hfresh : ∀ ref ∈ tree.collected source typeContexts, Attribution.Fresh ref :=
      fresh_of_mem_collected
    apply Registry.offered_of_map (Attribution.bindings_run ⟨r, []⟩ hfresh)
    all_goals
      intro b
      rw [Binding.tally_eq]
  rw [hsame]
  apply hdeclared.trans (tree.declaration_candidates_sublist source typeContexts)

/-- The bindings that are reported have declarators of their own, which follow each other in
pre-order. -/
theorem exists_declarators_of_reportable (h : ofTree source tree typeContexts options = .ok a)
    {reported : List Binding} (hreported : a.registry.reportable options a.scopes = .ok reported) :
  ∃ declarators : List Cursor, reported.map (·.declaration) = declarators.map some
    ∧ (∀ declarator ∈ declarators, declarator.category = .declarator)
    ∧ declarators.Sublist (Cursor.root tree).preorder ∧ declarators.Nodup
  := by
  obtain ⟨declarators, hsublist, hdeclarations⟩ := List.sublist_map_iff.mp
    ((Registry.declaration_reportable_sublist hreported).trans (offered_sublist h))
  use declarators, hdeclarations
  refine ⟨?_, hsublist.trans (Cursor.visited_root_sublist tree),
    (Cursor.nodup_visited_root tree).sublist hsublist⟩
  intro declarator hdeclarator
  have hmem : some declarator ∈ reported.map (·.declaration) := by
    rw [hdeclarations]
    apply List.mem_map_of_mem hdeclarator
  obtain ⟨b, hb, hdeclaration⟩ := List.mem_map.mp hmem
  obtain ⟨hregistered, -, read, -, hpasses⟩ := Registry.passes_of_mem_reportable hreported hb
  obtain ⟨horigin, -, place, -, hplaces, -⟩ :=
    declaration_of_passes h hregistered hpasses.rejection hpasses.redeclared hpasses.malformed
  obtain rfl : declarator = place :=
    Option.some.inj (hdeclaration.symm.trans hplaces.declaration)
  apply (hplaces.initializer horigin).1

end Analysis

/-- The findings in a source are made from the bindings that are reported, one from each, in the
pre-order of their declarators; a declarator has one finding at most. -/
theorem Rule.check_ordered {rule : Rule} (hoptions : rule.options.problem? = none)
    {source : Bytes} {path language : Option String} {chosen : Language} {parsed : Parsed}
    (hread : rule.read source path language = .ok (chosen, parsed))
    (htree : parsed.tree.WellFormed source) :
  ∃ (a : Analysis) (reported : List Binding) (declarators : List Cursor),
    Analysis.ofTree source parsed.tree chosen.typeContexts rule.options = .ok a
      ∧ a.registry.reportable rule.options a.scopes = .ok reported
      ∧ rule.check source path language = .ok (reported.map (Finding.ofBinding · source path))
      ∧ (reported.map (·.key)).Nodup
      ∧ reported.map (·.declaration) = declarators.map some
      ∧ (∀ declarator ∈ declarators, declarator.category = .declarator)
      ∧ declarators.Sublist (Cursor.root parsed.tree).preorder ∧ declarators.Nodup
      ∧ declarators.Pairwise fun c d => c.start ≤ d.start
  := by
  obtain ⟨a, ha⟩ := Analysis.exists_ofTree hoptions source parsed.tree chosen.typeContexts
  obtain ⟨reported, hreported⟩ := Analysis.exists_reportable ha
  obtain ⟨declarators, hdeclarations, hcategory, hsublist, hnodup⟩ :=
    Analysis.exists_declarators_of_reportable ha hreported
  have hkeys : (reported.map (·.key)).Nodup := by
    rw [Registry.reportable_inv hreported]
    apply List.Nodup.sublist (List.filter_sublist.map _) (Analysis.nodup_keys ha).1
  use a, reported, declarators, ha, hreported
  refine ⟨?_, hkeys, hdeclarations, hcategory, hsublist, hnodup,
    htree.pairwise_start.sublist hsublist⟩
  rw [check_eq_read, hread]
  simp [bind, Except.bind, pure, Except.pure, ha, hreported]

namespace Rule

/-- The source `var a = f(() => \x7b const b = g(); h(b); \x7d); k(a);`. -/
def declaredWithin : Bytes × Tree where
  fst := Utf8.encode "var a = f(() => \x7b const b = g(); h(b); \x7d); k(a);"
  snd :=
    .named .program 0 48 none
      [.named .variableDeclaration 0 42 none
        [.named .variableDeclarator 4 41 none
          [.named .identifier 4 5 (some .name) [],
          .named .callExpression 8 41 (some .value)
            [.named .identifier 8 9 (some .function) [],
            .named .arguments 9 41 (some .arguments)
              [.named .arrowFunction 10 40 none
                [.named .formalParameters 10 12 (some .parameters) [],
                .named .statementBlock 16 40 (some .body)
                  [.named .lexicalDeclaration 18 32 none
                    [.named .variableDeclarator 24 31 none
                      [.named .identifier 24 25 (some .name) [],
                      .named .callExpression 28 31 (some .value)
                        [.named .identifier 28 29 (some .function) [],
                        .named .arguments 29 31 (some .arguments) []]]],
                  .named .expressionStatement 33 38 none
                    [.named .callExpression 33 37 none
                      [.named .identifier 33 34 (some .function) [],
                      .named .arguments 34 37 (some .arguments)
                        [.named .identifier 35 36 none []]]]]]]]]],
      .named .expressionStatement 43 48 none
        [.named .callExpression 43 47 none
          [.named .identifier 43 44 (some .function) [],
          .named .arguments 44 47 (some .arguments) [.named .identifier 45 46 none []]]]]

/-- A rule that reads every source as that one. -/
def readingDeclaredWithin : Rule where
  host := { tree? := fun _ _ => some ⟨declaredWithin.2, false⟩ }

/-- The variable whose declarator stands within that of another one is found after it, although it
is read first. -/
theorem check_ordered_declaredWithin :
  ∃ (chosen : Language) (parsed : Parsed) (findings : List Finding) (a : Analysis)
      (reported : List Binding) (declarators : List Cursor),
    readingDeclaredWithin.read declaredWithin.1 none none = .ok (chosen, parsed)
      ∧ parsed.tree.WellFormed declaredWithin.1
      ∧ readingDeclaredWithin.check declaredWithin.1 none none = .ok findings
      ∧ findings.map (·.name) = ["a", "b"]
      ∧ Analysis.ofTree declaredWithin.1 parsed.tree chosen.typeContexts
        readingDeclaredWithin.options = .ok a
      ∧ a.registry.reportable readingDeclaredWithin.options a.scopes = .ok reported
      ∧ findings = reported.map (Finding.ofBinding · declaredWithin.1 none)
      ∧ reported.map (·.declaration) = declarators.map some
      ∧ declarators.Sublist (Cursor.root parsed.tree).preorder
      ∧ declarators.Pairwise fun c d => c.start ≤ d.start
  := by
  have hoptions : readingDeclaredWithin.options.problem? = none := by decide +kernel
  have hread : (readingDeclaredWithin.read declaredWithin.1 none none).toOption.any fun given =>
      given.2.tree.WellFormed declaredWithin.1 := by
    decide +kernel
  have hcheck : (readingDeclaredWithin.check declaredWithin.1 none none).toOption.any
      fun findings => findings.map (·.name) = ["a", "b"] := by
    decide +kernel
  obtain ⟨⟨chosen, parsed⟩, hgiven, htree⟩ := exists_ok_of_any hread
  obtain ⟨findings, hfindings, hnames⟩ := exists_ok_of_any hcheck
  obtain ⟨a, reported, declarators, ha, hreported, hmade, -, hdeclarations, -, hsublist, -,
    hstarts⟩ := check_ordered hoptions hgiven (of_decide_eq_true htree)
  use chosen, parsed, findings, a, reported, declarators, hgiven, of_decide_eq_true htree,
    hfindings, of_decide_eq_true hnames, ha, hreported,
    Except.ok.inj (hfindings.symm.trans hmade), hdeclarations, hsublist, hstarts

end Rule

end SingleUse
