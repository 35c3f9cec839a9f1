import SingleUse.Proofs.Completion
import SingleUse.Proofs.Fitting
import SingleUse.Proofs.Forests
import SingleUse.Proofs.Relocation
import SingleUse.Rule

/-!
# Totality

A check takes steps that could break off: a name is hoisted along scopes that must be open, a
declarator is searched for among those of its statement, and what is reported is asked for its
read, its declaration and its name.  None of them does.  The scopes around a visited place were
opened by the visits before, and a reported binding was declared by a declarator that stands in
its statement.  So the only way in which inlining fails is to be refused.
-/

namespace SingleUse

/-! ### The names of an import -/

/-- With a step for each node still to be looked at, all names that an import binds are found: more
steps find no more. -/
theorem importedNames_congr {n : Nat} :
  ∀ {m : Nat} {pending : List Cursor}, (pending.map (·.focus.size)).sum ≤ n →
    (pending.map (·.focus.size)).sum ≤ m → importedNames n pending = importedNames m pending
  := by
  induction n with
  | zero =>
    intro m pending hn hm
    cases pending with
    | nil => cases m <;> rfl
    | cons current rest =>
      have hpos := current.sum_size_children
      simp only [List.map_cons, List.sum_cons] at hn
      omega
  | succ n ih =>
    intro m pending hn hm
    cases pending with
    | nil => cases m <;> rfl
    | cons current rest =>
      have hpos := current.sum_size_children
      simp only [List.map_cons, List.sum_cons] at hn hm
      obtain ⟨m, rfl⟩ : ∃ m', m = m' + 1 := ⟨m - 1, by omega⟩
      have hbelow : ∀ others : List Cursor, others.Sublist current.namedChildren →
          importedNames n (others.reverse ++ rest) = importedNames m (others.reverse ++ rest) := by
        intro others hothers
        have hsublist := hothers.trans List.filter_sublist
        have hle := (hsublist.map (·.focus.size)).sum_le_sum fun _ _ => Nat.zero_le _
        apply ih
        all_goals
          rw [List.map_append, List.sum_append, List.map_reverse, List.sum_reverse]
          omega
      have hrest := hbelow [] (List.nil_sublist _)
      rw [importedNames, importedNames]
      split
      · exact congrArg _ hrest
      · simp only [List.partition_eq_filter_filter]
        rw [hbelow _ List.filter_sublist]

/-- The number of nodes of an import statement bounds the steps that are needed to find its
names. -/
theorem Cursor.importedNames_eq (c : Cursor) {n : Nat} (hn : c.focus.size ≤ n) :
  importedNames n c.namedChildren.reverse = c.imports
  := by
  have hnamed : (c.namedChildren.reverse.map (·.focus.size)).sum ≤ c.focus.size := by
    have hsublist : c.namedChildren.Sublist c.children := List.filter_sublist
    have hle := (hsublist.map (·.focus.size)).sum_le_sum fun _ _ => Nat.zero_le _
    have hsize := c.sum_size_children
    rw [List.map_reverse, List.sum_reverse]
    omega
  apply importedNames_congr _ hnamed
  omega

/-! ### Inlining what is reported -/

/-- A declarator is found among those of the statement that it stands in. -/
theorem Cursor.exists_removeDeclarator {declarator statement : Cursor} (source : Bytes)
    (hparent : declarator.parent = some statement) (hcategory : declarator.category = .declarator) :
  ∃ removal, declarator.removeDeclarator statement source = some removal
  := by
  have hmem := mem_declarators hparent hcategory
  rw [declarators] at hmem
  simp only [removeDeclarator]
  generalize (statement.namedChildren.filter fun child => child.type = .variableDeclarator)
    = declarators at hmem
  split
  · exact ⟨_, rfl⟩
  · rename_i hlength
    have hpos := List.length_pos_of_mem hmem
    split
    · rename_i hnone
      have hother := List.findIdx?_eq_none_iff.mp hnone declarator hmem
      simp [sameNode] at hother
    · have hnext : 1 < declarators.length := by omega
      exact ⟨_, by rw [List.getElem?_eq_getElem hnext, Option.map_some]⟩
    · rename_i index hindex
      obtain ⟨hlt, -⟩ := List.findIdx?_eq_some_iff_getElem.mp hindex
      have hprevious : index < declarators.length := by omega
      exact ⟨_, by rw [List.getElem?_eq_getElem hprevious, Option.map_some]⟩

/-- What inlining a binding takes: its single read, its declarator and the name there, a removal
that is found, and a value to access if it is declared by a pattern.  With these a finding is made,
and inlining has an answer, which is a fix or a refusal. -/
structure Binding.Inlines (b : Binding) (source : Bytes) (read : Occurrence)
    (declarator name : Cursor) : Prop where
  once : b.useCount = 1 ∧ b.lastRead = some read
  declaration : b.declaration = some declarator
  target : b.target = some name
  /-- If there is a reason not to inline, that is the answer. -/
  refused : ∀ refusal, b.refusal? read = some refusal → b.inline source = .error refusal
  /-- Otherwise the declarator is removed and the read is substituted, unless the latter is refused
  or overlaps the former. -/
  removed : b.refusal? read = none → ∃ statement removal, declarator.parent = some statement
    ∧ declarator.removeDeclarator statement source = some removal
    ∧ (b.shape ≠ .simple → b.initializer.isSome)
    ∧ b.inline source = do
      let substitution ← b.substitution read source
      if removal.range.overlaps substitution.range then throw .insideDeclaration
      return ⟨b.name, [removal, substitution]⟩
  /-- The finding points at the name, and its fingerprint tells of the declarator. -/
  finding : ∀ path, Finding.ofBinding b source path = {
    name := b.name
    path
    start := .ofOffset source name.start
    stop := .ofOffset source name.stop
    fix := (b.inline source).toOption
    fingerprint := Finding.identify path b.name (declarator.text source) }

/-- What is not refused at the start stands in a variable statement, and has a value if it is
declared by a pattern. -/
theorem Binding.refusal?_eq_none_inv {b : Binding} {read : Occurrence}
    (h : b.refusal? read = none) :
  (∃ statement, b.statement = some statement) ∧ (b.shape ≠ .simple → b.initializer.isSome)
  := by
  simp only [refusal?, ite_some_eq_none] at h
  obtain ⟨-, -, hstatement, -, -, -, -, -, -, -, hvalue, -⟩ := h
  constructor
  · cases hcase : b.statement with
    | none => simp [hcase] at hstatement
    | some statement => exact ⟨statement, rfl⟩
  · intro hshape
    cases hcase : b.initializer with
    | none => simp [hcase, hshape] at hvalue
    | some initializer => rfl

namespace Analysis

variable {source : Bytes} {tree : Tree} {typeContexts : List NodeType} {options : RuleOptions}
  {a : Analysis}

/-- A reported binding has all that inlining takes. -/
theorem inlines_of_reportable (h : ofTree source tree typeContexts options = .ok a)
    {reported : List Binding} (hreported : a.registry.reportable options a.scopes = .ok reported)
    {b : Binding} (hb : b ∈ reported) :
  ∃ read declarator name, b.Inlines source read declarator name
  := by
  obtain ⟨hmem, huse, read, hread, hpasses⟩ := Registry.passes_of_mem_reportable hreported hb
  obtain ⟨-, -, declarator, -, hplaces, -⟩ :=
    declaration_of_passes h hmem hpasses.rejection hpasses.redeclared hpasses.malformed
  obtain ⟨name, htarget, -⟩ := hplaces.target
  have hdeclaration : b.declaration = some declarator := hplaces.declaration
  use read, declarator, name
  constructor
  · exact ⟨huse, hread⟩
  · exact hdeclaration
  · exact htarget
  · intro refusal hrefusal
    simp only [Binding.inline, hread, hrefusal]
    rfl
  · intro hrefusal
    obtain ⟨⟨statement, hstatement⟩, hvalue⟩ := Binding.refusal?_eq_none_inv hrefusal
    obtain ⟨declarator', hdeclaration', hparent, hcategory, -⟩ := statement_inv h hmem hstatement
    obtain rfl : declarator = declarator' := Option.some.inj (hdeclaration.symm.trans hdeclaration')
    obtain ⟨removal, hremoval⟩ := Cursor.exists_removeDeclarator source hparent hcategory
    use statement, removal, hparent, hremoval, hvalue
    simp only [Binding.inline, hread, hrefusal, hdeclaration, hstatement, hremoval]
  · intro path
    simp [Finding.ofBinding, Binding.position, htarget, hdeclaration]

/-- With sound options every source and every tree can be checked to the end: chains of scopes come
to an end, hoisting finds its scope at every visit, all names of imports are found, it can be told
of each binding whether it is reported, and a reported one has all that inlining takes. -/
theorem exists_findings (hoptions : options.problem? = none) (source : Bytes) (tree : Tree)
    (typeContexts : List NodeType) :
  ∃ a reported, ofTree source tree typeContexts options = .ok a
    ∧ a.registry.reportable options a.scopes = .ok reported
    ∧ (∀ key, a.scopes.chain (some key) = key :: a.scopes.chain (a.scopes.parent key))
    ∧ (∀ before visit after, tree.traverse typeContexts = before ++ visit :: after →
      (ScopeTree.ofVisits source (before ++ [visit])).functionScope? visit.here.scope
          = some (a.scopes.functionScope visit.here.scope)
        ∧ ∀ n, visit.node.focus.size ≤ n →
          importedNames n visit.node.namedChildren.reverse = visit.node.imports)
    ∧ ∀ b ∈ reported, ∃ read declarator name, b.Inlines source read declarator name
  := by
  obtain ⟨a, ha⟩ := exists_ofTree hoptions source tree typeContexts
  obtain ⟨reported, hreported⟩ := exists_reportable ha
  have hforest := forest_scopes ha
  use a, reported, ha, hreported, hforest.chain_some
  constructor
  · intro before visit after hvisits
    constructor
    · apply hforest.functionScope?_of_isPrefix
      · rw [(ofTree_inv ha).2.1, hvisits, List.append_cons before visit after]
        apply ScopeTree.scopes_ofVisits_isPrefix
      · intro key hkey
        apply ScopeTree.mem_keys_ofVisits hvisits hkey
    · intro n hn
      apply visit.node.importedNames_eq hn
  · intro b hb
    apply inlines_of_reportable ha hreported hb

/-- The source `var a = 1; f(a`, and a tree of it that goes on beyond its end, with a name that the
parser made up there. -/
def cutShort : Bytes × Tree where
  fst := Utf8.encode "var a = 1; f(a"
  snd :=
    .named .program 0 99 none
      [.named .variableDeclaration 0 10 none
        [.named .variableDeclarator 4 9 none
          [.named .identifier 4 5 (some .name) [], .named .number 8 9 (some .value) []]],
      .named .expressionStatement 11 99 none
        [.named .callExpression 11 99 none
          [.named .identifier 11 12 (some .function) [],
          .named .arguments 12 99 (some .arguments)
            [.named .identifier 13 14 none [],
            .node ⟨.identifier, 98, 99, true, true, none⟩ []]]]]

/-- The variable is hoisted and reported, and has all that inlining takes. -/
theorem exists_findings_cutShort :
  ∃ a reported, ofTree cutShort.1 cutShort.2 [] {} = .ok a
    ∧ a.registry.reportable {} a.scopes = .ok reported ∧ reported ≠ []
    ∧ ∀ b ∈ reported, ∃ read declarator name, b.Inlines cutShort.1 read declarator name
  := by
  have hoptions : ({} : RuleOptions).problem? = none := by decide +kernel
  obtain ⟨a, reported, ha, hreported, -, -, hinlines⟩ :=
    exists_findings hoptions cutShort.1 cutShort.2 []
  have hany : (ofTree cutShort.1 cutShort.2 [] {}).toOption.any fun a =>
      (a.registry.reportable {} a.scopes).toOption.any fun reported => !reported.isEmpty := by
    decide +kernel
  rw [ha] at hany
  simp only [Except.toOption, Option.any_some, hreported] at hany
  use a, reported, ha, hreported
  constructor
  · simpa using hany
  · exact hinlines

end Analysis

end SingleUse
