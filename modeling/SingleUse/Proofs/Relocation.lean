import SingleUse.Inline
import SingleUse.Proofs.Reporting
import SingleUse.Proofs.ScopeChain

/-!
# Moving an initializer

Inlining moves the initializer of a binding to the place of its read.  A name in the initializer
is looked up from there along another chain of scopes.  Both chains go on together from the scope
of the declaration outward, so a name keeps its meaning unless one of the scopes further in
declares it.
-/

namespace SingleUse

/-- Scopes that do not declare a name have no part in the search for it. -/
theorem Registry.lookup_append_of_notMem {r : Registry} {name : String}
    {scopes more : List (Option ScopeKey)} (h : ∀ scope ∈ scopes, ⟨name, scope⟩ ∉ r.keys) :
  r.lookup name (scopes ++ more) = r.lookup name more
  := by
  have hnone : scopes.findSome? (fun scope => r.get? ⟨name, scope⟩) = none := by
    apply List.findSome?_eq_none_iff.mpr
    intro scope hscope
    rw [← Option.not_isSome_iff_eq_none, get?_isSome]
    exact h scope hscope
  rw [lookup, List.findSome?_append, hnone]
  rfl

namespace Analysis

variable {source : Bytes} {tree : Tree} {typeContexts : List NodeType} {options : RuleOptions}
  {a : Analysis}

/-- The scopes of an analysis form a forest. -/
theorem forest_scopes (h : ofTree source tree typeContexts options = .ok a) :
  a.scopes.Forest
  := by
  rw [(ofTree_inv h).2.1]
  apply ScopeTree.forest_ofVisits

/-- From the scope of the declaration outward, the chain of a scope within it is the chain of the
declaration; no key comes before and again there. -/
theorem chain_eq_append (h : ofTree source tree typeContexts options = .ok a)
    {outer inner : Option ScopeKey} (hinside : ∀ k, outer = some k → k ∈ a.scopes.chain inner) :
  ∃ between, a.scopes.chain inner = between ++ a.scopes.chain outer
    ∧ ∀ k ∈ between, k ∉ a.scopes.chain outer
  := by
  have hforest := forest_scopes h
  have hsuffix : a.scopes.chain outer <:+ a.scopes.chain inner := by
    cases outer with
    | none => simp
    | some k => exact hforest.chain_suffix (hinside k rfl)
  obtain ⟨between, hbetween⟩ := hsuffix
  use between, hbetween.symm
  have hnodup := hforest.nodup_chain inner
  rw [← hbetween] at hnodup
  intro k hk houter
  exact (List.nodup_append.mp hnodup).2.2 k hk k houter rfl

/-- Whether nothing between a place and a reference below declares the name of the reference:
every scope that is opened there is one of its own and does not declare the name. -/
def FreeBelow (a : Analysis) (tree : Tree) (top : Cursor) (ref : Reference) : Prop :=
  ∀ place ∈ ref.node.ancestors, top ∈ place.ancestors → place.opensScope →
    place.OpensAlone tree ∧ ⟨ref.name, some (.ofNode place)⟩ ∉ a.registry.keys

/-- Whether no scope around the read that does not lie around the declaration declares a
name. -/
def FreeBetween (a : Analysis) (b : Binding) (read : Occurrence) (name : String) : Prop :=
  ∀ k ∈ a.scopes.chain read.scope, k ∉ a.scopes.chain b.lexical →
    ⟨name, some k⟩ ∉ a.registry.keys

instance (a : Analysis) (tree : Tree) (top : Cursor) (ref : Reference) :
    Decidable (a.FreeBelow tree top ref) :=
  inferInstanceAs (Decidable (∀ place ∈ ref.node.ancestors, _ → _ → _))

instance (a : Analysis) (b : Binding) (read : Occurrence) (name : String) :
    Decidable (a.FreeBetween b read name) :=
  inferInstanceAs (Decidable (∀ k ∈ a.scopes.chain read.scope, _ → _))

/-- A name in an initializer is looked up in the scopes that are opened there and then along the
chain of the declaration. -/
theorem lookup_initializer (h : ofTree source tree typeContexts options = .ok a)
    {b : Binding} (hb : b ∈ a.registry.bindings) (horigin : b.origin = .declarator)
    {initializer : Cursor} (hinitializer : b.initializer = some initializer) {ref : Reference}
    (href : ref ∈ a.references) (hinside : initializer ∈ ref.node.ancestors)
    (hfree : a.FreeBelow tree initializer ref) :
  a.registry.lookup ref.name ((a.scopes.chain ref.scope).map some)
    = a.registry.lookup ref.name ((a.scopes.chain b.lexical).map some)
  := by
  obtain ⟨declarator, hdeclarator, hplaces⟩ := places_inv h hb
  obtain ⟨hplace, -, hoccurrence⟩ := occurrence_of_mem h href
  have hparent : initializer.parent = some declarator := by
    rw [(hplaces.initializer horigin).2] at hinitializer
    apply Cursor.parent_of_mem_children
    exact (List.mem_filter.mp (List.mem_of_mem_head? hinitializer)).1
  have hscope : ref.scope = (Surroundings.inside typeContexts ref.node).scope := by
    rw [← Visit.here_at]
    exact congrArg Occurrence.scope hoccurrence
  obtain ⟨inner, hsubset, hbelow, hchain⟩ := ScopeTree.chain_inside_append hplace hinside hparent
    fun place hplace habove hopens => (hfree place hplace habove hopens).1
  rw [hscope, hplaces.lexical, Visit.here_at, (ofTree_inv h).2.1, hchain, List.map_append]
  apply Registry.lookup_append_of_notMem
  intro scope hscope
  obtain ⟨k, hk, rfl⟩ := List.mem_map.mp hscope
  obtain ⟨place, hplace, rfl⟩ := List.mem_map.mp hk
  obtain ⟨hplace, hopens⟩ := List.mem_filter.mp hplace
  exact (hfree place (hsubset hplace) (hbelow place hplace) hopens).2

/-- At the read a name is looked up in the scopes between and then along the chain of the
declaration. -/
theorem lookup_read (h : ofTree source tree typeContexts options = .ok a) {b : Binding}
    {read : Occurrence} (hinside : ∀ k, b.lexical = some k → k ∈ a.scopes.chain read.scope)
    {name : String} (hfree : a.FreeBetween b read name) :
  a.registry.lookup name ((a.scopes.chain read.scope).map some)
    = a.registry.lookup name ((a.scopes.chain b.lexical).map some)
  := by
  obtain ⟨between, hchain, hnew⟩ := chain_eq_append h hinside
  rw [hchain, List.map_append]
  apply Registry.lookup_append_of_notMem
  intro scope hscope
  obtain ⟨k, hk, rfl⟩ := List.mem_map.mp hscope
  apply hfree k _ (hnew k hk)
  rw [hchain]
  apply List.mem_append_left _ hk

/-- A name in the initializer of a reported binding refers to the same at the place of the read,
unless it is declared in the initializer around the name, or between the declaration and the
read. -/
theorem lookup_read_eq_lookup_initializer (h : ofTree source tree typeContexts options = .ok a)
    {reported : List Binding} (hreported : a.registry.reportable options a.scopes = .ok reported)
    {b : Binding} (hb : b ∈ reported) {read : Occurrence} (hread : b.lastRead = some read)
    {initializer : Cursor} (hinitializer : b.initializer = some initializer)
    {ref : Reference} (href : ref ∈ a.references) (hinside : initializer ∈ ref.node.ancestors)
    (hbelow : a.FreeBelow tree initializer ref) (hbetween : a.FreeBetween b read ref.name) :
  a.registry.lookup ref.name ((a.scopes.chain read.scope).map some)
    = a.registry.lookup ref.name ((a.scopes.chain ref.scope).map some)
  := by
  obtain ⟨hmem, -, read', hread', hpasses⟩ := Registry.passes_of_mem_reportable hreported hb
  obtain rfl : read = read' := Option.some.inj (hread.symm.trans hread')
  obtain ⟨horigin, -⟩ :=
    declaration_of_passes h hmem hpasses.rejection hpasses.redeclared hpasses.malformed
  calc a.registry.lookup ref.name ((a.scopes.chain read.scope).map some)
      = a.registry.lookup ref.name ((a.scopes.chain b.lexical).map some) :=
        lookup_read h (fun _ => hpasses.mem_chain) hbetween
    _ = a.registry.lookup ref.name ((a.scopes.chain ref.scope).map some) :=
        (lookup_initializer h hmem horigin hinitializer href hinside hbelow).symm

/-! ### Names that are captured -/

/-- The source
```
const z = 2;
const a = f(x => [x, z], y);
{ const y = 1; g(a, y, y, z); }
```
-/
def captured : Bytes × Tree where
  fst := Utf8.encode
    "const z = 2;\nconst a = f(x => [x, z], y);\n\x7b const y = 1; g(a, y, y, z); \x7d\n"
  snd :=
    .named .program 0 74 none
      [.named .lexicalDeclaration 0 12 none
        [.named .variableDeclarator 6 11 none
          [.named .identifier 6 7 (some .name) [], .named .number 10 11 (some .value) []]],
      .named .lexicalDeclaration 13 41 none
        [.named .variableDeclarator 19 40 none
          [.named .identifier 19 20 (some .name) [],
          .named .callExpression 23 40 (some .value)
            [.named .identifier 23 24 (some .function) [],
            .named .arguments 24 40 (some .arguments)
              [.named .arrowFunction 25 36 none
                [.named .identifier 25 26 (some .parameter) [],
                .named .array 30 36 (some .body)
                  [.named .identifier 31 32 none [], .named .identifier 34 35 none []]],
              .named .identifier 38 39 none []]]]],
      .named .statementBlock 42 73 none
        [.named .lexicalDeclaration 44 56 none
          [.named .variableDeclarator 50 55 none
            [.named .identifier 50 51 (some .name) [], .named .number 54 55 (some .value) []]],
        .named .expressionStatement 57 71 none
          [.named .callExpression 57 70 none
            [.named .identifier 57 58 (some .function) [],
            .named .arguments 58 70 (some .arguments)
              [.named .identifier 59 60 none [], .named .identifier 62 63 none [],
              .named .identifier 65 66 none [], .named .identifier 68 69 none []]]]]]

/-- The name `z` is declared outside of both, and it is the same at the read, although a function
is opened around it in the initializer and a block around the read. -/
theorem lookup_read_eq_lookup_initializer_captured :
  ∃ a reported b read initializer ref, ofTree captured.1 captured.2 [] {} = .ok a
    ∧ a.registry.reportable {} a.scopes = .ok reported ∧ b ∈ reported ∧ b.lastRead = some read
    ∧ b.initializer = some initializer ∧ ref ∈ a.references ∧ ref.name = "z"
    ∧ initializer ∈ ref.node.ancestors ∧ a.FreeBelow captured.2 initializer ref
    ∧ a.FreeBetween b read ref.name
    ∧ a.registry.lookup ref.name ((a.scopes.chain read.scope).map some)
      = a.registry.lookup ref.name ((a.scopes.chain ref.scope).map some)
  := by
  have hany : (ofTree captured.1 captured.2 [] {}).toOption.any fun a =>
      (a.registry.reportable {} a.scopes).toOption.any fun reported =>
        reported.any fun b => b.lastRead.any fun read => b.initializer.any fun initializer =>
          a.references.any fun ref => ref.name = "z" ∧ initializer ∈ ref.node.ancestors
            ∧ a.FreeBelow captured.2 initializer ref ∧ a.FreeBetween b read ref.name := by
    decide +kernel
  obtain ⟨a, ha, hany⟩ := exists_ok_of_any hany
  obtain ⟨reported, hreported, hany⟩ := exists_ok_of_any hany
  obtain ⟨b, hb, hany⟩ := List.any_eq_true.mp hany
  obtain ⟨read, hread, hany⟩ := (Option.any_eq_true _ _).mp hany
  obtain ⟨initializer, hinitializer, hany⟩ := (Option.any_eq_true _ _).mp hany
  obtain ⟨ref, href, hany⟩ := List.any_eq_true.mp hany
  obtain ⟨hname, hinside, hbelow, hbetween⟩ := of_decide_eq_true hany
  use a, reported, b, read, initializer, ref, ha, hreported, hb, hread, hinitializer, href, hname,
    hinside, hbelow, hbetween
  apply lookup_read_eq_lookup_initializer ha hreported hb hread hinitializer href hinside hbelow
    hbetween

/-- The names `x`, which the initializer declares itself, and `y`, which the block declares, are
not the same at the read; yet the binding is inlined. -/
theorem lookup_read_ne_lookup_initializer :
  ∃ a reported b fix read initializer, ofTree captured.1 captured.2 [] {} = .ok a
    ∧ a.registry.reportable {} a.scopes = .ok reported ∧ b ∈ reported
    ∧ b.inline captured.1 = .ok fix ∧ b.lastRead = some read ∧ b.initializer = some initializer
    ∧ ∀ name ∈ ["x", "y"], ∃ ref ∈ a.references, ref.name = name ∧ ref.role.counts
      ∧ initializer.start ≤ ref.node.start ∧ ref.node.stop ≤ initializer.stop
      ∧ a.registry.lookup ref.name ((a.scopes.chain read.scope).map some)
        ≠ a.registry.lookup ref.name ((a.scopes.chain ref.scope).map some)
  := by
  have hany : (ofTree captured.1 captured.2 [] {}).toOption.any fun a =>
      (a.registry.reportable {} a.scopes).toOption.any fun reported =>
        reported.any fun b => (b.inline captured.1).toOption.any fun _ =>
          b.lastRead.any fun read => b.initializer.any fun initializer =>
            ["x", "y"].all fun name => a.references.any fun ref =>
              ref.name = name ∧ ref.role.counts
                ∧ initializer.start ≤ ref.node.start ∧ ref.node.stop ≤ initializer.stop
                ∧ (a.registry.lookup ref.name ((a.scopes.chain read.scope).map some)).map (·.key)
                  ≠ (a.registry.lookup ref.name ((a.scopes.chain ref.scope).map some)).map
                    (·.key) := by
    decide +kernel
  obtain ⟨a, ha, hany⟩ := exists_ok_of_any hany
  obtain ⟨reported, hreported, hany⟩ := exists_ok_of_any hany
  obtain ⟨b, hb, hany⟩ := List.any_eq_true.mp hany
  obtain ⟨fix, hfix, hany⟩ := exists_ok_of_any hany
  obtain ⟨read, hread, hany⟩ := (Option.any_eq_true _ _).mp hany
  obtain ⟨initializer, hinitializer, hall⟩ := (Option.any_eq_true _ _).mp hany
  use a, reported, b, fix, read, initializer, ha, hreported, hb, hfix, hread, hinitializer
  intro name hname
  obtain ⟨ref, href, hany⟩ := List.any_eq_true.mp (List.all_eq_true.mp hall name hname)
  obtain ⟨hname, hcounts, hstart, hstop, hne⟩ := of_decide_eq_true hany
  exact ⟨ref, href, hname, hcounts, hstart, hstop, fun heq => hne (congrArg _ heq)⟩

end Analysis

end SingleUse
