import SingleUse.Proofs.Attribution
import SingleUse.Proofs.Sweep
import SingleUse.Proofs.WellFormed

/-!
# Edits that fit

The two edits that inline a binding of a well-formed tree fit the source and keep apart.  The
removal of a statement takes in the statement, and to the left of it blanks only.
-/

namespace SingleUse

/-! ### Lines -/

/-- A line starts at or before each of its offsets. -/
theorem lineStart_le (source : Bytes) (offset : Nat) :
  lineStart source offset ≤ offset
  := by
  rw [lineStart]
  have hlength := List.length_take_le offset source
  omega

/-- A line ends at or after each of its offsets, and in the source. -/
theorem lineEnd_bounds {source : Bytes} {offset : Nat} (h : offset ≤ source.length) :
  offset ≤ lineEnd source offset ∧ lineEnd source offset ≤ source.length
  := by
  rw [lineEnd]
  split
  · rename_i index hindex
    obtain ⟨hlt, -⟩ := List.findIdx?_eq_some_iff_getElem.mp hindex
    rw [List.length_drop] at hlt
    omega
  · exact ⟨h, Nat.le_refl _⟩

theorem Edit.fits_mk {source : Bytes} {start stop : Nat} (hproper : start < stop)
    (hstop : stop ≤ source.length) (text : String) :
  (Edit.mk (Span.mk start stop) text).Fits source
  := ⟨Int.natCast_nonneg _, Int.ofNat_lt.mpr hproper, Int.ofNat_le.mpr hstop⟩

/-! ### Removals -/

/-- The removal of a span takes in the span, blanks to the left of it, and bytes to the right. -/
theorem removeLines_spec {source : Bytes} {span : Span} (hstop : span.stop ≤ source.length)
    (replacement : String) :
  ∃ start stop : Nat, removeLines source span replacement = ⟨Span.mk start stop, replacement⟩
    ∧ start ≤ span.start ∧ span.stop ≤ stop ∧ stop ≤ source.length
    ∧ (source.slice start span.start).all isBlankByte
  := by
  obtain ⟨hend, hend'⟩ := lineEnd_bounds hstop
  simp only [removeLines]
  split
  · rename_i hblank
    rw [Bool.and_eq_true] at hblank
    refine ⟨_, _, rfl, lineStart_le _ _, ?_, ?_, hblank.1⟩ <;> omega
  · have hlength := (List.takeWhile_sublist (fun byte => byte == 0x20 || byte == 0x09)
      (l := source.slice span.stop (lineEnd source span.stop))).length_le
    rw [Bytes.slice, List.length_take, List.length_drop] at hlength
    refine ⟨_, _, rfl, Nat.le_refl _, ?_, ?_, ?_⟩
    · omega
    · rw [Bytes.slice]
      omega
    · simp [Bytes.slice]

/-- The removal of a statement. -/
theorem Cursor.removeStatement_spec {source : Bytes} {c : Cursor} (hstop : c.stop ≤ source.length)
    (hlist : c.parent.any (fun parent => hasSingleBody parent.type) = false) :
  ∃ start stop : Nat, c.removeStatement source
      = ⟨Span.mk start stop, if c.joinsNeighbours source then ";" else ""⟩
    ∧ start ≤ c.start ∧ c.stop ≤ stop ∧ stop ≤ source.length
    ∧ (source.slice start c.start).all isBlankByte
  := by
  rw [removeStatement, hlist]
  exact removeLines_spec hstop _

theorem Cursor.fits_removeStatement {source : Bytes} {c : Cursor} (hproper : c.start < c.stop)
    (hstop : c.stop ≤ source.length) :
  (c.removeStatement source).Fits source
  := by
  cases hlist : c.parent.any fun parent => hasSingleBody parent.type with
  | false =>
    obtain ⟨start, stop, hremove, hstart, hstop, hlength, -⟩ := c.removeStatement_spec hstop hlist
    rw [hremove]
    apply Edit.fits_mk _ hlength
    omega
  | true =>
    rw [removeStatement, hlist]
    exact Edit.fits_mk hproper hstop _

/-- The removal of a statement takes in the statement. -/
theorem Cursor.span_removeStatement {source : Bytes} {c : Cursor} (hstop : c.stop ≤ source.length) :
  (c.removeStatement source).range.start ≤ c.start ∧ c.stop ≤ (c.removeStatement source).range.stop
  := by
  cases hlist : c.parent.any fun parent => hasSingleBody parent.type with
  | false =>
    obtain ⟨start, stop, hremove, hstart, hstop, -⟩ := c.removeStatement_spec hstop hlist
    rw [hremove]
    simp only [Span.range]
    omega
  | true =>
    rw [removeStatement, hlist]
    exact ⟨Int.le_refl _, Int.le_refl _⟩

theorem Cursor.span_eq_of_sameNode {c other : Cursor} (h : c.sameNode other) :
  c.start = other.start ∧ c.stop = other.stop
  := by
  simp only [sameNode, Bool.and_eq_true, beq_iff_eq] at h
  exact h.1

/-- The declarators of a statement. -/
def Cursor.declarators (statement : Cursor) : List Cursor :=
  statement.namedChildren.filter fun child => child.type = .variableDeclarator

theorem Cursor.declarators_sublist (statement : Cursor) :
  statement.declarators.Sublist statement.children
  := List.filter_sublist.trans List.filter_sublist

theorem Category.type_of_declarator {type : NodeType} (h : ofType type = declarator) :
  type = .variableDeclarator
  := by
  cases type with
  | variableDeclarator => rfl
  | _ => cases h

/-- Declarators are named nodes of one type. -/
theorem Cursor.type_of_declarator {c : Cursor} (h : c.category = .declarator) :
  c.named ∧ c.type = .variableDeclarator
  := by
  unfold category Category.ofLabel at h
  split at h
  · cases h
  · split at h
    · rename_i hnamed
      exact ⟨hnamed, Category.type_of_declarator h⟩
    · cases h

/-- A declarator is one of those of the statement that it stands in. -/
theorem Cursor.mem_declarators {declarator statement : Cursor}
    (hparent : declarator.parent = some statement) (hcategory : declarator.category = .declarator) :
  declarator ∈ statement.declarators
  := by
  obtain ⟨hnamed, htype⟩ := type_of_declarator hcategory
  simp [declarators, namedChildren, mem_children_of_parent hparent, hnamed, htype]

/-- The only declarator of a statement is removed with the statement, the first one of several up to
the next one, and any other one from the end of the one before it. -/
theorem Cursor.removeDeclarator_eq {declarator statement : Cursor} (source : Bytes)
    (hproper : declarator.start < declarator.stop) {left right : List Cursor}
    (hsplit : statement.declarators = left ++ declarator :: right)
    (hleft : ∀ other ∈ left, other.stop ≤ declarator.start) :
  declarator.removeDeclarator statement source
    = match left.getLast?, right.head? with
      | none, none => some (statement.removeStatement source)
      | none, some next => some ⟨Span.mk declarator.start next.start, ""⟩
      | some previous, _ => some ⟨Span.mk previous.stop declarator.stop, ""⟩
  := by
  have hself : declarator.sameNode declarator := by simp [sameNode]
  -- none of those before it has its bytes, so the declarator is found where it stands
  have hdifferent : ∀ other ∈ left, other.sameNode declarator = false := by
    intro other hother
    by_contra hsame
    obtain ⟨hstart, hstop⟩ := span_eq_of_sameNode (Bool.not_eq_false _ ▸ hsame)
    have hle := hleft other hother
    omega
  have hindex : (left ++ declarator :: right).findIdx? (·.sameNode declarator)
      = some left.length := by
    rw [List.findIdx?_append, List.findIdx?_eq_none_iff.mpr hdifferent, List.findIdx?_cons, hself]
    simp
  rw [declarators] at hsplit
  simp only [removeDeclarator, hsplit, hindex]
  rcases List.eq_nil_or_concat' left with rfl | ⟨front, previous, rfl⟩
  · cases right with
    | nil => rfl
    | cons next rest => simp
  · have hlength : (front ++ [previous] ++ declarator :: right).length ≠ 1 := by
      simp
      omega
    rw [if_neg hlength]
    simp

/-- The removal of a declarator fits the source, takes in the declarator, and has no byte in common
with any other declarator of the statement. -/
structure Cursor.TakesOut (declarator statement : Cursor) (source : Bytes) (removal : Edit) :
    Prop where
  fits : removal.Fits source
  start : removal.range.start ≤ declarator.start
  stop : declarator.stop ≤ removal.range.stop
  others : ∀ other ∈ statement.declarators, other ≠ declarator →
    other.stop ≤ removal.range.start ∨ removal.range.stop ≤ other.start

/-- Of siblings that follow each other the first one starts first. -/
theorem Cursor.start_le_of_ordered {next : Cursor} {rest : List Cursor}
    (h : (next :: rest).Pairwise fun a b => a.stop ≤ b.start) (hproper : next.start ≤ next.stop) :
  ∀ other ∈ next :: rest, next.start ≤ other.start
  := by
  intro other hother
  rcases List.mem_cons.mp hother with rfl | hother
  · exact Nat.le_refl _
  · exact hproper.trans (List.rel_of_pairwise_cons h hother)

/-- Of siblings that follow each other the last one stops last. -/
theorem Cursor.stop_le_of_ordered {front : List Cursor} {previous : Cursor}
    (h : (front ++ [previous]).Pairwise fun a b => a.stop ≤ b.start)
    (hproper : previous.start ≤ previous.stop) :
  ∀ other ∈ front ++ [previous], other.stop ≤ previous.stop
  := by
  intro other hother
  rcases List.mem_append.mp hother with hother | hother
  · have hlast := (List.pairwise_append.mp h).2.2 other hother previous List.mem_cons_self
    exact hlast.trans hproper
  · rw [List.mem_singleton.mp hother]

/-- The removal of a declarator of a well-formed tree takes it out of its statement. -/
theorem Cursor.takesOut_removeDeclarator {tree : Tree} {source : Bytes}
    (htree : tree.WellFormed source) {declarator statement : Cursor}
    (hin : root tree ∈ declarator.ancestors) (hparent : declarator.parent = some statement)
    (hcategory : declarator.category = .declarator) {removal : Edit}
    (h : declarator.removeDeclarator statement source = some removal) :
  declarator.TakesOut statement source removal
  := by
  have hstatement := root_mem_ancestors_of_parent hin hparent
  have hplace := mem_preorder_iff.mpr hstatement
  have hproper := htree.nonempty declarator (mem_preorder_iff.mpr hin) (.inr hcategory)
  have hlength := (htree.stop_le_length hin).2
  have hbounds : ∀ other ∈ statement.declarators,
      other.start ≤ other.stop ∧ other.stop ≤ source.length := by
    intro other hother
    apply htree.stop_le_length
    apply root_mem_ancestors_of_mem_children hstatement
    exact statement.declarators_sublist.mem hother
  have hordered := (htree.ordered statement hplace).sublist statement.declarators_sublist
  obtain ⟨left, right, hsplit⟩ := List.append_of_mem (mem_declarators hparent hcategory)
  rw [hsplit] at hordered hbounds
  obtain ⟨hleft, hright, hacross⟩ := List.pairwise_append.mp hordered
  obtain ⟨hafter, hright⟩ := List.pairwise_cons.mp hright
  have hbefore : ∀ other ∈ left, other.stop ≤ declarator.start := by
    intro other hother
    exact hacross other hother declarator List.mem_cons_self
  have hothers : ∀ other ∈ statement.declarators, other ≠ declarator →
      other ∈ left ∨ other ∈ right := by
    intro other hother hne
    rw [hsplit] at hother
    simpa [hne] using hother
  rw [removeDeclarator_eq source hproper hsplit hbefore] at h
  rcases List.eq_nil_or_concat' left with rfl | ⟨front, previous, rfl⟩
  · cases right with
    | nil =>
      obtain rfl := Option.some.inj h
      have hnested := htree.nested statement hplace declarator (mem_children_of_parent hparent)
      have hstop := (htree.stop_le_length hstatement).2
      obtain ⟨hfirst, hlast⟩ := span_removeStatement hstop
      constructor
      case fits => apply fits_removeStatement _ hstop; omega
      case start => omega
      case stop => omega
      case others =>
        intro other hother hne
        simpa using hothers other hother hne
    | cons next rest =>
      obtain rfl := Option.some.inj h
      have hnext := hafter next List.mem_cons_self
      obtain ⟨hnextProper, hnextLength⟩ := hbounds next (by simp)
      constructor
      case fits => apply Edit.fits_mk <;> omega
      case start => exact Int.le_refl _
      case stop => exact Int.ofNat_le.mpr hnext
      case others =>
        intro other hother hne
        right
        apply Int.ofNat_le.mpr
        apply start_le_of_ordered hright hnextProper
        simpa using hothers other hother hne
  · obtain rfl : (⟨Span.mk previous.stop declarator.stop, ""⟩ : Edit) = removal := by simpa using h
    have hprevious := hbefore previous (by simp)
    have hpreviousProper := (hbounds previous (by simp)).1
    constructor
    case fits => apply Edit.fits_mk _ hlength; omega
    case start => exact Int.ofNat_le.mpr hprevious
    case stop => exact Int.le_refl _
    case others =>
      intro other hother hne
      rcases hothers other hother hne with hmem | hmem
      · left
        exact Int.ofNat_le.mpr (stop_le_of_ordered hleft hpreviousProper other hmem)
      · right
        exact Int.ofNat_le.mpr (hafter other hmem)

/-! ### Fixes -/

/-- A read is replaced by some text. -/
theorem Binding.substitution_inv {b : Binding} {read : Occurrence} {source : Bytes} {e : Edit}
    (h : b.substitution read source = .ok e) :
  ∃ text, e = ⟨read.span, text⟩
  := by
  obtain ⟨replacement, -, h⟩ := exists_ok_of_bind h
  exact ⟨_, (Except.ok.inj h).symm⟩

/-- The two edits of a fix. -/
theorem Binding.inline_inv {b : Binding} {source : Bytes} {fix : Fix}
    (h : b.inline source = .ok fix) :
  ∃ read declarator statement removal text, b.lastRead = some read
    ∧ b.declaration = some declarator ∧ b.statement = some statement
    ∧ declarator.removeDeclarator statement source = some removal
    ∧ b.substitution read source = .ok ⟨read.span, text⟩
    ∧ removal.range.overlaps read.span = false
    ∧ fix = ⟨b.name, [removal, ⟨read.span, text⟩]⟩
  := by
  unfold inline at h
  cases hread : b.lastRead with
  | none => rw [hread] at h; cases h
  | some read =>
    rw [hread] at h
    cases hrefusal : b.refusal? read with
    | some refusal => simp only [hrefusal] at h; cases h
    | none =>
      cases hdeclaration : b.declaration with
      | none => simp only [hrefusal, hdeclaration] at h; cases h
      | some declarator =>
        cases hstatement : b.statement with
        | none => simp only [hrefusal, hdeclaration, hstatement] at h; cases h
        | some statement =>
          simp only [hrefusal, hdeclaration, hstatement] at h
          cases hremoval : declarator.removeDeclarator statement source with
          | none => rw [hremoval] at h; cases h
          | some removal =>
            rw [hremoval] at h
            obtain ⟨substitution, hsubstitution, h⟩ := exists_ok_of_bind h
            obtain ⟨text, rfl⟩ := substitution_inv hsubstitution
            cases hoverlaps : removal.range.overlaps read.span with
            | true => rw [hoverlaps] at h; cases h
            | false =>
              rw [hoverlaps] at h
              cases h
              exact ⟨read, declarator, statement, removal, text, rfl, rfl, rfl, hremoval,
                hsubstitution, hoverlaps, rfl⟩

/-- What takes the place of a read that is no shorthand is put there bare or in parentheses. -/
theorem Binding.replacement_of_inline {b : Binding} {source : Bytes} {fix : Fix}
    (h : b.inline source = .ok fix) {read : Occurrence} (hread : b.lastRead = some read)
    (hrole : read.role ≠ .objectPropertyShorthand) :
  ∃ removal r, b.replacement source = .ok r
    ∧ fix.edits = [removal, ⟨read.span,
        if read.node.needsParentheses r.expression r.text r.level then parenthesize r.text
        else r.text⟩]
  := by
  obtain ⟨read', -, -, removal, text, hread', -, -, -, hsubstitution, -, rfl⟩ := inline_inv h
  obtain rfl : read' = read := Option.some.inj (hread'.symm.trans hread)
  obtain ⟨r, hreplacement, hedit⟩ := exists_ok_of_bind hsubstitution
  have htext := congrArg Edit.text (Except.ok.inj hedit)
  simp only [if_neg hrole] at htext
  use removal, r, hreplacement
  rw [htext]

namespace Analysis

variable {source : Bytes} {tree : Tree} {typeContexts : List NodeType} {options : RuleOptions}
  {a : Analysis}

/-- The fixes for some bindings, where there are any. -/
def fixes (source : Bytes) (bindings : List Binding) : List Fix :=
  bindings.filterMap fun b => (b.inline source).toOption

/-- The last read of a binding is an identifier of the tree. -/
theorem lastRead_inv (h : ofTree source tree typeContexts options = .ok a) {b : Binding}
    (hb : b ∈ a.registry.bindings) {read : Occurrence} (hread : b.lastRead = some read) :
  .root tree ∈ read.node.ancestors ∧ read.node.category = .identifier
  := by
  have hlast := (tallied_of_mem h hb).lastRead
  rw [hread] at hlast
  obtain ⟨ref, href, rfl⟩ := Option.map_eq_some_iff.mp hlast.symm
  have hmem : ref ∈ a.references := (List.mem_filter.mp (List.mem_of_getLast? href)).1
  obtain ⟨hplace, hcategory, -⟩ := occurrence_of_mem h hmem
  exact ⟨Cursor.mem_ancestors_of_mem_visited hplace, hcategory⟩

/-- The statement of a binding is the one just above its declarator. -/
theorem statement_inv (h : ofTree source tree typeContexts options = .ok a) {b : Binding}
    (hb : b ∈ a.registry.bindings) {statement : Cursor} (hstatement : b.statement = some statement) :
  ∃ declarator, b.declaration = some declarator ∧ declarator.parent = some statement
    ∧ declarator.category = .declarator ∧ .root tree ∈ declarator.ancestors
  := by
  obtain ⟨declarator, hdeclarator, hplaces⟩ := places_inv h hb
  have horigin : b.origin = .declarator := by
    by_contra hne
    simp [Binding.statement, hne] at hstatement
  use declarator, hplaces.declaration
  refine ⟨?_, (hplaces.initializer horigin).1, Cursor.mem_ancestors_of_mem_visited hdeclarator⟩
  simpa [Binding.statement, horigin, hplaces.declaration, Visit.at, Visit.ofNode]
    using hstatement

/-- The places of the two edits of a fix are an identifier of the tree and a declarator of the
tree. -/
theorem places_of_inline (h : ofTree source tree typeContexts options = .ok a) {b : Binding}
    (hb : b ∈ a.registry.bindings) {fix : Fix} (hfix : b.inline source = .ok fix) :
  ∃ (read : Occurrence) (declarator statement : Cursor) (removal : Edit) (text : String),
    (.root tree ∈ read.node.ancestors ∧ read.node.category = .identifier)
    ∧ b.declaration = some declarator
    ∧ b.statement = some statement
    ∧ (declarator.parent = some statement ∧ declarator.category = .declarator
      ∧ .root tree ∈ declarator.ancestors)
    ∧ declarator.removeDeclarator statement source = some removal
    ∧ removal.range.overlaps read.span = false
    ∧ fix = ⟨b.name, [removal, ⟨read.span, text⟩]⟩
  := by
  obtain ⟨read, declarator, statement, removal, text, hread, hdeclaration, hstatement, hremoval, -,
    hoverlaps, hmade⟩ := Binding.inline_inv hfix
  obtain ⟨declarator', hdeclaration', hplace⟩ := statement_inv h hb hstatement
  obtain rfl : declarator = declarator' := Option.some.inj (hdeclaration.symm.trans hdeclaration')
  use read, declarator, statement, removal, text, lastRead_inv h hb hread, hdeclaration, hstatement,
    hplace, hremoval, hoverlaps

/-- The edits that inline a binding of a well-formed tree fit the source and keep apart. -/
theorem fits_of_inline (htree : tree.WellFormed source)
    (h : ofTree source tree typeContexts options = .ok a) {b : Binding}
    (hb : b ∈ a.registry.bindings) {fix : Fix} (hfix : b.inline source = .ok fix) :
  (∀ e ∈ fix.edits, e.Fits source) ∧ Fix.Apart fix.edits
  := by
  obtain ⟨read, declarator, statement, removal, text, ⟨hreadIn, hidentifier⟩, -, -,
    ⟨hparent, hcategory, hin⟩, hremoval, hoverlaps, rfl⟩ := places_of_inline h hb hfix
  constructor
  · intro e he
    rcases List.mem_cons.mp he with rfl | he
    · exact (Cursor.takesOut_removeDeclarator htree hin hparent hcategory hremoval).fits
    · rw [List.mem_singleton.mp he]
      exact Edit.fits_mk (htree.nonempty _ (Cursor.mem_preorder_iff.mpr hreadIn) (.inl hidentifier))
        (htree.stop_le_length hreadIn).2 text
  · simpa [Fix.Apart] using hoverlaps

/-- The fix for a binding of a well-formed tree is two edits that keep apart: one takes the
declarator out of its statement, and the other one replaces just the last read. -/
theorem edits_of_inline (htree : tree.WellFormed source)
    (h : ofTree source tree typeContexts options = .ok a) {b : Binding}
    (hb : b ∈ a.registry.bindings) {fix : Fix} (hfix : b.inline source = .ok fix) :
  ∃ read declarator statement removal substitution, b.lastRead = some read
    ∧ b.declaration = some declarator ∧ declarator.parent = some statement
    ∧ fix.edits = [removal, substitution]
    ∧ declarator.TakesOut statement source removal
    ∧ substitution.Fits source ∧ substitution.range = read.span
    ∧ (removal.range.stop ≤ substitution.range.start
      ∨ substitution.range.stop ≤ removal.range.start)
  := by
  obtain ⟨hfits, -⟩ := fits_of_inline htree h hb hfix
  obtain ⟨read, declarator, statement, removal, text, hread, hdeclaration, hstatement, hremoval, -,
    hoverlaps, rfl⟩ := Binding.inline_inv hfix
  obtain ⟨declarator', hdeclaration', hparent, hcategory, hin⟩ := statement_inv h hb hstatement
  obtain rfl : declarator = declarator' := Option.some.inj (hdeclaration.symm.trans hdeclaration')
  use read, declarator, statement, removal, ⟨read.span, text⟩, hread, hdeclaration, hparent, rfl,
    Cursor.takesOut_removeDeclarator htree hin hparent hcategory hremoval,
    hfits _ (List.mem_cons_of_mem _ List.mem_cons_self), rfl
  simp only [ByteRange.overlaps, Bool.and_eq_false_iff, decide_eq_false_iff_not] at hoverlaps
  rcases hoverlaps with hafter | hbefore
  · right
    exact Int.not_lt.mp hafter
  · left
    exact Int.not_lt.mp hbefore

/-- The source `let a = 1, b = 2; f(b);`. -/
def twoDeclarators : Bytes × Tree where
  fst := Utf8.encode "let a = 1, b = 2; f(b);"
  snd :=
    .named .program 0 23 none
      [.named .lexicalDeclaration 0 17 none
        [.named .variableDeclarator 4 9 none
          [.named .identifier 4 5 (some .name) [], .named .number 8 9 (some .value) []],
        .named .variableDeclarator 11 16 none
          [.named .identifier 11 12 (some .name) [], .named .number 15 16 (some .value) []]],
      .named .expressionStatement 18 23 none
        [.named .callExpression 18 22 none
          [.named .identifier 18 19 (some .function) [],
          .named .arguments 19 22 (some .arguments) [.named .identifier 20 21 none []]]]]

/-- The second declarator is removed with the comma before it, and the first one stays whole. -/
theorem edits_of_inline_twoDeclarators :
  ∃ a b declarator statement, ofTree twoDeclarators.1 twoDeclarators.2 [] {} = .ok a
    ∧ b ∈ a.registry.bindings
    ∧ b.inline twoDeclarators.1 = .ok ⟨"b", [⟨Span.mk 9 16, ""⟩, ⟨Span.mk 20 21, "2"⟩]⟩
    ∧ b.declaration = some declarator ∧ declarator.parent = some statement
    ∧ declarator.TakesOut statement twoDeclarators.1 ⟨Span.mk 9 16, ""⟩
  := by
  have htree : twoDeclarators.2.WellFormed twoDeclarators.1 := by decide +kernel
  have hany : (ofTree twoDeclarators.1 twoDeclarators.2 [] {}).toOption.any fun a =>
      a.registry.bindings.any fun b => (b.inline twoDeclarators.1).toOption.any fun fix =>
        fix = ⟨"b", [⟨Span.mk 9 16, ""⟩, ⟨Span.mk 20 21, "2"⟩]⟩ := by
    decide +kernel
  obtain ⟨a, ha, hany⟩ := exists_ok_of_any hany
  obtain ⟨b, hb, hany⟩ := List.any_eq_true.mp hany
  obtain ⟨fix, hfix, hany⟩ := exists_ok_of_any hany
  obtain rfl := of_decide_eq_true hany
  obtain ⟨read, declarator, statement, removal, substitution, -, hdeclaration, hparent, hedits,
    htaken, -⟩ := edits_of_inline htree ha hb hfix
  obtain ⟨rfl, -⟩ := List.cons.inj hedits
  exact ⟨a, b, declarator, statement, ha, hb, hfix, hdeclaration, hparent, htaken⟩

/-- Whether fixes were made for bindings of an analysis. -/
def MadeFor (a : Analysis) (source : Bytes) (fixes : List Fix) : Prop :=
  ∀ fix ∈ fixes, ∃ b ∈ a.registry.bindings, b.inline source = .ok fix

/-- The fixes for some of the bindings were made for them. -/
theorem madeFor_fixes {bindings : List Binding} (h : bindings ⊆ a.registry.bindings) :
  a.MadeFor source (fixes source bindings)
  := by
  intro fix hfix
  obtain ⟨b, hb, hinline⟩ := List.mem_filterMap.mp hfix
  use b, h hb
  cases hresult : b.inline source with
  | error refusal => simp [hresult, Except.toOption] at hinline
  | ok fix' => simpa [hresult, Except.toOption] using hinline

/-- The edits of each of the fixes fit the source and keep apart. -/
theorem MadeFor.fits {fixes : List Fix} (hfixes : a.MadeFor source fixes)
    (htree : tree.WellFormed source) (h : ofTree source tree typeContexts options = .ok a) :
  (∀ fix ∈ fixes, ∀ e ∈ fix.edits, e.Fits source) ∧ ∀ fix ∈ fixes, Fix.Apart fix.edits
  := by
  constructor
  · intro fix hfix
    obtain ⟨b, hb, hinline⟩ := hfixes fix hfix
    exact (fits_of_inline htree h hb hinline).1
  · intro fix hfix
    obtain ⟨b, hb, hinline⟩ := hfixes fix hfix
    exact (fits_of_inline htree h hb hinline).2

/-- Applying the fixes for bindings of a well-formed tree gives the image of the source under the
edits that are carried out. -/
theorem source_applyAll_fixes (htree : tree.WellFormed source)
    (h : ofTree source tree typeContexts options = .ok a) {bindings : List Binding}
    (hbindings : bindings ⊆ a.registry.bindings) :
  (Fix.applyAll source (fixes source bindings)).source
    = Fix.image source (Fix.carriedOut source (fixes source bindings)) 0 source.length
  := by
  obtain ⟨hfits, hapart⟩ := (madeFor_fixes hbindings).fits htree h
  apply Fix.source_applyAll hfits hapart

end Analysis

end SingleUse
