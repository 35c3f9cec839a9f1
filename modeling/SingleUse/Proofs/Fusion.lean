import SingleUse.Eligibility
import SingleUse.Proofs.Fitting

/-!
# Fusion

What takes the place of a read may *fuse* with what stands beside it.  A sign just before the read
is doubled by a text that starts with the same sign, and a period just after it becomes the point of
a number.  Parentheses prevent that, but they are put for the sake of the nodes around the read,
without a look at the bytes beside it: the only sign that counts is that of a unary operator whose
operand the read is.
-/

namespace SingleUse

/-! ### Signs -/

/-- The characters that make another token when they are doubled. -/
inductive Sign where
  | plus
  | minus
  | slash
deriving DecidableEq, Repr

namespace Sign

def char : Sign → Char
  | plus => '+'
  | minus => '-'
  | slash => '/'

def byte : Sign → UInt8
  | plus => 0x2B
  | minus => 0x2D
  | slash => 0x2F

/-- The unary operator that a sign is by itself. -/
def unaryOperator? : Sign → Option BinaryOp
  | plus => some .add
  | minus => some .subtract
  | slash => none

/-- Whether a text in the place of a span starts with a sign that stands just before the span. -/
structure Doubles (sign : Sign) (source : Bytes) (span : Span) (text : String) : Prop where
  before : (source.take span.start).getLast? = some sign.byte
  first : text.toList.head? = some sign.char

end Sign

/-- The decimal digits. -/
def digits : List Char := ['0', '1', '2', '3', '4', '5', '6', '7', '8', '9']

/-- The byte of a period. -/
def period : UInt8 := 0x2E

/-- Whether a text in the place of a span is a decimal number with a period just after it. -/
structure TakesPoint (source : Bytes) (span : Span) (text : String) : Prop where
  number : text ≠ "" ∧ ∀ c ∈ text.toList, c ∈ digits
  after : source[span.stop]? = some period

/-- Whether a text in the place of a span makes another token with a byte beside the span. -/
def Fuses (source : Bytes) (span : Span) (text : String) : Prop :=
  (∃ sign : Sign, sign.Doubles source span text) ∨ TakesPoint source span text

variable {source : Bytes} {span : Span} {text : String}

theorem head?_parenthesize (text : String) :
  (parenthesize text).toList.head? = some '('
  := by
  simp [parenthesize]

/-- A text in parentheses starts with no sign. -/
theorem Sign.head?_parenthesize_ne (sign : Sign) (text : String) :
  (parenthesize text).toList.head? ≠ some sign.char
  := by
  rw [head?_parenthesize]
  cases sign
  all_goals decide

/-- A text in parentheses does not fuse. -/
theorem not_fuses_parenthesize :
  ¬ Fuses source span (parenthesize text)
  := by
  rintro (⟨sign, hdoubles⟩ | hpoint)
  · exact sign.head?_parenthesize_ne text hdoubles.first
  · have hdigit := hpoint.number.2 '(' (List.mem_of_mem_head? (head?_parenthesize text))
    exact absurd hdigit (by decide)

/-! ### Why parentheses are put -/

namespace Cursor

/-- Whether the place in focus is the operand of a unary operator that is a sign. -/
def IsOperandOf (c : Cursor) (sign : Sign) : Prop :=
  ∃ parent op, c.parent = some parent ∧ parent.type = .unaryExpression
    ∧ parent.binaryOp? = some op ∧ sign.unaryOperator? = some op

end Cursor

/-- How tightly what takes the place of a read binds. -/
def Replacement.tightness (r : Replacement) : Nat :=
  r.level.getD ((r.expression.map (·.precedence)).getD Precedence.primary)

/-- Whether an expression may stand at the place in focus, as far as the nodes are concerned. -/
structure Cursor.Admits (c : Cursor) (r : Replacement) : Prop where
  level : c.requiredPrecedence ≤ r.tightness
  constructor : c.parentIn [.newExpression] → r.tightness = Precedence.member →
    ∀ e, r.expression = some e → ¬ e.chainHasCall
  nullish : ∀ e, r.expression = some e → ¬ e.mixesNullish c

namespace Cursor

variable {c : Cursor} {sign : Sign}

/-- A text that starts with a character that is not blank starts with it after trimming, too. -/
theorem toList_trimStart {first : Char} (h : text.toList.head? = some first)
    (hblank : Text.isBlank first = false) :
  (Text.trimStart text).toList = text.toList
  := by
  obtain ⟨rest, hrest⟩ := List.head?_eq_some_iff.mp h
  rw [Text.trimStart, String.toList_ofList, hrest, List.dropWhile_cons_of_neg (by simp [hblank])]

/-- Whether a character is neither blank nor the first one of an ambiguous start. -/
def OpensPlainly (first : Char) : Prop :=
  Text.isBlank first = false ∧ ∀ start ∈ ambiguousStarts, start.toList.head?.any (· ≠ first)

instance (first : Char) : Decidable (OpensPlainly first) :=
  inferInstanceAs (Decidable (Text.isBlank first = false
    ∧ ∀ start ∈ ambiguousStarts, start.toList.head?.any (· ≠ first)))

theorem opensPlainly_sign (sign : Sign) :
  OpensPlainly sign.char
  := by
  cases sign
  all_goals decide +kernel

theorem opensPlainly_digit {first : Char} (h : first ∈ digits) :
  OpensPlainly first
  := by
  have hall : digits.all fun d => OpensPlainly d := by decide +kernel
  exact of_decide_eq_true (List.all_eq_true.mp hall first h)

/-- At the start of a statement a text is ambiguous only if its first character is. -/
theorem startsAmbiguously_eq_false {first : Char} (h : text.toList.head? = some first)
    (hplain : OpensPlainly first) :
  startsAmbiguously text = false
  := by
  obtain ⟨hblank, hstarts⟩ := hplain
  simp only [startsAmbiguously, toList_trimStart h hblank, List.any_eq_false]
  intro start hstart hstarted
  obtain ⟨other, hother, hne⟩ := (Option.any_eq_true _ _).mp (hstarts start hstart)
  obtain ⟨rest, hrest⟩ := List.isPrefixOf_iff_prefix.mp hstarted
  rw [← hrest, List.head?_append, hother] at h
  exact of_decide_eq_true hne (Option.some.inj h)

/-- A text that starts with a sign is seen to double it exactly if the place in focus is the operand
of that sign. -/
theorem signedTwice_iff (h : text.toList.head? = some sign.char) :
  c.signedTwice text ↔ c.IsOperandOf sign
  := by
  obtain ⟨rest, hrest⟩ := List.head?_eq_some_iff.mp h
  rw [signedTwice, toList_trimStart h (opensPlainly_sign sign).1, hrest]
  cases hparent : c.parent with
  | none => simp [IsOperandOf, hparent]
  | some parent =>
    have hoperand : c.IsOperandOf sign ↔ parent.type = .unaryExpression
        ∧ ∃ op, parent.binaryOp? = some op ∧ sign.unaryOperator? = some op := by
      simp [IsOperandOf, hparent]
    rw [hoperand, Option.any_some, Bool.and_eq_true, beq_iff_eq]
    apply and_congr_right
    intro _
    cases sign
    all_goals
      simp only [Sign.char, Sign.unaryOperator?]
      split <;> simp_all

/-- A text that starts with a digit doubles no sign. -/
theorem signedTwice_digit {first : Char} (h : text.toList.head? = some first)
    (hdigit : first ∈ digits) :
  c.signedTwice text = false
  := by
  obtain ⟨rest, hrest⟩ := List.head?_eq_some_iff.mp h
  have hminus : first ≠ '-' := by
    rintro rfl
    exact absurd hdigit (by decide)
  have hplus : first ≠ '+' := by
    rintro rfl
    exact absurd hdigit (by decide)
  rw [signedTwice, toList_trimStart h (opensPlainly_digit hdigit).1, hrest]
  cases c.parent with
  | none => rfl
  | some parent =>
    rw [Option.any_some, Bool.and_eq_false_iff]
    right
    split
    all_goals simp_all

/-- What is not ambiguous is put in parentheses if the place does not admit it or if it doubles a
sign. -/
theorem needsParentheses_iff {r : Replacement} (hplain : startsAmbiguously r.text = false) :
  c.needsParentheses r.expression r.text r.level ↔ ¬ c.Admits r ∨ c.signedTwice r.text
  := by
  rw [needsParentheses, ← Replacement.tightness, hplain, Bool.false_and, Bool.or_false,
    Bool.or_eq_true, Bool.or_eq_true, Bool.or_eq_true]
  apply or_congr_left
  constructor
  · rintro ((hlevel | hconstructor) | hmixes) hadmits
    · exact Nat.not_lt.mpr hadmits.level (of_decide_eq_true hlevel)
    · simp only [Bool.and_eq_true, beq_iff_eq, Option.any_eq_true] at hconstructor
      obtain ⟨⟨hparent, hmember⟩, e, he, hcall⟩ := hconstructor
      exact hadmits.constructor hparent hmember e he hcall
    · obtain ⟨e, he, hmixes⟩ := (Option.any_eq_true _ _).mp hmixes
      exact hadmits.nullish e he hmixes
  · intro hadmits
    by_contra hnot
    simp only [not_or, decide_eq_true_eq, Bool.and_eq_true, beq_iff_eq, Option.any_eq_true,
      not_exists, not_and] at hnot
    obtain ⟨⟨hlevel, hconstructor⟩, hnullish⟩ := hnot
    apply hadmits
    constructor
    case level => exact Nat.not_lt.mp hlevel
    case constructor => exact fun hparent hmember e he => hconstructor ⟨hparent, hmember⟩ e he
    case nullish => exact hnullish

/-- The parentheses of a text that would double a sign. -/
theorem needsParentheses_of_doubles {r : Replacement}
    (h : sign.Doubles source span r.text) :
  c.needsParentheses r.expression r.text r.level ↔ ¬ c.Admits r ∨ c.IsOperandOf sign
  := by
  rw [needsParentheses_iff (startsAmbiguously_eq_false h.first (opensPlainly_sign sign)),
    signedTwice_iff h.first]

/-- The parentheses of a text that would take a point. -/
theorem needsParentheses_of_takesPoint {r : Replacement} (h : TakesPoint source span r.text) :
  c.needsParentheses r.expression r.text r.level ↔ ¬ c.Admits r
  := by
  obtain ⟨hne, hdigits⟩ := h.number
  obtain ⟨first, rest, hrest⟩ := List.exists_cons_of_ne_nil (mt String.toList_eq_nil_iff.mp hne)
  have hfirst : r.text.toList.head? = some first := by
    rw [hrest]
    rfl
  have hdigit : first ∈ digits := hdigits first (hrest ▸ List.mem_cons_self)
  rw [needsParentheses_iff (startsAmbiguously_eq_false hfirst (opensPlainly_digit hdigit)),
    signedTwice_digit hfirst hdigit]
  simp

/-- When a text fuses with what stands beside the place in focus, put in parentheses where they are
needed. -/
theorem fuses_iff {r : Replacement} :
  Fuses source span
      (if c.needsParentheses r.expression r.text r.level then parenthesize r.text else r.text)
    ↔ c.Admits r
      ∧ ((∃ sign : Sign, sign.Doubles source span r.text ∧ ¬ c.IsOperandOf sign)
        ∨ TakesPoint source span r.text)
  := by
  constructor
  · intro hfuses
    split at hfuses
    case isTrue => exact absurd hfuses not_fuses_parenthesize
    case isFalse hbare =>
      rcases hfuses with ⟨sign, hdoubles⟩ | hpoint
      · rw [needsParentheses_of_doubles hdoubles, not_or, not_not] at hbare
        exact ⟨hbare.1, .inl ⟨sign, hdoubles, hbare.2⟩⟩
      · rw [needsParentheses_of_takesPoint hpoint, not_not] at hbare
        exact ⟨hbare, .inr hpoint⟩
  · rintro ⟨hadmits, ⟨sign, hdoubles, hoperand⟩ | hpoint⟩
    · rw [if_neg]
      · exact .inl ⟨sign, hdoubles⟩
      · rw [needsParentheses_of_doubles hdoubles, not_or, not_not]
        exact ⟨hadmits, hoperand⟩
    · rw [if_neg]
      · exact .inr hpoint
      · rw [needsParentheses_of_takesPoint hpoint, not_not]
        exact hadmits

end Cursor

/-! ### The text of a fix -/

/-- When the text of a fix fuses with what stands beside the read.  The place has to admit what
takes the place of the read, and that has to take the point after the read or to double a sign
before it of which the read is not the operand.  Where the read is the operand of a sign, the text
does not start with that sign. -/
theorem Binding.fuses_inline_iff {b : Binding} {fix : Fix} (h : b.inline source = .ok fix)
    {read : Occurrence} (hread : b.lastRead = some read)
    (hrole : read.role ≠ .objectPropertyShorthand) :
  ∃ removal r text, b.replacement source = .ok r ∧ fix.edits = [removal, ⟨read.span, text⟩]
    ∧ (text = r.text ∨ text = parenthesize r.text)
    ∧ (Fuses source read.span text ↔ read.node.Admits r
      ∧ ((∃ sign : Sign, sign.Doubles source read.span r.text ∧ ¬ read.node.IsOperandOf sign)
        ∨ TakesPoint source read.span r.text))
    ∧ ∀ sign : Sign, read.node.IsOperandOf sign → text.toList.head? ≠ some sign.char
  := by
  obtain ⟨removal, r, hreplacement, hedits⟩ := replacement_of_inline h hread hrole
  refine ⟨removal, r, _, hreplacement, hedits, ?_, Cursor.fuses_iff, ?_⟩
  · split
    · exact .inr rfl
    · exact .inl rfl
  · intro sign hoperand hfirst
    split at hfirst
    case isTrue => exact sign.head?_parenthesize_ne r.text hfirst
    case isFalse hbare =>
      apply hbare
      have hplain := Cursor.startsAmbiguously_eq_false hfirst (Cursor.opensPlainly_sign sign)
      rw [Cursor.needsParentheses_iff hplain, Cursor.signedTwice_iff hfirst]
      exact .inr hoperand

/-- The source `const v = -x; f(a-v);`. -/
def negated : Bytes × Tree where
  fst := Utf8.encode "const v = -x; f(a-v);"
  snd :=
    .named .program 0 21 none
      [.named .lexicalDeclaration 0 13 none
        [.named .variableDeclarator 6 12 none
          [.named .identifier 6 7 (some .name) [],
          .named .unaryExpression 10 12 (some .value)
            [.named (.operator .subtract) 10 11 (some .operator) [],
            .named .identifier 11 12 (some .argument) []]]],
      .named .expressionStatement 14 21 none
        [.named .callExpression 14 20 none
          [.named .identifier 14 15 (some .function) [],
          .named .arguments 15 20 (some .arguments)
            [.named .binaryExpression 16 19 none
              [.named .identifier 16 17 (some .left) [],
              .named (.operator .subtract) 17 18 (some .operator) [],
              .named .identifier 18 19 (some .right) []]]]]]

/-- The minus before the read and the one of the initializer become one token, as in `f(a--x);`. -/
theorem Binding.fuses_inline_iff_negated :
  ∃ a reported b fix read removal r, Analysis.ofTree negated.1 negated.2 [] {} = .ok a
    ∧ a.registry.reportable {} a.scopes = .ok reported ∧ b ∈ reported
    ∧ b.inline negated.1 = .ok fix ∧ b.lastRead = some read
    ∧ read.role ≠ .objectPropertyShorthand
    ∧ b.replacement negated.1 = .ok r
    ∧ fix.edits = [removal, ⟨read.span, "-x"⟩]
    ∧ Fuses negated.1 read.span "-x"
    ∧ read.node.Admits r
  := by
  have hany : (Analysis.ofTree negated.1 negated.2 [] {}).toOption.any fun a =>
      (a.registry.reportable {} a.scopes).toOption.any fun reported =>
        reported.any fun b => (b.inline negated.1).toOption.any fun fix =>
          fix.edits.map (·.text) = ["", "-x"]
            ∧ ∃ read ∈ b.lastRead, read.role ≠ .objectPropertyShorthand
              ∧ (negated.1.take read.span.start).getLast? = some Sign.minus.byte := by
    decide +kernel
  obtain ⟨a, ha, hany⟩ := exists_ok_of_any hany
  obtain ⟨reported, hreported, hany⟩ := exists_ok_of_any hany
  obtain ⟨b, hb, hany⟩ := List.any_eq_true.mp hany
  obtain ⟨fix, hfix, hany⟩ := exists_ok_of_any hany
  obtain ⟨htexts, read, hread, hrole, hbefore⟩ := of_decide_eq_true hany
  obtain ⟨removal, r, text, hreplacement, hedits, -, hfuses, -⟩ :=
    fuses_inline_iff hfix hread hrole
  rw [hedits] at htexts
  obtain rfl : text = "-x" := (List.cons.inj (List.cons.inj htexts).2).1
  have hfused : Fuses negated.1 read.span "-x" := .inl ⟨.minus, ⟨hbefore, by decide⟩⟩
  use a, reported, b, fix, read, removal, r, ha, hreported, hb, hfix, hread, hrole, hreplacement,
    hedits, hfused
  exact (hfuses.mp hfused).1

end SingleUse
