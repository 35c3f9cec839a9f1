import SingleUse.Proofs.Reading

/-!
# Contexts

A *frame* is a phrase with a hole for one of its parts, and a *context* is a list of frames, each
standing in the hole of the next one.  A phrase that fits the hole of a context can take the place
of another one there: what the nonterminal of the hole derives, the grammar derives in the context,
and as the grammar is unambiguous, the tokens have no other parse.
-/

namespace SingleUse

namespace Grammar

/-! ### Parts of phrases -/

/-- Whether a nonterminal may be replaced by another one in some steps. -/
inductive Nonterminal.Reaches : Nonterminal → Nonterminal → Prop where
  | refl (n : Nonterminal) : Reaches n n
  | unit {n m k : Nonterminal} (hunit : m ∈ n.units) (h : Reaches m k) : Reaches n k

namespace Phrase

/-- The nonterminal whose production a phrase comes from. -/
def nonterminal : Phrase → Nonterminal
  | name _ | paren _ | member _ _ | subscript _ _ | call _ _ => .leftHandSide
  | unary _ _ => .unary
  | binary op _ _ => (production op).result
  | conditional _ _ _ => .conditional
  | assign _ _ _ => .assignment
  | noArguments | argument _ _ => .arguments
  | noMore | comma _ => .separated

/-- Whether the parts of a phrase are derived by the nonterminals of its production. -/
def Parts : Phrase → Prop
  | name _ | noArguments | noMore => True
  | paren inner => Derives .assignment inner
  | unary _ operand => Derives .unary operand
  | binary op left right =>
    Derives (production op).left left ∧ Derives (production op).right right
  | conditional test consequence alternative =>
    Derives .shortCircuit test ∧ Derives .assignment consequence ∧ Derives .assignment alternative
  | assign op target value =>
    op ∈ assignmentOps ∧ Derives .leftHandSide target ∧ Derives .assignment value
  | member object _ => Derives .leftHandSide object
  | subscript object index => Derives .leftHandSide object ∧ Derives .assignment index
  | call callee arguments => Derives .leftHandSide callee ∧ Derives .arguments arguments
  | argument first rest => Derives .assignment first ∧ Derives .separated rest
  | comma rest => Derives .arguments rest

end Phrase

/-- A phrase is derived by the nonterminals that reach its own, if its parts are derived. -/
theorem derives_iff {n : Nonterminal} {e : Phrase} :
  Derives n e ↔ n.Reaches e.nonterminal ∧ e.Parts
  := by
  constructor
  · intro h
    induction h with
    | unit hunit _ ih => exact ⟨.unit hunit ih.1, ih.2⟩
    | name => exact ⟨.refl _, trivial⟩
    | paren h => exact ⟨.refl _, h⟩
    | member _ h => exact ⟨.refl _, h⟩
    | subscript hobject hindex => exact ⟨.refl _, hobject, hindex⟩
    | call hcallee harguments => exact ⟨.refl _, hcallee, harguments⟩
    | unary _ h => exact ⟨.refl _, h⟩
    | binary hresult hleft hright =>
      subst hresult
      exact ⟨.refl _, hleft, hright⟩
    | conditional htest hconsequence halternative =>
      exact ⟨.refl _, htest, hconsequence, halternative⟩
    | assign hop htarget hvalue => exact ⟨.refl _, hop, htarget, hvalue⟩
    | noArguments => exact ⟨.refl _, trivial⟩
    | argument hfirst hrest => exact ⟨.refl _, hfirst, hrest⟩
    | noMore => exact ⟨.refl _, trivial⟩
    | comma h => exact ⟨.refl _, h⟩
  · rintro ⟨hreaches, hparts⟩
    generalize hm : e.nonterminal = m at hreaches
    induction hreaches with
    | unit hunit _ ih => exact .unit hunit (ih hm)
    | refl =>
      subst hm
      cases e with
      | name text => exact .name text
      | paren inner => exact .paren hparts
      | unary op operand => exact .unary op hparts
      | binary op left right => exact .binary rfl hparts.1 hparts.2
      | conditional => exact .conditional hparts.1 hparts.2.1 hparts.2.2
      | assign => exact .assign hparts.1 hparts.2.1 hparts.2.2
      | member object property => exact .member property hparts
      | subscript => exact .subscript hparts.1 hparts.2
      | call => exact .call hparts.1 hparts.2
      | noArguments => exact .noArguments
      | argument => exact .argument hparts.1 hparts.2
      | noMore => exact .noMore
      | comma => exact .comma hparts

/-! ### Frames -/

/-- A phrase with a hole for one of its parts. -/
inductive Frame where
  | paren
  | unary (op : UnaryOp)
  | left (op : BinaryOp) (right : Phrase)
  | right (op : BinaryOp) (left : Phrase)
  | test (consequence alternative : Phrase)
  | consequence (test alternative : Phrase)
  | alternative (test consequence : Phrase)
  | target (op : Option BinaryOp) (value : Phrase)
  | value (op : Option BinaryOp) (target : Phrase)
  | object (property : String)
  | base (index : Phrase)
  | index (base : Phrase)
  | callee (arguments : Phrase)
  | arguments (callee : Phrase)
  | first (rest : Phrase)
  | rest (first : Phrase)
  | comma

namespace Frame

/-- The phrase with another one in the hole. -/
def plug : Frame → Phrase → Phrase
  | paren, e => .paren e
  | unary op, e => .unary op e
  | left op r, e => .binary op e r
  | right op l, e => .binary op l e
  | test c a, e => .conditional e c a
  | consequence t a, e => .conditional t e a
  | alternative t c, e => .conditional t c e
  | target op v, e => .assign op e v
  | value op t, e => .assign op t e
  | object property, e => .member e property
  | base i, e => .subscript e i
  | index o, e => .subscript o e
  | callee es, e => .call e es
  | arguments f, e => .call f e
  | first es, e => .argument e es
  | rest d, e => .argument d e
  | comma, e => .comma e

/-- The nonterminal that has to derive what is in the hole. -/
def hole : Frame → Nonterminal
  | unary _ => .unary
  | left op _ => (production op).left
  | right op _ => (production op).right
  | test _ _ => .shortCircuit
  | target _ _ | object _ | base _ | callee _ => .leftHandSide
  | paren | consequence _ _ | alternative _ _ | value _ _ | index _ | first _ => .assignment
  | arguments _ | comma => .arguments
  | rest _ => .separated

/-- The tokens to the left of the hole. -/
def before : Frame → List Token
  | paren => [.openParen]
  | unary op => [op.token]
  | right op l => l.tokens ++ [.operator op]
  | consequence t _ => t.tokens ++ [.question]
  | alternative t c => t.tokens ++ .question :: (c.tokens ++ [.colon])
  | value op t => t.tokens ++ [.assign op]
  | index o => o.tokens ++ [.openBracket]
  | arguments f => f.tokens ++ [.openParen]
  | rest d => d.tokens
  | comma => [.comma]
  | left _ _ | test _ _ | target _ _ | object _ | base _ | callee _ | first _ => []

/-- The tokens to the right of the hole. -/
def after : Frame → List Token
  | paren | arguments _ => [.closeParen]
  | left op r => .operator op :: r.tokens
  | test c a => .question :: (c.tokens ++ .colon :: a.tokens)
  | consequence _ a => .colon :: a.tokens
  | target op v => .assign op :: v.tokens
  | object property => [.dot, .name property]
  | base i => .openBracket :: (i.tokens ++ [.closeBracket])
  | index _ => [.closeBracket]
  | callee es => .openParen :: (es.tokens ++ [.closeParen])
  | first es => es.tokens
  | unary _ | right _ _ | alternative _ _ | value _ _ | rest _ | comma => []

theorem tokens_plug (frame : Frame) (e : Phrase) :
  (frame.plug e).tokens = frame.before ++ e.tokens ++ frame.after
  := by
  cases frame <;> simp [plug, before, after, Phrase.tokens]

/-- What is in the hole of a derived phrase is derived by the nonterminal of the hole, and whatever
that derives may stand there. -/
theorem derives_plug {frame : Frame} {n : Nonterminal} {e : Phrase}
    (h : Derives n (frame.plug e)) :
  Derives frame.hole e ∧ ∀ e', Derives frame.hole e' → Derives n (frame.plug e')
  := by
  obtain ⟨hreaches, hparts⟩ := derives_iff.mp h
  have hplug : ∀ e', (frame.plug e').nonterminal = (frame.plug e).nonterminal := by
    intro e'
    cases frame <;> rfl
  simp only [derives_iff (e := frame.plug _), hplug, hreaches, true_and]
  cases frame <;> simp_all [plug, Phrase.Parts, hole]

end Frame

/-! ### Contexts -/

/-- Frames, each of which stands in the hole of the next one. -/
abbrev Context := List Frame

namespace Context

/-- The phrase with another one in the innermost hole. -/
def plug : Context → Phrase → Phrase
  | [], e => e
  | frame :: outer, e => plug outer (frame.plug e)

/-- The tokens to the left of the hole. -/
def before : Context → List Token
  | [] => []
  | frame :: outer => before outer ++ frame.before

/-- The tokens to the right of the hole. -/
def after : Context → List Token
  | [] => []
  | frame :: outer => frame.after ++ after outer

/-- The nonterminal that has to derive what is in the hole. -/
def hole : Context → Nonterminal
  | [] => .assignment
  | frame :: _ => frame.hole

theorem tokens_plug (context : Context) (e : Phrase) :
  (context.plug e).tokens = context.before ++ e.tokens ++ context.after
  := by
  induction context generalizing e with
  | nil => simp [plug, before, after]
  | cons frame outer ih => simp [plug, before, after, ih, Frame.tokens_plug]

theorem plug_append (inner outer : Context) (e : Phrase) :
  plug (inner ++ outer) e = plug outer (plug inner e)
  := by
  induction inner generalizing e with
  | nil => rfl
  | cons frame rest ih => exact ih (frame.plug e)

/-- In a derived phrase, whatever the nonterminal of the hole derives may take the place of what is
in the hole. -/
theorem derives_plug {context : Context} {e : Phrase}
    (h : Derives .assignment (context.plug e)) :
  Derives context.hole e ∧ ∀ e', Derives context.hole e' → Derives .assignment (context.plug e')
  := by
  induction context generalizing e with
  | nil => exact ⟨h, fun _ he' => he'⟩
  | cons frame outer ih =>
    obtain ⟨houter, hreplace⟩ := ih h
    obtain ⟨hframe, hplug⟩ := Frame.derives_plug houter
    exact ⟨hframe, fun e' he' => hreplace _ (hplug e' he')⟩

/-- What fits the hole of a context can take the place of what is there; its tokens have no other
parse. -/
theorem parse_plug_iff {context : Context} {e e' : Phrase}
    (h : Derives .assignment (context.plug e)) (he' : Derives context.hole e') {parsed : Phrase} :
  Parse (context.before ++ e'.tokens ++ context.after) parsed ↔ parsed = context.plug e'
  := by
  have hparse : Parse (context.before ++ e'.tokens ++ context.after) (context.plug e') :=
    ⟨(derives_plug h).2 e' he', context.tokens_plug e'⟩
  constructor
  · intro hparsed
    exact hparsed.unique hparse
  · rintro rfl
    exact hparse

end Context

end Grammar

end SingleUse
