import SingleUse.Precedence
import SingleUse.Proofs.Contexts
import SingleUse.Proofs.Fitting
import Mathlib.Data.List.Forall2
import Mathlib.Data.List.Induction

/-!
# Parentheses

The nodes of a syntax tree *show* phrases of the grammar of expressions, and a name among them
*stands* in a context.  Here it is proved that an expression may take the place of the name, in
parentheses if `needsParentheses` says so: the tokens that come out have one parse, which is that
of the whole with the expression in the place of the name.
-/

namespace SingleUse

open Grammar

/-! ### Levels of nonterminals -/

namespace Grammar

namespace Nonterminal

/-- Whether a nonterminal may be replaced by another one in at most so many steps. -/
def reachesWithin : Nat → Nonterminal → Nonterminal → Bool
  | 0, n, k => n = k
  | steps + 1, n, k => n = k || n.units.any fun m => reachesWithin steps m k

theorem reaches_of_reachesWithin (steps : Nat) :
  ∀ {n k : Nonterminal}, reachesWithin steps n k → n.Reaches k
  := by
  induction steps with
  | zero =>
    intro n k h
    obtain rfl : n = k := by simpa [reachesWithin] using h
    exact .refl n
  | succ steps ih =>
    intro n k h
    simp only [reachesWithin, Bool.or_eq_true, decide_eq_true_eq, List.any_eq_true] at h
    rcases h with rfl | ⟨m, hunit, hm⟩
    · exact .refl n
    · exact .unit hunit (ih hm)

/-- The nonterminals that have productions of their own for expressions. -/
def ofExpressions : List Nonterminal :=
  [assignment, conditional, coalesce, or, and, bitOr, bitXor, bitAnd, equality, comparison, shift,
    sum, product, power, unary, leftHandSide]

end Nonterminal

namespace Frame

/-- How tightly an expression has to bind to stand in the hole of a frame. -/
def required : Frame → Nat
  | paren => Precedence.sequence
  | unary _ => Precedence.unary
  | left op _ => if op = .power then Precedence.unary + 1 else op.level
  | right op _ => if op = .power then op.level else op.level + 1
  | test _ _ => BinaryOp.nullish.level
  | consequence _ _ | alternative _ _ | value _ _ | first _ => Precedence.assignment
  | target _ _ | object _ | base _ | index _ | callee _ => Precedence.member
  | arguments _ | rest _ | comma => 0

/-- The binary operator that an expression in the hole stands next to. -/
def operator? : Frame → Option BinaryOp
  | left op _ | right op _ => some op
  | _ => none

/-- Whether an expression is to stand in the hole. -/
def takesExpression : Frame → Bool
  | arguments _ | rest _ | comma => false
  | _ => true

/-- In a hole any expression may stand that binds tightly enough, unless it is a `||` or `&&` next
to `??`. -/
theorem reaches_hole {frame : Frame} (hframe : frame.takesExpression) {k : Nonterminal}
    (hk : k ∈ Nonterminal.ofExpressions) (hlevel : frame.required ≤ k.level)
    (hnullish : frame.operator? = some .nullish → k ≠ .or ∧ k ≠ .and) :
  frame.hole.Reaches k
  := by
  apply Nonterminal.reaches_of_reachesWithin 18
  revert k
  cases frame with
  | left op right => cases op <;> simp only [required, operator?, hole] <;> decide
  | right op left => cases op <;> simp only [required, operator?, hole] <;> decide
  | arguments callee => cases hframe
  | rest first => cases hframe
  | comma => cases hframe
  | _ =>
    simp only [required, operator?, hole]
    decide

theorem required_le (frame : Frame) :
  frame.required ≤ Precedence.member
  := by
  cases frame with
  | left op r =>
    simp only [required]
    cases op <;> decide
  | right op l =>
    simp only [required]
    cases op <;> decide
  | _ => simp [required, Precedence.sequence, Precedence.unary, Precedence.assignment,
      Precedence.member, BinaryOp.level]

/-- Every expression in parentheses may stand in a hole for expressions. -/
theorem reaches_leftHandSide {frame : Frame} (hframe : frame.takesExpression) :
  frame.hole.Reaches .leftHandSide
  := by
  apply reaches_hole (k := .leftHandSide) hframe (by decide) frame.required_le
  intro _
  decide

end Frame

/-- The type of the token of a unary operator. -/
def UnaryOp.type : UnaryOp → NodeType
  | delete => .delete
  | void => .other "void"
  | typeof => .other "typeof"
  | plus => .operator .add
  | minus => .operator .subtract
  | bitNot => .other "~"
  | not => .other "!"

/-- How tightly the expression of a phrase binds. -/
def Phrase.level : Phrase → Nat
  | name _ | paren _ => Precedence.primary
  | member _ _ | subscript _ _ | call _ _ => Precedence.member
  | unary _ _ => Precedence.unary
  | binary op _ _ => op.level
  | conditional _ _ _ => Precedence.conditional
  | assign _ _ _ => Precedence.assignment
  | noArguments | argument _ _ | noMore | comma _ => 0

/-- The frames around an argument of a call, where `callee` is called and the arguments before and
after are given. -/
def argumentFrames (callee : Phrase) (before : List Phrase) (trailing : Bool)
    (after : List Phrase) : Context :=
  .first (.moreArguments trailing after)
    :: ((before.reverse.flatMap fun e => [.comma, .rest e]) ++ [.arguments callee])

/-- The frames around an argument make a call of it and the other arguments. -/
theorem plug_argumentFrames (callee : Phrase) (before : List Phrase) (trailing : Bool)
    (after : List Phrase) (e : Phrase) :
  (argumentFrames callee before trailing after).plug e
    = .call callee (.ofArguments trailing (before ++ e :: after))
  := by
  rw [argumentFrames, Context.plug]
  change Context.plug _ (.ofArguments trailing (e :: after)) = _
  -- The frames put the arguments before it in front of a list of arguments, the last one first
  induction before using List.reverseRecOn generalizing e after with
  | nil => rfl
  | append_singleton rest last ih =>
    rw [List.reverse_append, List.append_assoc]
    exact ih (e :: after) last

end Grammar

namespace Cursor

/-! ### Trees of phrases -/

/-- Whether a node is an assignment by some operator. -/
def Assigns (c : Cursor) : Option BinaryOp → Prop
  | none => c.type = .assignmentExpression
  | some op => c.type = .augmentedAssignmentExpression
    ∧ c.operatorToken = some (.other (op.name ++ "="))

/-- The phrase that a node shows. -/
inductive Shows (source : Bytes) : Cursor → Phrase → Prop where
  | name {c : Cursor} (htype : c.type = .identifier) : Shows source c (.name (c.text source))
  | paren {c inner : Cursor} {e : Phrase} (htype : c.type = .parenthesizedExpression)
      (hinner : c.significantChildren = [inner]) (h : Shows source inner e) :
    Shows source c (.paren e)
  | unary {c operand : Cursor} {op : UnaryOp} {e : Phrase} (htype : c.type = .unaryExpression)
      (hop : c.operatorToken = some op.type) (hoperand : c.childByField .argument = some operand)
      (h : Shows source operand e) :
    Shows source c (.unary op e)
  | binary {c left right : Cursor} {op : BinaryOp} {l r : Phrase}
      (htype : c.type = .binaryExpression) (hop : c.binaryOp? = some op)
      (hleft : c.childByField .left = some left) (hright : c.childByField .right = some right)
      (hl : Shows source left l) (hr : Shows source right r) :
    Shows source c (.binary op l r)
  | conditional {c test consequence alternative : Cursor} {t e f : Phrase}
      (htype : c.type = .ternaryExpression) (htest : c.childByField .condition = some test)
      (hconsequence : c.childByField .consequence = some consequence)
      (halternative : c.childByField (.other "alternative") = some alternative)
      (ht : Shows source test t) (he : Shows source consequence e)
      (hf : Shows source alternative f) :
    Shows source c (.conditional t e f)
  | assign {c target value : Cursor} {op : Option BinaryOp} {t v : Phrase} (hop : c.Assigns op)
      (htarget : c.childByField .left = some target) (hvalue : c.childByField .right = some value)
      (ht : Shows source target t) (hv : Shows source value v) :
    Shows source c (.assign op t v)
  | member {c object property : Cursor} {e : Phrase} (htype : c.type = .memberExpression)
      (hlink : ∀ child ∈ c.children, child.type ≠ .optionalChain)
      (hobject : c.childByField .object = some object)
      (hproperty : c.childByField (.other "property") = some property)
      (h : Shows source object e) :
    Shows source c (.member e (property.text source))
  | subscript {c object index : Cursor} {e i : Phrase} (htype : c.type = .subscriptExpression)
      (hlink : ∀ child ∈ c.children, child.type ≠ .optionalChain)
      (hobject : c.childByField .object = some object)
      (hindex : c.childByField (.other "index") = some index)
      (h : Shows source object e) (hi : Shows source index i) :
    Shows source c (.subscript e i)
  | call {c callee list : Cursor} {e : Phrase} {es : List Phrase} (trailing : Bool)
      (htype : c.type = .callExpression)
      (hlink : ∀ child ∈ c.children, child.type ≠ .optionalChain)
      (hcallee : c.childByField .function = some callee)
      (hlist : c.childByField .arguments = some list) (hlistType : list.type = .arguments)
      (h : Shows source callee e) (hes : List.Forall₂ (Shows source) list.significantChildren es) :
    Shows source c (.call e (.ofArguments trailing es))

/-- The hole of the phrase at a node that a place below it fills, and the frames around it. -/
inductive Fills (source : Bytes) : Cursor → Cursor → Context → Prop where
  | paren {c up : Cursor} (htype : up.type = .parenthesizedExpression)
      (hinner : up.significantChildren = [c]) :
    Fills source c up [.paren]
  | unary {c up : Cursor} {op : UnaryOp} (htype : up.type = .unaryExpression)
      (hop : up.operatorToken = some op.type) (hoperand : up.childByField .argument = some c) :
    Fills source c up [.unary op]
  | left {c up right : Cursor} {op : BinaryOp} {r : Phrase} (htype : up.type = .binaryExpression)
      (hop : up.binaryOp? = some op) (hleft : up.childByField .left = some c)
      (hright : up.childByField .right = some right) (hr : right.Shows source r) :
    Fills source c up [.left op r]
  | right {c up left : Cursor} {op : BinaryOp} {l : Phrase} (htype : up.type = .binaryExpression)
      (hop : up.binaryOp? = some op) (hright : up.childByField .right = some c)
      (hleft : up.childByField .left = some left) (hl : left.Shows source l) :
    Fills source c up [.right op l]
  | test {c up consequence alternative : Cursor} {e f : Phrase}
      (htype : up.type = .ternaryExpression) (htest : up.childByField .condition = some c)
      (hconsequence : up.childByField .consequence = some consequence)
      (halternative : up.childByField (.other "alternative") = some alternative)
      (he : consequence.Shows source e) (hf : alternative.Shows source f) :
    Fills source c up [.test e f]
  | consequence {c up test alternative : Cursor} {t f : Phrase}
      (htype : up.type = .ternaryExpression) (hconsequence : up.childByField .consequence = some c)
      (htest : up.childByField .condition = some test)
      (halternative : up.childByField (.other "alternative") = some alternative)
      (ht : test.Shows source t) (hf : alternative.Shows source f) :
    Fills source c up [.consequence t f]
  | alternative {c up test consequence : Cursor} {t e : Phrase}
      (htype : up.type = .ternaryExpression)
      (halternative : up.childByField (.other "alternative") = some c)
      (htest : up.childByField .condition = some test)
      (hconsequence : up.childByField .consequence = some consequence)
      (ht : test.Shows source t) (he : consequence.Shows source e) :
    Fills source c up [.alternative t e]
  | target {c up value : Cursor} {op : Option BinaryOp} {v : Phrase} (hop : up.Assigns op)
      (htarget : up.childByField .left = some c) (hvalue : up.childByField .right = some value)
      (hv : value.Shows source v) :
    Fills source c up [.target op v]
  | value {c up target : Cursor} {op : Option BinaryOp} {t : Phrase} (hop : up.Assigns op)
      (hvalue : up.childByField .right = some c) (htarget : up.childByField .left = some target)
      (ht : target.Shows source t) :
    Fills source c up [.value op t]
  | object {c up property : Cursor} (htype : up.type = .memberExpression)
      (hlink : ∀ child ∈ up.children, child.type ≠ .optionalChain)
      (hobject : up.childByField .object = some c)
      (hproperty : up.childByField (.other "property") = some property) :
    Fills source c up [.object (property.text source)]
  | base {c up index : Cursor} {i : Phrase} (htype : up.type = .subscriptExpression)
      (hlink : ∀ child ∈ up.children, child.type ≠ .optionalChain)
      (hobject : up.childByField .object = some c)
      (hindex : up.childByField (.other "index") = some index) (hi : index.Shows source i) :
    Fills source c up [.base i]
  | index {c up object : Cursor} {e : Phrase} (htype : up.type = .subscriptExpression)
      (hlink : ∀ child ∈ up.children, child.type ≠ .optionalChain)
      (hindex : up.childByField (.other "index") = some c)
      (hobject : up.childByField .object = some object) (he : object.Shows source e) :
    Fills source c up [.index e]
  | callee {c up list : Cursor} {es : List Phrase} (trailing : Bool)
      (htype : up.type = .callExpression)
      (hlink : ∀ child ∈ up.children, child.type ≠ .optionalChain)
      (hcallee : up.childByField .function = some c)
      (hlist : up.childByField .arguments = some list) (hlistType : list.type = .arguments)
      (hes : List.Forall₂ (Shows source) list.significantChildren es) :
    Fills source c up [.callee (.ofArguments trailing es)]
  | argument {c up callee list : Cursor} {e : Phrase} {before after : List Cursor}
      {bs fs : List Phrase} (trailing : Bool) (htype : up.type = .callExpression)
      (hlink : ∀ child ∈ up.children, child.type ≠ .optionalChain)
      (hcallee : up.childByField .function = some callee)
      (hlist : up.childByField .arguments = some list) (hlistType : list.type = .arguments)
      (hsplit : list.significantChildren = before ++ c :: after) (he : callee.Shows source e)
      (hbs : List.Forall₂ (Shows source) before bs) (hfs : List.Forall₂ (Shows source) after fs) :
    Fills source c up (argumentFrames e bs trailing fs)

/-- The context that a place stands in, up to some place above it. -/
inductive Stands (source : Bytes) (top : Cursor) : Cursor → Context → Prop where
  | top : Stands source top top []
  | inside {c up : Cursor} {inner outer : Context} (hfills : c.Fills source up inner)
      (h : Stands source top up outer) :
    Stands source top c (inner ++ outer)

/-- A place that shows a phrase and fills a hole makes the node above show the phrase with it in
the hole. -/
theorem Fills.shows {source : Bytes} {c up : Cursor} {frames : Context}
    (h : c.Fills source up frames) {e : Phrase} (he : c.Shows source e) :
  up.Shows source (frames.plug e)
  := by
  cases h with
  | paren htype hinner => exact .paren htype hinner he
  | unary htype hop hoperand => exact .unary htype hop hoperand he
  | left htype hop hleft hright hr => exact .binary htype hop hleft hright he hr
  | right htype hop hright hleft hl => exact .binary htype hop hleft hright hl he
  | test htype htest hconsequence halternative hc hf =>
    exact .conditional htype htest hconsequence halternative he hc hf
  | consequence htype hconsequence htest halternative ht hf =>
    exact .conditional htype htest hconsequence halternative ht he hf
  | alternative htype halternative htest hconsequence ht hc =>
    exact .conditional htype htest hconsequence halternative ht hc he
  | target hop htarget hvalue hv => exact .assign hop htarget hvalue he hv
  | value hop hvalue htarget ht => exact .assign hop htarget hvalue ht he
  | object htype hlink hobject hproperty => exact .member htype hlink hobject hproperty he
  | base htype hlink hobject hindex hi => exact .subscript htype hlink hobject hindex he hi
  | index htype hlink hindex hobject ho => exact .subscript htype hlink hobject hindex ho he
  | callee trailing htype hlink hcallee hlist hlistType hes =>
    exact .call trailing htype hlink hcallee hlist hlistType he hes
  | argument trailing htype hlink hcallee hlist hlistType hsplit hcalled hbs hfs =>
    rw [plug_argumentFrames]
    apply Shows.call trailing htype hlink hcallee hlist hlistType hcalled
    rw [hsplit]
    exact List.rel_append hbs (.cons he hfs)

/-- The place at the top of a context shows what the context makes of the phrase in its hole. -/
theorem Stands.shows {source : Bytes} {top c : Cursor} {context : Context}
    (h : Stands source top c context) {e : Phrase} (he : c.Shows source e) :
  top.Shows source (context.plug e)
  := by
  induction h generalizing e with
  | top => exact he
  | inside hfills _ ih =>
    rw [Context.plug_append]
    exact ih (hfills.shows he)

/-! ### Levels of phrases -/

theorem chainHasOptional_of_not_isChain {c : Cursor} (h : isChain c.type = false) :
  c.chainHasOptional = false
  := by
  rw [chainHasOptional, h]
  rfl

/-- A link is not optional if it has no sign of that and the next link is not optional. -/
theorem chainHasOptional_of_chainLink {c link : Cursor}
    (hchildren : ∀ child ∈ c.children, child.type ≠ .optionalChain)
    (hlink : c.chainLink = some link) (hrest : link.chainHasOptional = false) :
  c.chainHasOptional = false
  := by
  have hany : (c.children.any fun child => child.type = .optionalChain) = false := by
    simpa using hchildren
  rw [chainHasOptional, hany]
  split
  · simp only [Bool.false_eq_true, if_false]
    split
    · rename_i next hnext
      rw [hlink] at hnext
      rw [← Option.some.inj hnext, hrest]
    · rfl
  · rfl

theorem Assigns.type_eq {c : Cursor} {op : Option BinaryOp} (h : c.Assigns op) :
  c.type = .assignmentExpression ∨ c.type = .augmentedAssignmentExpression
  := by
  cases op with
  | none => exact .inl h
  | some op => exact .inr h.1

/-- No link of a chain is optional if the chain shows a phrase. -/
theorem Shows.chainHasOptional_eq {source : Bytes} {e : Phrase} :
  ∀ {c : Cursor}, c.Shows source e → c.chainHasOptional = false
  := by
  induction e with
  | member object property ih =>
    intro c h
    cases h with
    | member htype hchildren hobject _ h =>
      exact chainHasOptional_of_chainLink hchildren (by rw [chainLink, htype, hobject]) (ih h)
  | subscript object index ih =>
    intro c h
    cases h with
    | subscript htype hchildren hobject _ h =>
      exact chainHasOptional_of_chainLink hchildren (by rw [chainLink, htype, hobject]) (ih h)
  | call callee arguments ih =>
    intro c h
    cases h with
    | call _ htype hchildren hcallee _ _ h =>
      exact chainHasOptional_of_chainLink hchildren (by rw [chainLink, htype, hcallee]) (ih h)
  | assign op target value =>
    intro c h
    cases h with
    | assign hop =>
      apply chainHasOptional_of_not_isChain
      rcases hop.type_eq with htype | htype
      all_goals
        rw [htype]
        rfl
  | _ =>
    intro c h
    cases h with
    | _ htype =>
      apply chainHasOptional_of_not_isChain
      rw [htype]
      rfl

/-- An expression that shows a phrase binds as tightly as the phrase. -/
theorem Shows.precedence_eq {source : Bytes} {c : Cursor} {e : Phrase} (h : c.Shows source e) :
  c.precedence = e.level
  := by
  have hlinks := h.chainHasOptional_eq
  cases h with
  | assign hop =>
    rcases hop.type_eq with htype | htype
    all_goals simp [precedence, htype, Phrase.level]
  | binary htype hop => simp [precedence, htype, hop, Phrase.level]
  | name htype => simp [precedence, htype, Phrase.level]
  | paren htype => simp [precedence, htype, Phrase.level]
  | unary htype => simp [precedence, htype, Phrase.level]
  | conditional htype => simp [precedence, htype, Phrase.level]
  | member htype => simp [precedence, htype, hlinks, Phrase.level]
  | subscript htype => simp [precedence, htype, hlinks, Phrase.level]
  | call _ htype => simp [precedence, htype, hlinks, Phrase.level]

/-- The operators of a nonterminal bind as tightly as it does. -/
theorem level_production (op : BinaryOp) :
  (production op).result ∈ Nonterminal.ofExpressions
    ∧ (production op).result.level = min op.level Precedence.member
  := by
  cases op <;> decide

/-- A phrase that is shown is an expression, and binds as tightly as its nonterminal, or is closed
by itself. -/
theorem Shows.nonterminal {source : Bytes} {c : Cursor} {e : Phrase} (h : c.Shows source e) :
  e.nonterminal ∈ Nonterminal.ofExpressions ∧ e.nonterminal.level = min e.level Precedence.member
  := by
  cases h with
  | @binary _ _ _ op => exact level_production op
  | _ => exact ⟨by simp [Phrase.nonterminal, Nonterminal.ofExpressions], rfl⟩

/-! ### Places -/

theorem parent_of_mem_significantChildren {c up : Cursor} (h : c ∈ up.significantChildren) :
  c.parent = some up
  := parent_of_mem_children (mem_children_of_mem_significantChildren h)

/-- In a well-formed tree, a name fills the field that its label says. -/
theorem isField_eq {tree : Tree} {source : Bytes} (hwf : tree.WellFormed source) {c up : Cursor}
    (hc : root tree ∈ c.ancestors) (hcategory : c.category = .identifier)
    (hparent : c.parent = some up) (field : Field) :
  up.isField field c = decide (c.label.field = some field)
  := by
  have hup := mem_preorder_iff.mpr (root_mem_ancestors_of_parent hc hparent)
  have hmem := mem_children_of_parent hparent
  have hnonempty : c.start < c.stop := hwf.nonempty c (mem_preorder_iff.mpr hc) (.inl hcategory)
  -- Siblings follow each other, so only the name itself has its bytes
  have hsame : ∀ d ∈ up.children, d.sameNode c → d = c := by
    intro d hd hdc
    by_contra hne
    obtain ⟨hstart, hstop⟩ := span_eq_of_sameNode hdc
    have hsymm : Std.Symm fun a b : Cursor => a.stop ≤ b.start ∨ b.stop ≤ a.start :=
      ⟨fun _ _ => Or.symm⟩
    have hapart : up.children.Pairwise fun a b => a.stop ≤ b.start ∨ b.stop ≤ a.start :=
      (hwf.ordered up hup).imp Or.inl
    have hbetween := hapart.forall hd hmem hne
    omega
  rw [Bool.eq_iff_iff, decide_eq_true_iff, isField, List.any_eq_true]
  constructor
  · rintro ⟨d, hd, hdc⟩
    obtain ⟨hd, hfield⟩ := List.mem_filter.mp hd
    rw [← hsame d hd hdc]
    simpa using hfield
  · intro hfield
    use c, List.mem_filter.mpr ⟨hmem, by simpa using hfield⟩
    simp [sameNode]

/-- Where a name fills the hole of a frame, an expression has to bind as tightly as the frame
requires, and the operator next to it is that of the frame. -/
theorem Fills.requiredPrecedence_eq {tree : Tree} {source : Bytes} (hwf : tree.WellFormed source)
    {c up : Cursor} (hc : root tree ∈ c.ancestors) (hcategory : c.category = .identifier)
    {frames : Context} (h : c.Fills source up frames) {frame : Frame}
    (hframe : frames.head? = some frame) (htarget : ∀ op value, frame ≠ .target op value) :
  frame.takesExpression ∧ c.requiredPrecedence = frame.required
  := by
  have hfield : ∀ {up : Cursor}, c.parent = some up → ∀ field,
      up.isField field c = decide (c.label.field = some field) := isField_eq hwf hc hcategory
  cases h with
  | paren htype hinner =>
    obtain rfl := Option.some.inj hframe
    have hparent := parent_of_mem_significantChildren (hinner ▸ List.mem_singleton_self c)
    simp [requiredPrecedence, hparent, htype, Frame.required, Frame.takesExpression]
  | unary htype hop hoperand =>
    obtain rfl := Option.some.inj hframe
    have hparent := (parent_of_childByField hoperand).1
    simp [requiredPrecedence, hparent, htype, Frame.required, Frame.takesExpression]
  | left htype hop hleft =>
    obtain rfl := Option.some.inj hframe
    obtain ⟨hparent, hlabel⟩ := parent_of_childByField hleft
    simp [requiredPrecedence, hparent, htype, operandPrecedence, hop, hfield hparent, hlabel,
      Frame.required, Frame.takesExpression]
  | right htype hop hright =>
    obtain rfl := Option.some.inj hframe
    obtain ⟨hparent, hlabel⟩ := parent_of_childByField hright
    simp [requiredPrecedence, hparent, htype, operandPrecedence, hop, hfield hparent, hlabel,
      Frame.required, Frame.takesExpression]
  | test htype htest =>
    obtain rfl := Option.some.inj hframe
    obtain ⟨hparent, hlabel⟩ := parent_of_childByField htest
    simp [requiredPrecedence, hparent, htype, hfield hparent, hlabel, Frame.required,
      Frame.takesExpression]
  | consequence htype hconsequence =>
    obtain rfl := Option.some.inj hframe
    obtain ⟨hparent, hlabel⟩ := parent_of_childByField hconsequence
    simp [requiredPrecedence, hparent, htype, hfield hparent, hlabel, Frame.required,
      Frame.takesExpression]
  | alternative htype halternative =>
    obtain rfl := Option.some.inj hframe
    obtain ⟨hparent, hlabel⟩ := parent_of_childByField halternative
    simp [requiredPrecedence, hparent, htype, hfield hparent, hlabel, Frame.required,
      Frame.takesExpression]
  | target =>
    obtain rfl := Option.some.inj hframe
    exact absurd rfl (htarget _ _)
  | value hop hvalue =>
    obtain rfl := Option.some.inj hframe
    have hparent := (parent_of_childByField hvalue).1
    rcases hop.type_eq with htype | htype
    all_goals simp [requiredPrecedence, hparent, htype, Frame.required, Frame.takesExpression]
  | object htype _ hobject =>
    obtain rfl := Option.some.inj hframe
    have hparent := (parent_of_childByField hobject).1
    simp [requiredPrecedence, hparent, htype, Frame.required, Frame.takesExpression]
  | base htype _ hobject =>
    obtain rfl := Option.some.inj hframe
    have hparent := (parent_of_childByField hobject).1
    simp [requiredPrecedence, hparent, htype, Frame.required, Frame.takesExpression]
  | index htype _ hindex =>
    obtain rfl := Option.some.inj hframe
    have hparent := (parent_of_childByField hindex).1
    simp [requiredPrecedence, hparent, htype, Frame.required, Frame.takesExpression]
  | callee _ htype _ hcallee =>
    obtain rfl := Option.some.inj hframe
    obtain ⟨hparent, hlabel⟩ := parent_of_childByField hcallee
    simp [requiredPrecedence, hparent, htype, hfield hparent, hlabel, Frame.required,
      Frame.takesExpression]
  | argument _ _ _ _ _ hlistType hsplit =>
    obtain rfl := Option.some.inj hframe
    have hparent := parent_of_mem_significantChildren (hsplit ▸ List.mem_append_cons_self)
    simp [requiredPrecedence, hparent, hlistType, Frame.required, Frame.takesExpression]

/-- An expression by `||` or `&&` is shown by a node that has this operator. -/
theorem Shows.binaryOp?_eq {source : Bytes} {c : Cursor} {e : Phrase} (h : c.Shows source e)
    (hlogical : e.nonterminal = .or ∨ e.nonterminal = .and) :
  c.type = .binaryExpression ∧ isLogical c.binaryOp?
  := by
  cases h with
  | @binary _ _ _ op _ _ htype hop =>
    use htype
    rw [hop]
    cases op with
    | or => rfl
    | and => rfl
    | _ => simp [Phrase.nonterminal, production] at hlogical
  | _ => simp [Phrase.nonterminal] at hlogical

/-- Next to `??`, an expression by `||` or `&&` is noticed. -/
theorem Fills.mixesNullish {source : Bytes} {c up initializer : Cursor} {frames : Context}
    (h : c.Fills source up frames) {frame : Frame} (hframe : frames.head? = some frame)
    (hop : frame.operator? = some .nullish) {e : Phrase} (he : initializer.Shows source e)
    (hlogical : e.nonterminal = .or ∨ e.nonterminal = .and) :
  initializer.mixesNullish c
  := by
  obtain ⟨htype, hlogical⟩ := he.binaryOp?_eq hlogical
  have hmixes : c.parent = some up → up.type = .binaryExpression → up.binaryOp? = some .nullish →
      initializer.mixesNullish c := by
    intro hparent hup hnullish
    simp [Cursor.mixesNullish, hparent, hup, hnullish, htype, hlogical]
  cases h with
  | left hup hop' hleft =>
    obtain rfl := Option.some.inj hframe
    exact hmixes (parent_of_childByField hleft).1 hup (hop'.trans hop)
  | right hup hop' hright =>
    obtain rfl := Option.some.inj hframe
    exact hmixes (parent_of_childByField hright).1 hup (hop'.trans hop)
  | _ =>
    obtain rfl := Option.some.inj hframe
    cases hop

theorem Fills.exists_head {source : Bytes} {c up : Cursor} {frames : Context}
    (h : c.Fills source up frames) :
  ∃ frame, frames.head? = some frame
  := by
  cases h <;> exact ⟨_, rfl⟩

/-! ### Putting expressions in the place of names -/

/-- What is not put in parentheses binds tightly enough for the place, and does not bring `??` and
`||` or `&&` together. -/
theorem needsParentheses_eq_false {c initializer : Cursor} {text : String}
    (h : ¬ c.needsParentheses (some initializer) text none) :
  c.requiredPrecedence ≤ initializer.precedence ∧ ¬ initializer.mixesNullish c
  := by
  simp only [needsParentheses, Option.getD_none, Option.map_some, Option.getD_some,
    Option.any_some, Bool.or_eq_true, decide_eq_true_eq, not_or, Nat.not_lt] at h
  exact ⟨h.1.1.1.1, h.1.1.2⟩

/-- What takes the place of a name, in parentheses if they are needed, fits the hole that the name
fills. -/
theorem Stands.derives_hole {tree : Tree} {source : Bytes} (hwf : tree.WellFormed source)
    {top use initializer : Cursor} (huse : root tree ∈ use.ancestors)
    (hcategory : use.category = .identifier) {context : Context}
    (h : Stands source top use context)
    (htarget : ∀ op value, context.head? ≠ some (.target op value)) {e : Phrase}
    (hshows : initializer.Shows source e) (he : Derives .assignment e) (text : String) :
  Derives context.hole
    (if use.needsParentheses (some initializer) text none then .paren e else e)
  := by
  cases h with
  | top =>
    split
    · exact derives_iff.mpr ⟨@Frame.reaches_leftHandSide .paren rfl, he⟩
    · exact he
  | @inside _ up inner outer hfills =>
    obtain ⟨frame, hframe⟩ := hfills.exists_head
    obtain ⟨more, rfl⟩ := List.head?_eq_some_iff.mp hframe
    have hnotTarget : ∀ op value, frame ≠ .target op value := by
      rintro op value rfl
      exact htarget op value rfl
    obtain ⟨hexpression, hrequired⟩ :=
      hfills.requiredPrecedence_eq hwf huse hcategory hframe hnotTarget
    change Derives frame.hole _
    split
    · exact derives_iff.mpr ⟨Frame.reaches_leftHandSide hexpression, he⟩
    · rename_i hneeds
      obtain ⟨hprecedence, hmixes⟩ := needsParentheses_eq_false hneeds
      rw [hrequired, hshows.precedence_eq] at hprecedence
      obtain ⟨hnonterminal, hlevel⟩ := hshows.nonterminal
      apply derives_iff.mpr ⟨?_, (derives_iff.mp he).2⟩
      apply Frame.reaches_hole hexpression hnonterminal
      · rw [hlevel]
        exact Nat.le_min.mpr ⟨hprecedence, frame.required_le⟩
      · intro hnullish
        constructor
        · exact fun hor => hmixes (hfills.mixesNullish hframe hnullish hshows (.inl hor))
        · exact fun hand => hmixes (hfills.mixesNullish hframe hnullish hshows (.inr hand))

/-- An expression takes the place of a name, in parentheses if they are needed.  The tokens around
the name together with those of the expression have one parse: that of the whole, with the
expression in the place of the name. -/
theorem parse_substituted_iff {tree : Tree} {source : Bytes} (hwf : tree.WellFormed source)
    {top use initializer : Cursor} (huse : root tree ∈ use.ancestors)
    (hcategory : use.category = .identifier) {context : Context}
    (hstands : Stands source top use context)
    (htarget : ∀ op value, context.head? ≠ some (.target op value))
    (hwhole : Parse (context.before ++ .name (use.text source) :: context.after)
      (context.plug (.name (use.text source))))
    {ts : List Token} {e : Phrase} (hshows : initializer.Shows source e) (he : Parse ts e)
    (text : String) (parsed : Phrase) :
  Parse (context.before
      ++ (if use.needsParentheses (some initializer) text none
        then .openParen :: (ts ++ [.closeParen]) else ts)
      ++ context.after) parsed
    ↔ parsed = context.plug
      (if use.needsParentheses (some initializer) text none then .paren e else e)
  := by
  obtain ⟨hderived, rfl⟩ := he
  have hplaced := hstands.derives_hole hwf huse hcategory htarget hshows hderived text
  have htokens : (if use.needsParentheses (some initializer) text none
      then .openParen :: (e.tokens ++ [.closeParen]) else e.tokens)
      = (if use.needsParentheses (some initializer) text none then .paren e else e).tokens := by
    split <;> rfl
  rw [htokens]
  exact Context.parse_plug_iff hwhole.derived hplaced

/-- The source `const u = b + c; a * u;`. -/
def multiplied : Bytes × Tree where
  fst := Utf8.encode "const u = b + c; a * u;"
  snd :=
    .named .program 0 23 none
      [.named .lexicalDeclaration 0 16 none
        [.named .variableDeclarator 6 15 none
          [.named .identifier 6 7 (some .name) [],
          .named .binaryExpression 10 15 (some .value)
            [.named .identifier 10 11 (some .left) [],
            .named (.operator .add) 12 13 (some .operator) [],
            .named .identifier 14 15 (some .right) []]]],
      .named .expressionStatement 17 23 none
        [.named .binaryExpression 17 22 none
          [.named .identifier 17 18 (some .left) [],
          .named (.operator .multiply) 19 20 (some .operator) [],
          .named .identifier 21 22 (some .right) []]]]

/-- The place that is reached by going down to children with given numbers. -/
def descend : List Nat → Cursor → Option Cursor
  | [], c => some c
  | i :: rest, c => c.children[i]?.bind (descend rest)

theorem mem_ancestors_of_descend {is : List Nat} :
  ∀ {c d : Cursor}, descend is c = some d → c ∈ d.ancestors
  := by
  induction is with
  | nil =>
    intro c d h
    cases h
    exact c.self_mem_ancestors
  | cons i rest ih =>
    intro c d h
    obtain ⟨child, hchild, h⟩ := Option.bind_eq_some_iff.mp h
    exact mem_ancestors_of_mem_children (List.mem_of_getElem? hchild) (ih h)

/-- The sum is put in parentheses, and the product has it for its right factor. -/
theorem parse_substituted_iff_multiplied :
  multiplied.2.WellFormed multiplied.1
    ∧ ∃ (top use initializer : Cursor) (context : Context),
      root multiplied.2 ∈ use.ancestors ∧ use.category = .identifier
      ∧ Stands multiplied.1 top use context
      ∧ (∀ op value, context.head? ≠ some (.target op value))
      ∧ Parse (context.before ++ .name (use.text multiplied.1) :: context.after)
          (context.plug (.name (use.text multiplied.1)))
      ∧ initializer.Shows multiplied.1 (.binary .add (.name "b") (.name "c"))
      ∧ Parse [.name "b", .operator .add, .name "c"] (.binary .add (.name "b") (.name "c"))
      ∧ ∀ parsed, Parse [.name "a", .operator .multiply, .openParen, .name "b", .operator .add,
          .name "c", .closeParen] parsed
        ↔ parsed = .binary .multiply (.name "a") (.paren (.binary .add (.name "b") (.name "c")))
  := by
  have hwf : multiplied.2.WellFormed multiplied.1 := by decide +kernel
  obtain ⟨top, use, factor, initializer, left, right, htop, huse, hfactor, hinitializer, hleft,
      hright, ⟨htype, hop, hcategory, hfactorType, hfactorText⟩, hsumType, hsumOp, hleftType,
      hleftText, hrightType, hrightText, hneeds⟩ :
      ∃ top use factor initializer left right : Cursor,
        descend [1, 0] (root multiplied.2) = some top ∧ top.childByField .right = some use
        ∧ top.childByField .left = some factor
        ∧ descend [0, 0, 1] (root multiplied.2) = some initializer
        ∧ initializer.childByField .left = some left
        ∧ initializer.childByField .right = some right
        ∧ (top.type = .binaryExpression ∧ top.binaryOp? = some .multiply
          ∧ use.category = .identifier ∧ factor.type = .identifier
          ∧ factor.text multiplied.1 = "a")
        ∧ initializer.type = .binaryExpression ∧ initializer.binaryOp? = some .add
        ∧ left.type = .identifier ∧ left.text multiplied.1 = "b"
        ∧ right.type = .identifier ∧ right.text multiplied.1 = "c"
        ∧ use.needsParentheses (some initializer) "b + c" none := by
    refine ⟨_, _, _, _, _, _, rfl, rfl, rfl, rfl, rfl, rfl, ?_⟩
    decide +kernel
  have hroot : root multiplied.2 ∈ use.ancestors :=
    root_mem_ancestors_of_mem_children (mem_ancestors_of_descend htop)
      (mem_children_of_childByField huse)
  have hname : ∀ n text, Nonterminal.reachesWithin 18 n .leftHandSide →
      Derives n (.name text) := fun n text hn =>
    derives_iff.mpr ⟨Nonterminal.reaches_of_reachesWithin 18 hn, trivial⟩
  have hfactorShows : factor.Shows multiplied.1 (.name "a") := by
    rw [← hfactorText]
    exact .name hfactorType
  have hstands : Stands multiplied.1 top use [.right .multiply (.name "a")] :=
    .inside (.right htype hop huse hfactor hfactorShows) .top
  have hshows : initializer.Shows multiplied.1 (.binary .add (.name "b") (.name "c")) := by
    rw [← hleftText, ← hrightText]
    exact .binary hsumType hsumOp hleft hright (.name hleftType) (.name hrightType)
  have hwhole : Parse [.name "a", .operator .multiply, .name (use.text multiplied.1)]
      (.binary .multiply (.name "a") (.name (use.text multiplied.1))) := by
    have hreaches : Nonterminal.Reaches .assignment .product :=
      Nonterminal.reaches_of_reachesWithin 18 (by decide)
    refine ⟨derives_iff.mpr ⟨hreaches, ?_⟩, rfl⟩
    exact ⟨hname _ _ (by decide), hname _ _ (by decide)⟩
  have hsum : Parse [.name "b", .operator .add, .name "c"]
      (.binary .add (.name "b") (.name "c")) := by
    refine ⟨derives_iff.mpr ⟨Nonterminal.reaches_of_reachesWithin 18 (by decide), ?_⟩, rfl⟩
    exact ⟨hname _ _ (by decide), hname _ _ (by decide)⟩
  have htarget : ∀ op value, [Frame.right .multiply (.name "a")].head? ≠ some (.target op value) :=
    nofun
  use hwf, top, use, initializer, [.right .multiply (.name "a")]
  refine ⟨hroot, hcategory, hstands, htarget, hwhole, hshows, hsum, ?_⟩
  intro parsed
  have hparse := parse_substituted_iff hwf hroot hcategory hstands htarget hwhole hshows hsum
    "b + c" parsed
  rw [if_pos hneeds, if_pos hneeds] at hparse
  exact hparse

end Cursor

end SingleUse
