import SingleUse.Proofs.Grammar
import Mathlib.Tactic.Common

/-!
# Reading expressions

The grammar is unambiguous: some tokens are those of at most one expression.  To see this, tokens
are read from left to right by precedence climbing.  `Reads` says what is read; the next token
always says how to go on, so nothing else can be read.  And what the grammar derives is read.
-/

namespace SingleUse

namespace Grammar

/-! ### Levels -/

/-- How tightly the operators of a nonterminal bind. -/
def Nonterminal.level : Nonterminal → Nat
  | assignment => 2
  | conditional => 3
  | shortCircuit | coalesce | coalesceHead => 4
  | or => 5
  | and => 6
  | bitOr => 7
  | bitXor => 8
  | bitAnd => 9
  | equality => 10
  | comparison => 11
  | shift => 12
  | sum => 13
  | product => 14
  | power => 15
  | unary => 16
  | leftHandSide => 19
  | arguments | separated => 0

/-- The level that a token after what a nonterminal derives has to stay below. -/
def Nonterminal.bound : Nonterminal → Nat
  | assignment | conditional => 2
  | shortCircuit => 4
  | power => 15
  | unary => 16
  | n => n.level + 1

/-- The level of an operator. -/
def opLevel (op : BinaryOp) : Nat := (production op).result.level

/-- How tightly the right operand of an operator binds. -/
def rightLevel (op : BinaryOp) : Nat := (production op).result.bound

/-- How tightly a token binds to what comes before it. -/
def Token.level : Token → Nat
  | operator op => opLevel op
  | question => 3
  | assign _ => 2
  | dot | openParen | openBracket => 19
  | _ => 0

/-- How tightly the next token binds to what comes before it. -/
def nextLevel : List Token → Nat
  | [] => 0
  | t :: _ => t.level

/-! ### Reading -/

/-- What is to be read: an expression whose operators have at least some level, the rest of one
after its beginning, arguments, or what comes after an argument. -/
inductive Task where
  | expression (level : Nat)
  | rest (level : Nat) (start : Phrase)
  | arguments
  | separated

/-- What is read for a task: a phrase and the tokens after it. -/
inductive Reads : Task → List Token → Phrase → List Token → Prop where
  | name {level : Nat} {text : String} {ts us : List Token} {e : Phrase}
      (hrest : Reads (.rest level (.name text)) ts e us) :
    Reads (.expression level) (.name text :: ts) e us
  | paren {level : Nat} {ts us vs : List Token} {inner e : Phrase}
      (hinner : Reads (.expression 2) ts inner (.closeParen :: us))
      (hrest : Reads (.rest level (.paren inner)) us e vs) :
    Reads (.expression level) (.openParen :: ts) e vs
  | unary {level : Nat} {op : UnaryOp} {t : Token} {ts us vs : List Token} {operand e : Phrase}
      (ht : t = op.token) (hoperand : Reads (.expression 16) ts operand us)
      (hrest : Reads (.rest level (.unary op operand)) us e vs) :
    Reads (.expression level) (t :: ts) e vs
  | stop {level : Nat} {ts : List Token} {e : Phrase} (hlevel : nextLevel ts < level) :
    Reads (.rest level e) ts e ts
  | binary {level : Nat} {op : BinaryOp} {ts us vs : List Token} {left right e : Phrase}
      (hlevel : level ≤ opLevel op) (hright : Reads (.expression (rightLevel op)) ts right us)
      (hrest : Reads (.rest level (.binary op left right)) us e vs) :
    Reads (.rest level left) (.operator op :: ts) e vs
  | conditional {level : Nat} {ts us vs ws : List Token}
      {test consequence alternative e : Phrase} (hlevel : level ≤ 3)
      (hconsequence : Reads (.expression 2) ts consequence (.colon :: us))
      (halternative : Reads (.expression 2) us alternative vs)
      (hrest : Reads (.rest level (.conditional test consequence alternative)) vs e ws) :
    Reads (.rest level test) (.question :: ts) e ws
  | assign {level : Nat} {op : Option BinaryOp} {ts us vs : List Token}
      {target value e : Phrase} (hlevel : level ≤ 2)
      (hvalue : Reads (.expression 2) ts value us)
      (hrest : Reads (.rest level (.assign op target value)) us e vs) :
    Reads (.rest level target) (.assign op :: ts) e vs
  | member {level : Nat} {property : String} {ts us : List Token} {object e : Phrase}
      (hlevel : level ≤ 19) (hrest : Reads (.rest level (.member object property)) ts e us) :
    Reads (.rest level object) (.dot :: .name property :: ts) e us
  | subscript {level : Nat} {ts us vs : List Token} {object index e : Phrase}
      (hlevel : level ≤ 19) (hindex : Reads (.expression 2) ts index (.closeBracket :: us))
      (hrest : Reads (.rest level (.subscript object index)) us e vs) :
    Reads (.rest level object) (.openBracket :: ts) e vs
  | call {level : Nat} {ts us vs : List Token} {callee arguments e : Phrase}
      (hlevel : level ≤ 19) (harguments : Reads .arguments ts arguments (.closeParen :: us))
      (hrest : Reads (.rest level (.call callee arguments)) us e vs) :
    Reads (.rest level callee) (.openParen :: ts) e vs
  | noArguments {ts : List Token} :
    Reads .arguments (.closeParen :: ts) .noArguments (.closeParen :: ts)
  | argument {ts us vs : List Token} {first rest : Phrase}
      (hfirst : Reads (.expression 2) ts first us) (hrest : Reads .separated us rest vs) :
    Reads .arguments ts (.argument first rest) vs
  | noMore {ts : List Token} :
    Reads .separated (.closeParen :: ts) .noMore (.closeParen :: ts)
  | comma {ts us : List Token} {rest : Phrase} (hrest : Reads .arguments ts rest us) :
    Reads .separated (.comma :: ts) (.comma rest) us

/-- A unary operator is told by its token. -/
theorem UnaryOp.token_injective {op op' : UnaryOp} (h : op.token = op'.token) :
  op = op'
  := by
  cases op <;> cases op' <;> first | rfl | cases h

/-- The next token says how to go on. -/
theorem Reads.deterministic {task : Task} {ts us : List Token} {e : Phrase}
    (h : Reads task ts e us) :
  ∀ {us' : List Token} {e' : Phrase}, Reads task ts e' us' → e = e' ∧ us = us'
  := by
  induction h with
  | name _ ih =>
    intro us' e' h'
    cases h' with
    | name hrest => exact ih hrest
    | @unary _ op _ _ _ _ _ _ ht => cases op <;> cases ht
  | paren _ _ ihinner ih =>
    intro us' e' h'
    cases h' with
    | paren hinner hrest =>
      obtain ⟨rfl, htokens⟩ := ihinner hinner
      obtain ⟨-, rfl⟩ := List.cons.inj htokens
      exact ih hrest
    | @unary _ op _ _ _ _ _ _ ht => cases op <;> cases ht
  | @unary _ op _ _ _ _ _ _ ht _ _ ihoperand ih =>
    intro us' e' h'
    cases h' with
    | name => cases op <;> cases ht
    | paren => cases op <;> cases ht
    | unary ht' hoperand hrest =>
      obtain rfl := UnaryOp.token_injective (ht.symm.trans ht')
      obtain ⟨rfl, rfl⟩ := ihoperand hoperand
      exact ih hrest
  | stop hstop =>
    intro us' e' h'
    cases h' with
    | stop => exact ⟨rfl, rfl⟩
    | binary hlevel => exact absurd hstop (Nat.not_lt.mpr hlevel)
    | conditional hlevel => exact absurd hstop (Nat.not_lt.mpr hlevel)
    | assign hlevel => exact absurd hstop (Nat.not_lt.mpr hlevel)
    | member hlevel => exact absurd hstop (Nat.not_lt.mpr hlevel)
    | subscript hlevel => exact absurd hstop (Nat.not_lt.mpr hlevel)
    | call hlevel => exact absurd hstop (Nat.not_lt.mpr hlevel)
  | binary hlevel _ _ ihright ih =>
    intro us' e' h'
    cases h' with
    | stop hstop => exact absurd hstop (Nat.not_lt.mpr hlevel)
    | binary _ hright hrest =>
      obtain ⟨rfl, rfl⟩ := ihright hright
      exact ih hrest
  | conditional hlevel _ _ _ ihconsequence ihalternative ih =>
    intro us' e' h'
    cases h' with
    | stop hstop => exact absurd hstop (Nat.not_lt.mpr hlevel)
    | conditional _ hconsequence halternative hrest =>
      obtain ⟨rfl, htokens⟩ := ihconsequence hconsequence
      obtain ⟨-, rfl⟩ := List.cons.inj htokens
      obtain ⟨rfl, rfl⟩ := ihalternative halternative
      exact ih hrest
  | assign hlevel _ _ ihvalue ih =>
    intro us' e' h'
    cases h' with
    | stop hstop => exact absurd hstop (Nat.not_lt.mpr hlevel)
    | assign _ hvalue hrest =>
      obtain ⟨rfl, rfl⟩ := ihvalue hvalue
      exact ih hrest
  | member hlevel _ ih =>
    intro us' e' h'
    cases h' with
    | stop hstop => exact absurd hstop (Nat.not_lt.mpr hlevel)
    | member _ hrest => exact ih hrest
  | subscript hlevel _ _ ihindex ih =>
    intro us' e' h'
    cases h' with
    | stop hstop => exact absurd hstop (Nat.not_lt.mpr hlevel)
    | subscript _ hindex hrest =>
      obtain ⟨rfl, htokens⟩ := ihindex hindex
      obtain ⟨-, rfl⟩ := List.cons.inj htokens
      exact ih hrest
  | call hlevel _ _ iharguments ih =>
    intro us' e' h'
    cases h' with
    | stop hstop => exact absurd hstop (Nat.not_lt.mpr hlevel)
    | call _ harguments hrest =>
      obtain ⟨rfl, htokens⟩ := iharguments harguments
      obtain ⟨-, rfl⟩ := List.cons.inj htokens
      exact ih hrest
  | noArguments =>
    intro us' e' h'
    cases h' with
    | noArguments => exact ⟨rfl, rfl⟩
    | argument hfirst => 
      cases hfirst with
      | @unary _ op _ _ _ _ _ _ ht => cases op <;> cases ht
  | argument hfirst _ ihfirst ih =>
    intro us' e' h'
    cases h' with
    | noArguments => 
      cases hfirst with
      | @unary _ op _ _ _ _ _ _ ht => cases op <;> cases ht
    | argument hfirst' hrest =>
      obtain ⟨rfl, rfl⟩ := ihfirst hfirst'
      obtain ⟨rfl, rfl⟩ := ih hrest
      exact ⟨rfl, rfl⟩
  | noMore =>
    intro us' e' h'
    cases h' with
    | noMore => exact ⟨rfl, rfl⟩
  | comma _ ih =>
    intro us' e' h'
    cases h' with
    | comma hrest =>
      obtain ⟨rfl, rfl⟩ := ih hrest
      exact ⟨rfl, rfl⟩

/-! ### What is derived is read -/

/-- A nonterminal binds at most as tightly as what it may be replaced by. -/
theorem Nonterminal.level_le_of_mem_units {n m : Nonterminal} (h : m ∈ n.units) :
  n.level ≤ m.level ∧ n.bound ≤ m.bound
  := by
  cases n <;> simp only [units, List.mem_cons, List.not_mem_nil, or_false] at h
  case shortCircuit => rcases h with rfl | rfl <;> decide
  case coalesceHead => rcases h with rfl | rfl <;> decide
  all_goals
    subst h
    decide

/-- The operands of an operator bind as tightly as is required to read them. -/
theorem level_le_production (op : BinaryOp) :
  0 < opLevel op ∧ opLevel op ≤ (production op).left.level
    ∧ opLevel op < (production op).left.bound
    ∧ rightLevel op ≤ (production op).right.level
    ∧ rightLevel op ≤ (production op).right.bound
    ∧ 0 < rightLevel op
  := by
  cases op <;> decide

/-- Whether all tokens of a phrase that a nonterminal derives are read.  An expression is read as
the beginning of whatever comes of it and the tokens after it; these do not bind too tightly. -/
structure Completes (n : Nonterminal) (e : Phrase) : Prop where
  expression : ∀ level, 0 < level → level ≤ n.level → ∀ us, nextLevel us < n.bound →
    ∀ e' vs, Reads (.rest level e) us e' vs → Reads (.expression level) (e.tokens ++ us) e' vs
  arguments : n = .arguments →
    ∀ us, Reads .arguments (e.tokens ++ .closeParen :: us) e (.closeParen :: us)
  separated : n = .separated →
    ∀ us, Reads .separated (e.tokens ++ .closeParen :: us) e (.closeParen :: us)

/-- An expression that comes to its end is read as it is. -/
theorem Completes.reads {n : Nonterminal} {e : Phrase} (h : Completes n e) {level : Nat}
    (hpos : 0 < level) (hlevel : level ≤ n.level) {us : List Token}
    (hbound : nextLevel us < n.bound) (hstop : nextLevel us < level) :
  Reads (.expression level) (e.tokens ++ us) e us
  := h.expression level hpos hlevel us hbound e us (.stop hstop)

/-- An assignment is read up to a token that does not belong to it. -/
theorem Completes.reads_assignment {e : Phrase} (h : Completes .assignment e) {us : List Token}
    (hnext : nextLevel us < 2) :
  Reads (.expression 2) (e.tokens ++ us) e us
  := h.reads Nat.zero_lt_two (Nat.le_refl 2) hnext hnext

/-- An expression goes on with a token that does not bind too tightly. -/
theorem Completes.goesOn {n : Nonterminal} {e e' : Phrase} (h : Completes n e) {level : Nat}
    {t : Token} {us vs : List Token} (hrest : Reads (.rest level e) (t :: us) e' vs)
    (hpos : 0 < level) (hlevel : level ≤ n.level) (hbound : t.level < n.bound) :
  Reads (.expression level) (e.tokens ++ t :: us) e' vs
  := h.expression level hpos hlevel (t :: us) hbound e' vs hrest

/-- A nonterminal of some level completes an expression if that is read in all places where it may
stand. -/
theorem Completes.of_expression {n : Nonterminal} {e : Phrase} (hn : 0 < n.level)
    (h : ∀ level, 0 < level → level ≤ n.level → ∀ us, nextLevel us < n.bound →
      ∀ e' vs, Reads (.rest level e) us e' vs → Reads (.expression level) (e.tokens ++ us) e' vs) :
  Completes n e
  where
  expression := h
  arguments := by
    rintro rfl
    cases hn
  separated := by
    rintro rfl
    cases hn

theorem Completes.of_arguments {e : Phrase}
    (h : ∀ us, Reads .arguments (e.tokens ++ .closeParen :: us) e (.closeParen :: us)) :
  Completes .arguments e
  where
  expression _ hpos hlevel := absurd (Nat.lt_of_lt_of_le hpos hlevel) (Nat.lt_irrefl 0)
  arguments _ := h
  separated := nofun

theorem Completes.of_separated {e : Phrase}
    (h : ∀ us, Reads .separated (e.tokens ++ .closeParen :: us) e (.closeParen :: us)) :
  Completes .separated e
  where
  expression _ hpos hlevel := absurd (Nat.lt_of_lt_of_le hpos hlevel) (Nat.lt_irrefl 0)
  arguments := nofun
  separated _ := h

/-- After an argument there is a comma or the end of the arguments. -/
theorem nextLevel_separated {rest : Phrase} (h : Derives .separated rest) (us : List Token) :
  nextLevel (rest.tokens ++ .closeParen :: us) < 2
  := by
  cases h with
  | unit hunit => cases hunit
  | noMore => exact Nat.zero_lt_two
  | comma => exact Nat.zero_lt_two
  | @binary _ op _ _ hresult => cases op <;> cases hresult

/-- What the grammar derives is read. -/
theorem Derives.completes {n : Nonterminal} {e : Phrase} (h : Derives n e) :
  Completes n e
  := by
  induction h with
  | unit hunit _ ih =>
    obtain ⟨hlevel, hbound⟩ := Nonterminal.level_le_of_mem_units hunit
    constructor
    · intro level hpos hle us hnext e' vs hrest
      exact ih.expression level hpos (Nat.le_trans hle hlevel) us (Nat.lt_of_lt_of_le hnext hbound)
        e' vs hrest
    all_goals
      rintro rfl
      cases hunit
  | name text =>
    apply Completes.of_expression (by decide)
    intro level _ _ us _ e' vs hrest
    exact .name hrest
  | paren _ ih =>
    apply Completes.of_expression (by decide)
    intro level _ _ us _ e' vs hrest
    simpa [Phrase.tokens] using Reads.paren (ih.reads_assignment Nat.zero_lt_two) hrest
  | member property _ ih =>
    apply Completes.of_expression (by decide)
    intro level hpos hlevel us _ e' vs hrest
    have hmember := Reads.member hlevel hrest
    simpa [Phrase.tokens] using ih.goesOn hmember hpos hlevel (by decide)
  | subscript _ _ ihobject ihindex =>
    apply Completes.of_expression (by decide)
    intro level hpos hlevel us _ e' vs hrest
    have hsubscript := Reads.subscript hlevel (ihindex.reads_assignment Nat.zero_lt_two) hrest
    simpa [Phrase.tokens] using ihobject.goesOn hsubscript hpos hlevel (by decide)
  | call _ _ ihcallee iharguments =>
    apply Completes.of_expression (by decide)
    intro level hpos hlevel us _ e' vs hrest
    have hcall := Reads.call hlevel (iharguments.arguments rfl us) hrest
    simpa [Phrase.tokens] using ihcallee.goesOn hcall hpos hlevel (by decide)
  | unary op _ ih =>
    apply Completes.of_expression (by decide)
    intro level _ _ us hbound e' vs hrest
    exact .unary rfl (ih.reads (by decide) (Nat.le_refl 16) hbound hbound) hrest
  | @binary n op _ _ hop _ _ ihleft ihright =>
    subst hop
    obtain ⟨hresultPos, hresult, hleft, hright, hrightBound, hpos⟩ := level_le_production op
    apply Completes.of_expression hresultPos
    intro level hpos' hlevel us hbound e' vs hrest
    have hread := ihright.reads hpos hright (Nat.lt_of_lt_of_le hbound hrightBound) hbound
    have hbinary := Reads.binary hlevel hread hrest
    simpa [Phrase.tokens] using
      ihleft.goesOn hbinary hpos' (Nat.le_trans hlevel hresult) hleft
  | conditional _ _ _ ihtest ihconsequence ihalternative =>
    apply Completes.of_expression (by decide)
    intro level hpos hlevel us hbound e' vs hrest
    have halternative := ihalternative.reads_assignment hbound
    have hconditional := Reads.conditional hlevel (ihconsequence.reads_assignment Nat.zero_lt_two)
      halternative hrest
    simpa [Phrase.tokens] using
      ihtest.goesOn hconditional hpos (Nat.le_succ_of_le hlevel) (by decide)
  | assign _ _ _ ihtarget ihvalue =>
    apply Completes.of_expression (by decide)
    intro level hpos hlevel us hbound e' vs hrest
    have hassign := Reads.assign hlevel (ihvalue.reads_assignment hbound) hrest
    have htarget : level ≤ Nonterminal.leftHandSide.level := Nat.le_trans hlevel (by decide)
    simpa [Phrase.tokens] using ihtarget.goesOn hassign hpos htarget (Nat.le_of_ble_eq_true rfl)
  | noArguments => exact .of_arguments fun us => .noArguments
  | argument _ hrest ihfirst ihrest =>
    apply Completes.of_arguments
    intro us
    have hnext : nextLevel (_ ++ .closeParen :: us) < 2 := nextLevel_separated hrest us
    simpa [Phrase.tokens] using
      Reads.argument (ihfirst.reads_assignment hnext) (ihrest.separated rfl us)
  | noMore => exact .of_separated fun us => .noMore
  | comma _ ih => exact .of_separated fun us => .comma (ih.arguments rfl us)

/-- The grammar is unambiguous: some tokens have at most one parse. -/
theorem Parse.unique {ts : List Token} {e e' : Phrase} (h : Parse ts e) (h' : Parse ts e') :
  e = e'
  := by
  have hread : ∀ {e : Phrase}, Parse ts e → Reads (.expression 2) ts e [] := by
    intro e h
    have hend : nextLevel [] < 2 := Nat.zero_lt_two
    have hreads := h.derived.completes.reads_assignment hend
    rwa [List.append_nil, h.tokens] at hreads
  exact (hread h).deterministic (hread h') |>.1

end Grammar

end SingleUse
