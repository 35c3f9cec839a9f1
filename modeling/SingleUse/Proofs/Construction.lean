import SingleUse.Eligibility
import SingleUse.Proofs.Fitting

/-!
# Construction

What takes the place of a name in the constructor of `new`.  The first arguments after `new` end the
constructor, so `new a.b()` turns into something else if a call that is not in parentheses takes the
place of `a`.  Such a call stands on the *spine* of an expression, where its computation starts: at
the bottom of member accesses, subscripts, calls and assertions that a value is not null.

The text is put in parentheses if the name is the whole constructor and the call is reached through
member accesses and subscripts only, or if a link of the spine is optional.
-/

namespace SingleUse

namespace Cursor

/-! ### Spines -/

/-- Whether a node is a member access or a subscript. -/
def IsAccess (c : Cursor) : Prop := c.type = .memberExpression ∨ c.type = .subscriptExpression

/-- Whether a place is the constructor of `new`, or the object at the bottom of the accesses that
the constructor is made of. -/
inductive OnConstructorSpine : Cursor → Prop
  | constructor {c up : Cursor} (hparent : c.parent = some up) (htype : up.type = .newExpression)
      (hfield : c.label.field = some (.other "constructor")) (hkeyword : up.start < c.start) :
    OnConstructorSpine c
  | object {c up : Cursor} (hparent : c.parent = some up) (haccess : up.IsAccess)
      (hfield : c.label.field = some .object) (hup : up.OnConstructorSpine) :
    OnConstructorSpine c

/-- Whether the spine of an expression holds a call. -/
inductive CallsOnSpine : Cursor → Prop
  | call {c : Cursor} (htype : c.type = .callExpression) : CallsOnSpine c
  | object {c base : Cursor} (haccess : c.IsAccess) (hobject : c.childByField .object = some base)
      (hbase : base.CallsOnSpine) :
    CallsOnSpine c
  | nonNull {c inner : Cursor} (htype : c.type = .nonNullExpression)
      (hinner : c.wrapped = some inner) (hcalls : inner.CallsOnSpine) :
    CallsOnSpine c

/-- Whether an expression is a call, or accesses that start from one. -/
inductive StartsFromCall : Cursor → Prop
  | call {c : Cursor} (htype : c.type = .callExpression) : StartsFromCall c
  | object {c base : Cursor} (haccess : c.IsAccess) (hobject : c.childByField .object = some base)
      (hbase : base.StartsFromCall) :
    StartsFromCall c

/-- The test for a call goes on with the object of an access. -/
theorem chainHasCall_of_isAccess {c : Cursor} (h : c.IsAccess) :
  c.chainHasCall = (c.childByField .object).any chainHasCall
  := by
  rw [chainHasCall]
  rcases h with htype | htype
  all_goals
    split
    · simp_all
    · split <;> simp_all
    · split <;> simp_all
    · simp_all

/-- The test finds the accesses that start from a call. -/
theorem chainHasCall_iff {c : Cursor} :
  c.chainHasCall ↔ c.StartsFromCall
  := by
  constructor
  · intro h
    induction c using induction_on_children with
    | step c ih =>
      by_cases haccess : c.IsAccess
      · rw [chainHasCall_of_isAccess haccess] at h
        obtain ⟨base, hobject, hbase⟩ := (Option.any_eq_true _ _).mp h
        exact .object haccess hobject (ih base (mem_children_of_childByField hobject) hbase)
      · rw [chainHasCall] at h
        split at h
        case h_1 htype => exact .call htype
        case h_2 htype => exact absurd (.inl htype) haccess
        case h_3 htype => exact absurd (.inr htype) haccess
        case h_4 => cases h
  · intro h
    induction h with
    | call htype =>
      rw [chainHasCall]
      simp [htype]
    | object haccess hobject _ ih =>
      rw [chainHasCall_of_isAccess haccess, hobject, Option.any_some, ih]

instance (c : Cursor) : Decidable c.StartsFromCall := decidable_of_iff _ chainHasCall_iff

/-! ### Levels on a spine -/

/-- An expression with a call on its spine binds like a member access, or less tightly if a link is
optional. -/
theorem CallsOnSpine.precedence_eq {c : Cursor} (h : c.CallsOnSpine) :
  c.precedence = if c.chainHasOptional then Precedence.bareNew else Precedence.member
  := by
  cases h with
  | call htype => simp [precedence, htype]
  | object haccess =>
    rcases haccess with htype | htype
    all_goals simp [precedence, htype]
  | nonNull htype =>
    have hlinks : c.chainHasOptional = false := by
      rw [chainHasOptional]
      simp [htype, isChain]
    simp [precedence, htype, hlinks]

/-- Above a place in a constructor there is `new` or an access. -/
theorem OnConstructorSpine.exists_parent {c : Cursor} (h : c.OnConstructorSpine) :
  ∃ up, c.parent = some up
    ∧ (up.type = .newExpression ∨ up.type = .memberExpression ∨ up.type = .subscriptExpression)
  := by
  cases h with
  | constructor hparent htype => exact ⟨_, hparent, .inl htype⟩
  | object hparent haccess => exact ⟨_, hparent, .inr haccess⟩

/-- No statement starts in a constructor. -/
theorem OnConstructorSpine.atStatementStart_eq {c : Cursor} (h : c.OnConstructorSpine) :
  c.atStatementStart = false
  := by
  induction h with
  | constructor hparent htype _ hkeyword =>
    have hne := Nat.ne_of_lt hkeyword
    rw [atStatementStart]
    split <;> simp_all
  | object hparent haccess _ _ ih =>
    rw [atStatementStart]
    rcases haccess with htype | htype
    all_goals
      split <;> simp_all

/-- What takes a place in a constructor is put in parentheses for its level, or if it starts from a
call and is the whole constructor. -/
theorem OnConstructorSpine.needsParentheses_eq {c : Cursor} (h : c.OnConstructorSpine)
    (expression : Option Cursor) (text : String) (level : Option Nat) :
  c.needsParentheses expression text level
    = (let level := level.getD ((expression.map (·.precedence)).getD Precedence.primary)
      level < Precedence.member
        || (c.parentIn [.newExpression] && level == Precedence.member
          && expression.any (·.chainHasCall)))
  := by
  obtain ⟨up, hparent, htype⟩ := h.exists_parent
  have hrequired : c.requiredPrecedence = Precedence.member := by
    rcases htype with htype | htype | htype
    all_goals simp [requiredPrecedence, hparent, htype]
  have hmixes : ∀ expression : Cursor, expression.mixesNullish c = false := by
    intro expression
    rcases htype with htype | htype | htype
    all_goals simp [mixesNullish, hparent, htype]
  have hsigned : signedTwice text c = false := by
    rcases htype with htype | htype | htype
    all_goals simp [signedTwice, hparent, htype]
  simp [needsParentheses, hrequired, h.atStatementStart_eq, hmixes, hsigned]

end Cursor

/-! ### The text that takes the place of a name -/

/-- What takes the place of the read is the initializer as it is, or an access that a pattern stands
for. -/
theorem Binding.replacement_inv {b : Binding} {source : Bytes} {initializer : Cursor}
    (hinitializer : b.initializer = some initializer) {r : Replacement}
    (h : b.replacement source = .ok r) :
  (b.shape = .simple ∧ r.expression = some initializer ∧ r.level = none)
    ∨ (b.shape ≠ .simple ∧ r.expression = none ∧ r.level = some Precedence.member)
  := by
  unfold replacement at h
  rw [hinitializer] at h
  cases hshape : b.shape with
  | simple =>
    rw [hshape] at h
    obtain rfl := Except.ok.inj h
    exact .inl ⟨rfl, rfl, rfl⟩
  | arrayElement =>
    rw [hshape] at h
    obtain ⟨text, -, h⟩ := exists_ok_of_bind h
    obtain rfl := Except.ok.inj h
    exact .inr ⟨nofun, rfl, rfl⟩
  | objectProperty =>
    rw [hshape] at h
    obtain ⟨text, -, h⟩ := exists_ok_of_bind h
    obtain rfl := Except.ok.inj h
    exact .inr ⟨nofun, rfl, rfl⟩

/-- What takes the place of a name in a constructor, if its value has a call on the spine.  It is
put in parentheses exactly if the value takes the place as it is and a link of its spine is optional,
or the name is the whole constructor and the value starts from a call. -/
theorem Binding.inline_constructor {b : Binding} {source : Bytes} {fix : Fix}
    (h : b.inline source = .ok fix) {read : Occurrence} (hread : b.lastRead = some read)
    (hspine : read.node.OnConstructorSpine) (hrole : read.role ≠ .objectPropertyShorthand)
    {initializer : Cursor} (hinitializer : b.initializer = some initializer)
    (hcalls : initializer.CallsOnSpine) :
  ∃ removal r, b.replacement source = .ok r
    ∧ fix.edits = [removal, ⟨read.span,
        if b.shape = .simple ∧ (initializer.chainHasOptional
          ∨ read.node.parentIn [.newExpression] ∧ initializer.StartsFromCall)
        then parenthesize r.text else r.text⟩]
  := by
  obtain ⟨read', declarator, statement, removal, text, hread', -, -, -, hsubstitution, -, rfl⟩ :=
    inline_inv h
  obtain rfl : read' = read := Option.some.inj (hread'.symm.trans hread)
  obtain ⟨r, hreplacement, hedit⟩ := exists_ok_of_bind hsubstitution
  use removal, r, hreplacement
  have hneeds : read'.node.needsParentheses r.expression r.text r.level
      = decide (b.shape = .simple ∧ (initializer.chainHasOptional
        ∨ read'.node.parentIn [.newExpression] ∧ initializer.StartsFromCall)) := by
    rw [hspine.needsParentheses_eq]
    rcases replacement_inv hinitializer hreplacement with
      ⟨hshape, hexpression, hlevel⟩ | ⟨hshape, hexpression, hlevel⟩
    · have hprecedence := hcalls.precedence_eq
      by_cases hoptional : initializer.chainHasOptional
      · rw [if_pos hoptional] at hprecedence
        simp [hexpression, hlevel, hshape, hoptional, hprecedence, Precedence.bareNew,
          Precedence.member]
      · rw [if_neg hoptional] at hprecedence
        simp [hexpression, hlevel, hshape, hoptional, hprecedence, ← Cursor.chainHasCall_iff]
    · simp [hexpression, hlevel, hshape]
  have htext := congrArg Edit.text (Except.ok.inj hedit)
  simp only [if_neg hrole, hneeds, decide_eq_true_eq] at htext
  rw [← htext]

/-- The source `const a = g(); new a.B();`. -/
def Binding.constructed : Bytes × Tree where
  fst := Utf8.encode "const a = g(); new a.B();"
  snd :=
    .named .program 0 25 none
      [.named .lexicalDeclaration 0 14 none
        [.named .variableDeclarator 6 13 none
          [.named .identifier 6 7 (some .name) [],
          .named .callExpression 10 13 (some .value)
            [.named .identifier 10 11 (some .function) [],
            .named .arguments 11 13 (some .arguments) []]]],
      .named .expressionStatement 15 25 none
        [.named .newExpression 15 24 none
          [.named .memberExpression 19 22 (some (.other "constructor"))
            [.named .identifier 19 20 (some .object) [],
            .named .propertyIdentifier 21 22 (some (.other "property")) []],
          .named .arguments 22 24 (some .arguments) []]]]

/-- The call takes the place of the object of the constructor without parentheses. -/
theorem Binding.inline_constructor_constructed :
  ∃ a reported b fix read initializer,
    Analysis.ofTree constructed.1 constructed.2 [] {} = .ok a
      ∧ a.registry.reportable {} a.scopes = .ok reported ∧ b ∈ reported
      ∧ b.inline constructed.1 = .ok fix ∧ b.lastRead = some read
      ∧ read.node.OnConstructorSpine ∧ read.role ≠ .objectPropertyShorthand
      ∧ b.initializer = some initializer ∧ initializer.CallsOnSpine
      ∧ fix.edits.map (·.text) = ["", "g()"]
      ∧ ∃ removal r, b.replacement constructed.1 = .ok r
        ∧ fix.edits = [removal, ⟨read.span,
          if b.shape = .simple ∧ (initializer.chainHasOptional
            ∨ read.node.parentIn [.newExpression] ∧ initializer.StartsFromCall)
          then parenthesize r.text else r.text⟩]
  := by
  have hany : (Analysis.ofTree constructed.1 constructed.2 [] {}).toOption.any
      fun a => (a.registry.reportable {} a.scopes).toOption.any fun reported =>
        reported.any fun b => (b.inline constructed.1).toOption.any fun fix =>
          fix.edits.map (·.text) = ["", "g()"]
            ∧ ∃ read ∈ b.lastRead, read.role ≠ .objectPropertyShorthand
              ∧ read.node.label.field = some .object
              ∧ (∃ access ∈ read.node.parent, access.type = .memberExpression
                ∧ access.label.field = some (.other "constructor")
                ∧ ∃ top ∈ access.parent, top.type = .newExpression ∧ top.start < access.start)
              ∧ ∃ initializer ∈ b.initializer, initializer.type = .callExpression := by
    decide +kernel
  obtain ⟨a, ha, hany⟩ := exists_ok_of_any hany
  obtain ⟨reported, hreported, hany⟩ := exists_ok_of_any hany
  obtain ⟨b, hb, hany⟩ := List.any_eq_true.mp hany
  obtain ⟨fix, hfix, hread⟩ := exists_ok_of_any hany
  obtain ⟨htexts, read, hread, hrole, hfield, ⟨access, haccess, htype, hconstructor, top, htop,
    hnew, hkeyword⟩, initializer, hinitializer, hcall⟩ := of_decide_eq_true hread
  have hspine : read.node.OnConstructorSpine :=
    .object haccess (.inl htype) hfield (.constructor htop hnew hconstructor hkeyword)
  refine ⟨a, reported, b, fix, read, initializer, ha, hreported, hb, hfix, hread, hspine, hrole,
    hinitializer, .call hcall, htexts, ?_⟩
  exact inline_constructor hfix hread hspine hrole hinitializer (.call hcall)

end SingleUse
