import SingleUse.Proofs.Fitting
import SingleUse.Proofs.Splicing

/-!
# Freshness

All fixes of a pass are made from the same source, and those that are applied are carried out
together.  So the text that a fix puts in the place of a read was taken from the source before the
other fixes were carried out.  It is not out of date for that: the removal of a declarator takes in
the declarator, hence a fix that changes anything in it overlaps the removal, and only one of the
two is applied.  The initializer *stands* in the text of the substitution, and the bytes of the
initializer are where the other fixes have *moved* them to.
-/

namespace SingleUse

/-! ### Texts in texts -/

/-- Whether a text stands in another one. -/
def StandsIn (inner text : String) : Prop := ∃ before after, text = before ++ inner ++ after

namespace StandsIn

variable {inner text : String}

theorem refl (inner : String) :
  StandsIn inner inner
  := ⟨"", "", by simp⟩

theorem append_left (h : StandsIn inner text) (front : String) :
  StandsIn inner (front ++ text)
  := by
  obtain ⟨before, after, rfl⟩ := h
  use front ++ before, after
  simp only [String.append_assoc]

theorem append_right (h : StandsIn inner text) (back : String) :
  StandsIn inner (text ++ back)
  := by
  obtain ⟨before, after, rfl⟩ := h
  use before, after ++ back
  simp only [String.append_assoc]

theorem parenthesize (h : StandsIn inner text) :
  StandsIn inner (SingleUse.parenthesize text)
  := (h.append_left "(").append_right ")"

theorem ite_parenthesize {p : Prop} [Decidable p] (h : StandsIn inner text) :
  StandsIn inner (if p then SingleUse.parenthesize text else text)
  := by
  split
  · exact h.parenthesize
  · exact h

end StandsIn

namespace Binding

variable {b : Binding} {source : Bytes} {initializer : Cursor}

/-- In the access that a pattern stands for, the initializer is what is accessed. -/
theorem standsIn_patternAccess {text : String} (h : b.patternAccess source initializer = .ok text) :
  StandsIn (initializer.text source) text
  := by
  have hbase : StandsIn (initializer.text source)
      (if initializer.precedence < Precedence.member then
        parenthesize (initializer.text source) else initializer.text source) :=
    (StandsIn.refl _).ite_parenthesize
  simp only [patternAccess] at h
  split at h
  · obtain rfl := Except.ok.inj h
    exact ((hbase.append_right _).append_right _).append_right _
  · split at h
    · cases h
    · split at h
      case h_5 =>
        obtain rfl := Except.ok.inj h
        apply hbase.append_right _
      case h_6 => cases h
      all_goals
        obtain rfl := Except.ok.inj h
        simp only [String.append_assoc]
        apply hbase.append_right _

/-- The initializer stands in what takes the place of the read. -/
theorem standsIn_replacement (hinitializer : b.initializer = some initializer) {r : Replacement}
    (h : b.replacement source = .ok r) :
  StandsIn (initializer.text source) r.text
  := by
  unfold replacement at h
  rw [hinitializer] at h
  cases hshape : b.shape with
  | simple =>
    rw [hshape] at h
    obtain rfl := Except.ok.inj h
    exact .refl _
  | arrayElement | objectProperty =>
    rw [hshape] at h
    obtain ⟨text, haccess, h⟩ := exists_ok_of_bind h
    obtain rfl := Except.ok.inj h
    apply standsIn_patternAccess haccess

/-- The initializer stands in the text of the substitution. -/
theorem standsIn_substitution (hinitializer : b.initializer = some initializer)
    {read : Occurrence} {e : Edit} (h : b.substitution read source = .ok e) :
  StandsIn (initializer.text source) e.text
  := by
  obtain ⟨r, hreplacement, h⟩ := exists_ok_of_bind h
  obtain rfl := Except.ok.inj h
  have hstands := standsIn_replacement hinitializer hreplacement
  simp only
  split
  · apply hstands.ite_parenthesize.append_left _
  · exact hstands.ite_parenthesize

end Binding

/-! ### What a removal takes in -/

/-- What does not overlap a range does not overlap a part of it. -/
theorem ByteRange.overlaps_eq_false_of_part {whole part other : ByteRange}
    (hstart : whole.start ≤ part.start) (hstop : part.stop ≤ whole.stop)
    (h : whole.overlaps other = false) :
  other.overlaps part = false
  := by
  simp only [overlaps, Bool.and_eq_false_iff, decide_eq_false_iff_not] at h ⊢
  omega

/-- An edit that does not overlap a span replaces none of its bytes. -/
theorem Edit.covers_eq_false_of_apart {e : Edit} {span : Span}
    (h : e.range.overlaps span = false) {k : Nat} (hstart : span.start ≤ k) (hstop : k < span.stop) :
  e.covers k = false
  := by
  have hrange : (span : ByteRange) = ⟨span.start, span.stop⟩ := rfl
  simp only [hrange, ByteRange.overlaps, covers, Bool.and_eq_false_iff,
    decide_eq_false_iff_not] at h ⊢
  omega

/-! ### Where bytes are moved to -/

namespace Fix

variable {source : Bytes} {edits : List Edit} {fixes : List Fix}

/-- The place after some edits of what stands at an offset. -/
def moved (source : Bytes) (edits : List Edit) (offset : Nat) : Nat :=
  (image source edits 0 offset).length

/-- Bytes that no edit replaces are, after the edits, where they were moved to. -/
theorem slice_image (hfits : ∀ e ∈ edits, e.Fits source) {i j : Nat} (hij : i ≤ j)
    (hj : j ≤ source.length) (h : ∀ e ∈ edits, ∀ k : Nat, i ≤ k → k < j → e.covers k = false) :
  (image source edits 0 source.length).slice (moved source edits i) (moved source edits j)
    = source.slice i j
  := by
  have hkept := image_of_uncovered hfits h
  have hfront : image source edits 0 j = image source edits 0 i ++ image source edits i j :=
    image_append (Nat.zero_le i) hij
  have hwhole : image source edits 0 source.length
      = image source edits 0 j ++ image source edits j source.length :=
    image_append (Nat.zero_le j) hj
  rw [hkept] at hfront
  have hmoved : moved source edits j = moved source edits i + (source.slice i j).length := by
    rw [moved, moved, hfront, List.length_append]
  rw [hwhole, hfront, hmoved, Bytes.slice, List.append_assoc, moved, List.drop_left,
    Nat.add_sub_cancel_left, List.take_left]

/-- Fixes of which no two overlap, and that do not overlap what was applied before, are all
applied. -/
theorem sift_of_pairwise :
  ∀ {kept : List Fix}, (kept ++ fixes).Pairwise (fun a b => a.overlaps b = false) →
    sift kept fixes = (fixes, [])
  := by
  induction fixes with
  | nil => simp [sift]
  | cons fix rest ih =>
    intro kept h
    have hnone : kept.any fix.overlaps = false := by
      apply List.any_eq_false.mpr
      intro other hother
      have hapart := (List.pairwise_append.mp h).2.2 other hother fix List.mem_cons_self
      rw [overlaps_symm, hapart]
      exact Bool.false_ne_true
    rw [List.append_cons] at h
    rw [sift, hnone, ih h]
    rfl

/-- Fixes of which no two overlap are all applied. -/
theorem applied_of_pairwise (h : fixes.Pairwise fun a b => a.overlaps b = false) :
  (applyAll source fixes).applied = fixes ∧ (applyAll source fixes).deferred = []
  := by
  have hsift : sift [] fixes = (fixes, []) := sift_of_pairwise h
  simp [applyAll, hsift]

/-- Some of the fixes that are applied together are all applied when they are alone. -/
theorem applied_of_sublist {part : List Fix} (h : part.Sublist (applyAll source fixes).applied) :
  (applyAll source part).applied = part ∧ (applyAll source part).deferred = []
  := by
  have hapart : (applyAll source fixes).applied.Pairwise fun a b => a.overlaps b = false :=
    pairwise_sift List.Pairwise.nil
  apply applied_of_pairwise (hapart.sublist h)

/-- Fixes whose edits all keep apart are all applied. -/
theorem applied_of_apart (h : Apart (fixes.flatMap (·.edits))) :
  (applyAll source fixes).applied = fixes ∧ (applyAll source fixes).deferred = []
  := by
  apply applied_of_pairwise
  apply (List.pairwise_flatMap.mp h).2.imp
  intro a b hapart
  simp only [overlaps, List.any_eq_false, Bool.not_eq_true]
  exact hapart

end Fix

/-! ### Fixes that are applied together -/

namespace Analysis

variable {source : Bytes} {tree : Tree} {typeContexts : List NodeType} {options : RuleOptions}
  {a : Analysis}

/-- The initializer of a binding with a statement is the value of its declarator. -/
theorem initializer_inv (h : ofTree source tree typeContexts options = .ok a) {b : Binding}
    (hb : b ∈ a.registry.bindings) {statement declarator : Cursor}
    (hstatement : b.statement = some statement) (hdeclaration : b.declaration = some declarator) :
  b.initializer = declarator.childByField .value
  := by
  obtain ⟨place, -, hplaces⟩ := places_inv h hb
  have horigin : b.origin = .declarator := by
    by_contra hne
    simp [Binding.statement, hne] at hstatement
  have hplace : b.declaration = some place := hplaces.declaration
  obtain rfl : place = declarator := Option.some.inj (hplace.symm.trans hdeclaration)
  exact (hplaces.initializer horigin).2

/-- What does not overlap a fix for a binding does not touch the declarator of the binding. -/
theorem apart_declarator (htree : tree.WellFormed source)
    (h : ofTree source tree typeContexts options = .ok a) {b : Binding}
    (hb : b ∈ a.registry.bindings) {fix : Fix} (hfix : b.inline source = .ok fix) :
  ∃ declarator, b.declaration = some declarator ∧ .root tree ∈ declarator.ancestors
    ∧ b.initializer = declarator.childByField .value
    ∧ ∀ other : Fix, fix.overlaps other = false →
      ∀ e ∈ other.edits, e.range.overlaps declarator.span = false
  := by
  obtain ⟨read, declarator, statement, removal, text, -, hdeclaration, hstatement,
    ⟨hparent, hcategory, hin⟩, hremoval, -, rfl⟩ := places_of_inline h hb hfix
  use declarator, hdeclaration, hin, initializer_inv h hb hstatement hdeclaration
  intro other hother e he
  have htaken := Cursor.takesOut_removeDeclarator htree hin hparent hcategory hremoval
  apply ByteRange.overlaps_eq_false_of_part htaken.start htaken.stop
  simp only [Fix.overlaps, List.any_eq_false, Bool.not_eq_true] at hother
  apply hother removal List.mem_cons_self e he

/-- Carrying out fixes that do not touch the declarator of a binding moves the initializer and leaves
its bytes as they are. -/
theorem slice_initializer (htree : tree.WellFormed source)
    (h : ofTree source tree typeContexts options = .ok a) {fixes : List Fix}
    (hfixes : a.MadeFor source fixes) {declarator initializer : Cursor}
    (hin : .root tree ∈ declarator.ancestors)
    (hinitializer : declarator.childByField .value = some initializer)
    (hapart : ∀ fix ∈ (Fix.applyAll source fixes).applied, ∀ e ∈ fix.edits,
      e.range.overlaps declarator.span = false) :
  (Fix.applyAll source fixes).source.slice
      (Fix.moved source (Fix.carriedOut source fixes) initializer.start)
      (Fix.moved source (Fix.carriedOut source fixes) initializer.stop)
    = initializer.bytes source
  := by
  obtain ⟨hfits, hdisjoint⟩ := hfixes.fits htree h
  have hchild := Cursor.mem_children_of_childByField hinitializer
  obtain ⟨hproper, hlength⟩ :=
    htree.stop_le_length (Cursor.root_mem_ancestors_of_mem_children hin hchild)
  obtain ⟨hstart, hstop⟩ :=
    htree.nested declarator (Cursor.mem_preorder_iff.mpr hin) initializer hchild
  rw [Fix.source_applyAll hfits hdisjoint]
  apply Fix.slice_image _ hproper hlength
  · intro e he k hik hkj
    obtain ⟨fix, hfix, he⟩ := List.mem_flatMap.mp he
    apply Edit.covers_eq_false_of_apart (hapart fix hfix e he)
    · exact hstart.trans hik
    · exact hkj.trans_le hstop
  · apply Fix.fits_carriedOut hfits

/-- What a fix that is applied inserts is not out of date.  No edit of another fix that is applied
touches the declarator of its binding.  If the other fixes are carried out first, the initializer
is, byte for byte, the one that stands in the text of the substitution. -/
theorem initializer_of_applied (htree : tree.WellFormed source)
    (h : ofTree source tree typeContexts options = .ok a) {fixes : List Fix}
    (hfixes : a.MadeFor source fixes) {left right : List Fix} {fix : Fix}
    (happlied : (Fix.applyAll source fixes).applied = left ++ fix :: right) {b : Binding}
    (hb : b ∈ a.registry.bindings) (hfix : b.inline source = .ok fix) :
  ∃ declarator, b.declaration = some declarator
    ∧ (∀ other ∈ left ++ right, ∀ e ∈ other.edits, e.range.overlaps declarator.span = false)
    ∧ (Fix.applyAll source (left ++ right)).applied = left ++ right
    ∧ (Fix.applyAll source (left ++ right)).deferred = []
    ∧ ∀ initializer, b.initializer = some initializer →
      (∃ removal substitution, fix.edits = [removal, substitution]
        ∧ StandsIn (initializer.text source) substitution.text)
      ∧ (Fix.applyAll source (left ++ right)).source.slice
          (Fix.moved source (Fix.carriedOut source (left ++ right)) initializer.start)
          (Fix.moved source (Fix.carriedOut source (left ++ right)) initializer.stop)
        = initializer.bytes source
  := by
  obtain ⟨declarator, hdeclaration, hin, hvalue, hapart⟩ := apart_declarator htree h hb hfix
  have hpairs : (Fix.applyAll source fixes).applied.Pairwise fun a b => a.overlaps b = false :=
    Fix.pairwise_sift List.Pairwise.nil
  have hsublist : (left ++ right).Sublist (Fix.applyAll source fixes).applied := by
    rw [happlied]
    exact (List.Sublist.refl left).append (List.sublist_cons_self fix right)
  have hothers : ∀ other ∈ left ++ right, ∀ e ∈ other.edits,
      e.range.overlaps declarator.span = false := by
    rw [happlied] at hpairs
    obtain ⟨-, hright, hleft⟩ := List.pairwise_append.mp hpairs
    intro other hother
    apply hapart
    rcases List.mem_append.mp hother with hother | hother
    · rw [Fix.overlaps_symm]
      apply hleft other hother fix List.mem_cons_self
    · exact (List.pairwise_cons.mp hright).1 other hother
  have hmade : a.MadeFor source (left ++ right) := by
    intro other hother
    apply hfixes other (Fix.sift_sublist.mem (hsublist.mem hother))
  obtain ⟨happlied', hdeferred⟩ := Fix.applied_of_sublist hsublist
  use declarator, hdeclaration, hothers, happlied', hdeferred
  intro initializer hinitializer
  constructor
  · obtain ⟨read, -, -, removal, text, -, -, -, -, hsubstitution, -, rfl⟩ := Binding.inline_inv hfix
    use removal, ⟨read.span, text⟩, rfl
    apply Binding.standsIn_substitution hinitializer hsubstitution
  · apply slice_initializer htree h hmade hin (hvalue ▸ hinitializer)
    rw [happlied']
    exact hothers

/-- The source `let a = 1, b = a, c = 2; f(b, c);`. -/
def shared : Bytes × Tree where
  fst := Utf8.encode "let a = 1, b = a, c = 2; f(b, c);"
  snd :=
    .named .program 0 33 none
      [.named .lexicalDeclaration 0 24 none
        [.named .variableDeclarator 4 9 none
          [.named .identifier 4 5 (some .name) [], .named .number 8 9 (some .value) []],
        .named .variableDeclarator 11 16 none
          [.named .identifier 11 12 (some .name) [], .named .identifier 15 16 (some .value) []],
        .named .variableDeclarator 18 23 none
          [.named .identifier 18 19 (some .name) [], .named .number 22 23 (some .value) []]],
      .named .expressionStatement 25 33 none
        [.named .callExpression 25 32 none
          [.named .identifier 25 26 (some .function) [],
          .named .arguments 26 32 (some .arguments)
            [.named .identifier 27 28 none [], .named .identifier 30 31 none []]]]]

/-- The fixes for `a` and for `c` are applied, and the one for `b` is deferred.  With the fix for `a`
alone, the initializer of `c` is moved and stays what it is. -/
theorem initializer_of_applied_shared :
  ∃ a b other fix initializer, ofTree shared.1 shared.2 [] {} = .ok a
    ∧ b ∈ a.registry.bindings ∧ b.inline shared.1 = .ok fix
    ∧ (Fix.applyAll shared.1 (fixes shared.1 a.registry.bindings)).applied = [other, fix]
    ∧ b.initializer = some initializer
    ∧ initializer.text shared.1 = "2"
    ∧ (Fix.applyAll shared.1 [other]).source.slice
        (Fix.moved shared.1 (Fix.carriedOut shared.1 [other]) initializer.start)
        (Fix.moved shared.1 (Fix.carriedOut shared.1 [other]) initializer.stop)
      = initializer.bytes shared.1
  := by
  have htree : shared.2.WellFormed shared.1 := by decide +kernel
  have hany : (ofTree shared.1 shared.2 [] {}).toOption.any fun a =>
      a.registry.bindings.any fun b =>
        (b.inline shared.1).toOption.any fun fix =>
          b.initializer.any fun initializer =>
            initializer.text shared.1 = "2"
              ∧ ∃ other ∈ fixes shared.1 a.registry.bindings,
                (Fix.applyAll shared.1 (fixes shared.1 a.registry.bindings)).applied
                  = [other] ++ fix :: [] := by
    decide +kernel
  obtain ⟨a, ha, hany⟩ := exists_ok_of_any hany
  obtain ⟨b, hb, hany⟩ := List.any_eq_true.mp hany
  obtain ⟨fix, hfix, hany⟩ := exists_ok_of_any hany
  obtain ⟨initializer, hinitializer, hany⟩ := (Option.any_eq_true _ _).mp hany
  obtain ⟨htext, other, -, happlied⟩ := of_decide_eq_true hany
  obtain ⟨-, -, -, -, -, hfresh⟩ := initializer_of_applied htree ha
    (madeFor_fixes (List.Subset.refl _)) happlied hb hfix
  use a, b, other, fix, initializer, ha, hb, hfix, happlied, hinitializer, htext
  exact (hfresh initializer hinitializer).2

end Analysis

end SingleUse
