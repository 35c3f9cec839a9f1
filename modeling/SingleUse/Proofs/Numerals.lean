import SingleUse.Proofs.Walking
import SingleUse.Text.Digit

/-!
# Numerals

A text of digits is read as a number if all of them are decimal, of whatever script, and there are
not too many.  A number is written with plain digits, and what is written for it is read as that
number.
-/

namespace SingleUse

namespace Text

/-! ### Digits of all scripts -/

/-- No blank is a digit. -/
theorem isDigit_of_isBlank {c : Char} (h : isBlank c) :
  isDigit c = false
  := by
  have hnone : ∀ range ∈ blankRanges,
      ∀ place ∈ List.range' range.first (range.last + 1 - range.first),
        isDigit (Char.ofNat place) = false := by
    decide +kernel
  obtain ⟨range, hrange, hcontains⟩ := List.any_eq_true.mp h
  simp only [CharRange.contains, Bool.and_eq_true, decide_eq_true_eq] at hcontains
  have hplace : c.toNat ∈ List.range' range.first (range.last + 1 - range.first) := by
    rw [List.mem_range'_1]
    omega
  simpa using hnone range hrange _ hplace

/-- The marks that may stand in a number or before one are no digits. -/
theorem not_mem_of_isDigits {text : String} (h : isDigits text) :
  ∀ mark ∈ ['_', '-', '+'], mark ∉ text.toList
  := by
  have hmarks : ['_', '-', '+'].all fun mark => !isDigit mark := by
    decide +kernel
  intro mark hmark hmem
  have hdigit := List.all_eq_true.mp (Bool.and_eq_true_iff.mp h).2 mark hmem
  simpa [hdigit] using List.all_eq_true.mp hmarks mark hmark

/-! ### Reading digits -/

/-- The number that decimal digits write after the digits of another number. -/
def numberAfter (before : Nat) (digits : List Char) : Nat :=
  digits.foldl (fun value c => value * 10 + (digitValue? c).getD 0) before

/-- What a text starts with that can belong to a number: decimal digits and underscores. -/
def decimals (text : String) : List Char :=
  text.toList.takeWhile fun c => c = '_' || (digitValue? c).isSome

/-- Decimal digits are read as the number that they write. -/
theorem readDigits_eq {digits : List Char} (h : ∀ c ∈ digits, c ≠ '_' ∧ (digitValue? c).isSome) :
  ∀ (value : Nat) (fresh : Bool), readDigits value fresh digits
    = if fresh && digits.isEmpty then none else some (numberAfter value digits)
  := by
  induction digits with
  | nil =>
    intro value fresh
    cases fresh <;> rfl
  | cons c rest ih =>
    intro value fresh
    obtain ⟨hmark, hc⟩ := h c List.mem_cons_self
    obtain ⟨digit, hdigit⟩ := Option.isSome_iff_exists.mp hc
    rw [readDigits.eq_3 _ _ _ _ hmark, hdigit, Option.bind_some,
      ih fun c hc => h c (List.mem_cons_of_mem _ hc)]
    simp [numberAfter, hdigit]

section digits

variable {text : String} (h : isDigits text)

include h

/-- What a text of digits starts with is decimal digits only. -/
theorem isSome_of_mem_decimals : ∀ c ∈ decimals text, c ≠ '_' ∧ (digitValue? c).isSome := by
  intro c hc
  have hmark : c ≠ '_' := by
    rintro rfl
    exact not_mem_of_isDigits h '_' (by decide) ((List.takeWhile_sublist _).subset hc)
  refine ⟨hmark, ?_⟩
  simpa [hmark] using List.mem_takeWhile_imp hc

/-- All of a text of digits is taken for a number if all the digits are decimal. -/
theorem decimals_eq_iff :
  decimals text = text.toList ↔ ∀ c ∈ text.toList, (digitValue? c).isSome
  := by
  constructor
  · intro hall c hc
    rw [← hall] at hc
    exact (isSome_of_mem_decimals h c hc).2
  · intro hall
    apply List.takeWhile_eq_self_iff.mpr
    exact fun c hc => by simp [hall c hc]

/-- There are no blanks around a text of digits. -/
theorem dropWhile_isPadding {chars : List Char} (hchars : chars ⊆ text.toList) :
  chars.dropWhile isPadding = chars
  := by
  apply List.dropWhile_eq_self_iff.mpr
  intro hlength hpadding
  have hmem : chars[0] ∈ text.toList := hchars (List.getElem_mem hlength)
  have hdigit := List.all_eq_true.mp (Bool.and_eq_true_iff.mp h).2 _ hmem
  rw [isDigit_of_isBlank (Bool.and_eq_true_iff.mp hpadding).1] at hdigit
  cases hdigit

/-- What a text of digits is read as.  The first digit that is not decimal is only looked at after
those before it were counted. -/
theorem readInt_of_isDigits :
  readInt text =
    if decimals text = [] then .error (.malformed text)
    else if maxDigits < (decimals text).length then .error (.tooLong (decimals text).length)
    else if (decimals text).length < text.length then .error (.malformed text)
    else .ok (numberAfter 0 (decimals text))
  := by
  have hbare : ((text.toList.dropWhile isPadding).reverse.dropWhile isPadding).reverse
      = text.toList := by
    rw [dropWhile_isPadding h (List.Subset.refl _),
      dropWhile_isPadding h (List.reverse_subset.mpr (List.Subset.refl _)), List.reverse_reverse]
  have hminus : ∀ rest, text.toList ≠ '-' :: rest := fun rest heq =>
    not_mem_of_isDigits h '-' (by decide) (heq ▸ List.mem_cons_self)
  have hplus : ∀ rest, text.toList ≠ '+' :: rest := fun rest heq =>
    not_mem_of_isDigits h '+' (by decide) (heq ▸ List.mem_cons_self)
  have hcount : (decimals text).filter (· != '_') = decimals text := by
    apply List.filter_eq_self.mpr
    exact fun c hc => by simpa using (isSome_of_mem_decimals h c hc).1
  have hread := readDigits_eq (isSome_of_mem_decimals h) 0 true
  have hdecimals : text.toList.takeWhile (fun c => c = '_' || (digitValue? c).isSome)
      = decimals text := rfl
  rw [readInt, hbare, ← String.length_toList]
  simp only [hdecimals, hcount, hread, one_mul]
  cases decimals text with
  | nil => rfl
  | cons c rest => simp

/-- A text of digits is read as a number if all of them are decimal and there are not too many. -/
theorem exists_readInt_iff :
  (∃ n, readInt text = .ok n) ↔
    (∀ c ∈ text.toList, (digitValue? c).isSome) ∧ text.length ≤ maxDigits
  := by
  rw [← decimals_eq_iff h, readInt_of_isDigits h, ← String.length_toList]
  have hne : text.toList ≠ [] := by
    have hnonempty := (Bool.and_eq_true_iff.mp h).1
    simpa [String.toList_eq_nil_iff] using hnonempty
  have hfirst : decimals text <+: text.toList := List.takeWhile_prefix _
  constructor
  · rintro ⟨n, hn⟩
    split_ifs at hn with hnone hlong hpart
    have hall := hfirst.eq_of_length_le (Nat.le_of_not_lt hpart)
    rw [hall] at hlong
    exact ⟨hall, Nat.le_of_not_lt hlong⟩
  · rintro ⟨hall, hlength⟩
    rw [hall, if_neg hne, if_neg (Nat.not_lt.mpr hlength), if_neg (Nat.lt_irrefl _)]
    exact ⟨_, rfl⟩

/-- A number that is read from digits, of whatever script, is not negative. -/
theorem nonneg_of_readInt {n : Int} (hread : readInt text = .ok n) :
  0 ≤ n
  := by
  rw [readInt_of_isDigits h] at hread
  split_ifs at hread
  obtain rfl := Except.ok.inj hread
  exact Int.natCast_nonneg _

end digits

/-! ### Numbers that are written -/

/-- What a plain digit is in all readings: the digit of its value, which has no other lowercase
form. -/
theorem reading_of_isDigit {c : Char} (h : c.isDigit) :
  digitValue? c = some (c.toNat - 48) ∧ lowerChar c = [c]
  := by
  obtain ⟨d, rfl⟩ : ∃ d : Fin 10, c = Nat.digitChar d := by
    have hrange : 48 ≤ c.toNat ∧ c.toNat ≤ 57 := by
      simpa [Char.isDigit, Char.le_def, UInt32.le_iff_toNat_le] using h
    obtain ⟨d, hd⟩ : ∃ d, c.toNat = 48 + d := ⟨c.toNat - 48, by omega⟩
    use ⟨d, by omega⟩
    apply Char.toNat_inj.mp
    rw [Nat.toNat_digitChar_of_lt_ten (by omega), hd]
  revert d
  decide +kernel

/-- The characters of a number are plain digits. -/
theorem isDigit_of_mem_toString (n : Nat) : ∀ c ∈ (toString n).toList, c.isDigit := by
  intro c hc
  rw [Nat.toString_eq_repr, Nat.toList_repr] at hc
  exact Nat.isDigit_of_mem_toDigits (by decide) (by decide) hc

/-- The text of a number is one of digits. -/
theorem isDigits_toString (n : Nat) : isDigits (toString n) := by
  apply Bool.and_eq_true_iff.mpr
  constructor
  · simp [← String.toList_eq_nil_iff, Nat.toString_eq_repr, Nat.toDigits_ne_nil]
  · apply List.all_eq_true.mpr
    intro c hc
    apply Bool.or_eq_true_iff.mpr
    rw [(reading_of_isDigit (isDigit_of_mem_toString n c hc)).1]
    exact .inl rfl

/-- The text of a number has no other lowercase form. -/
theorem lower_toString (n : Nat) : lower (toString n) = toString n := by
  have hdigits := isDigit_of_mem_toString n
  have hsigma : 'Σ' ∉ (toString n).toList := fun hmem => absurd (hdigits _ hmem) (by decide)
  have hflat : (toString n).toList.flatMap lowerChar
      = (toString n).toList.flatMap fun c => [c] := by
    apply List.flatMap_congr
    intro c hc
    exact (reading_of_isDigit (hdigits c hc)).2
  rw [lower, lowerAfter_eq_flatMap hsigma, hflat, List.flatMap_singleton', String.ofList_toList]

/-- The text of a number is read as that number, unless it has too many digits. -/
theorem readInt_toString (n : Nat) :
  readInt (toString n) = if (toString n).length ≤ maxDigits then .ok (n : Int)
    else .error (.tooLong (toString n).length)
  := by
  have hvalues : ∀ c ∈ (toString n).toList, digitValue? c = some (c.toNat - 48) := fun c hc =>
    (reading_of_isDigit (isDigit_of_mem_toString n c hc)).1
  have hall : decimals (toString n) = (toString n).toList := by
    apply (decimals_eq_iff (isDigits_toString n)).mpr
    exact fun c hc => by simp [hvalues c hc]
  have hnumber : numberAfter 0 (toString n).toList = n := by
    calc numberAfter 0 (toString n).toList
      _ = Nat.ofDigitChars 10 (toString n).toList 0 := by
          apply List.foldl_ext
          intro value c hc
          rw [hvalues c hc, Option.getD_some, Nat.mul_comm]
          rfl
      _ = n := by rw [Nat.toString_eq_repr, Nat.toList_repr, Nat.ofDigitChars_ten_toDigits]
  have hne : (toString n).toList ≠ [] := by
    simp [Nat.toString_eq_repr, Nat.toDigits_ne_nil]
  rw [readInt_of_isDigits (isDigits_toString n), hall, if_neg hne, hnumber, String.length_toList]
  split_ifs <;> first | rfl | omega

end Text

end SingleUse
