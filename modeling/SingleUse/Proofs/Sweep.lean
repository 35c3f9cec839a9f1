import SingleUse.Edit
import Mathlib.Data.List.Basic
import Mathlib.Tactic.Common

/-!
# The sweep

Carrying out edits in one sweep, told for each byte on its own.  The *fate* of a byte is what
stands in its place afterwards: the texts of the edits that start at it, and the byte itself
unless an edit replaces it.  If the edits fit the source and keep apart, the result of the sweep
is made of the fates of all bytes, whatever the order of the edits.
-/

namespace SingleUse

/-- An edit *fits* a source if it replaces at least one byte, and bytes of the source only. -/
structure Edit.Fits (e : Edit) (source : Bytes) : Prop where
  start : 0 ≤ e.range.start
  proper : e.range.start < e.range.stop
  stop : e.range.stop ≤ source.length

instance (e : Edit) (source : Bytes) : Decidable (e.Fits source) :=
  decidable_of_iff
    (0 ≤ e.range.start ∧ e.range.start < e.range.stop ∧ e.range.stop ≤ source.length)
    ⟨fun ⟨hstart, hproper, hstop⟩ => ⟨hstart, hproper, hstop⟩,
      fun h => ⟨h.start, h.proper, h.stop⟩⟩

/-- Whether an edit replaces the byte at an offset. -/
def Edit.covers (e : Edit) (i : Nat) : Bool := e.range.start ≤ i && i < e.range.stop

/-- The offsets of an edit that fits are places in the source. -/
theorem Edit.Fits.exists_nat {e : Edit} {source : Bytes} (h : e.Fits source) :
  ∃ start stop : Nat, e.range = ⟨start, stop⟩ ∧ start < stop ∧ stop ≤ source.length
  := by
  obtain ⟨⟨start, stop⟩, text⟩ := e
  obtain ⟨hstart, hproper, hstop⟩ := h
  simp only at hstart hproper hstop
  use start.toNat, stop.toNat
  constructor
  · rw [Int.toNat_of_nonneg hstart, Int.toNat_of_nonneg (by omega)]
  · omega

theorem Edit.covers_eq_false_of_lt {e : Edit} {i : Nat} (h : (i : Int) < e.range.start) :
  e.covers i = false
  := by
  simp only [covers, Bool.and_eq_false_iff, decide_eq_false_iff_not]
  left
  omega

theorem Edit.covers_eq_false_of_le {e : Edit} {i : Nat} (h : e.range.stop ≤ i) :
  e.covers i = false
  := by
  simp only [covers, Bool.and_eq_false_iff, decide_eq_false_iff_not]
  right
  omega

/-- The bytes of a slice are those of the source from its start on. -/
theorem Bytes.getElem?_slice (source : Bytes) (start k stop : Nat) (h : start + k < stop) :
  (source.slice start stop)[k]? = source[start + k]?
  := by
  rw [slice, List.getElem?_take_of_lt (by omega), List.getElem?_drop]

namespace Fix

/-- Whether no two of the edits overlap. -/
def Apart (edits : List Edit) : Prop :=
  edits.Pairwise fun a b => a.range.overlaps b.range = false

instance (edits : List Edit) : Decidable (Apart edits) :=
  inferInstanceAs (Decidable (edits.Pairwise fun a b => a.range.overlaps b.range = false))

/-- What stands in the place of the byte at an offset. -/
def fate (source : Bytes) (edits : List Edit) (i : Nat) : Bytes :=
  (edits.filter fun e => e.range.start = (i : Int)).flatMap (fun e => Utf8.encode e.text)
    ++ if edits.any (·.covers i) then [] else source[i]?.toList

/-- What stands in the place of the bytes from `start` up to `stop`. -/
def image (source : Bytes) (edits : List Edit) (start stop : Nat) : Bytes :=
  (List.range' start (stop - start)).flatMap (fate source edits)

variable {source : Bytes} {edits : List Edit}

/-! ### Images -/

/-- The image of a range is the image of its first part and that of the rest. -/
theorem image_append {i j k : Nat} (hij : i ≤ j) (hjk : j ≤ k) :
  image source edits i k = image source edits i j ++ image source edits j k
  := by
  have hrange : List.range' i (k - i) = List.range' i (j - i) ++ List.range' j (k - j) := by
    have happend := List.range'_append_1 (s := i) (m := j - i) (n := k - j)
    rw [show i + (j - i) = j by omega, show j - i + (k - j) = k - i by omega] at happend
    exact happend.symm
  simp only [image, hrange, List.flatMap_append]

theorem image_congr {edits' : List Edit} {i j : Nat}
    (h : ∀ k, i ≤ k → k < j → fate source edits k = fate source edits' k) :
  image source edits i j = image source edits' i j
  := by
  apply List.flatMap_congr
  intro k hk
  obtain ⟨hik, hkj⟩ := List.mem_range'_1.mp hk
  apply h k hik
  omega

theorem mem_image {i j : Nat} {byte : UInt8} :
  byte ∈ image source edits i j ↔ ∃ k, i ≤ k ∧ k < j ∧ byte ∈ fate source edits k
  := by
  simp only [image, List.mem_flatMap, List.mem_range'_1]
  constructor
  · rintro ⟨k, ⟨hik, hkj⟩, hbyte⟩
    exact ⟨k, hik, by omega, hbyte⟩
  · rintro ⟨k, hik, hkj, hbyte⟩
    exact ⟨k, ⟨hik, by omega⟩, hbyte⟩

/-- What stands in the place of a byte comes from an edit that starts there, or is the byte
itself. -/
theorem mem_fate {i : Nat} {byte : UInt8} :
  byte ∈ fate source edits i ↔
    (∃ e ∈ edits, e.range.start = i ∧ byte ∈ Utf8.encode e.text)
      ∨ (∀ e ∈ edits, e.covers i = false) ∧ source[i]? = some byte
  := by
  rw [fate, List.mem_append, List.mem_flatMap]
  constructor
  · rintro (⟨e, he, hbyte⟩ | hbyte)
    · obtain ⟨he, hstart⟩ := List.mem_filter.mp he
      exact .inl ⟨e, he, by simpa using hstart, hbyte⟩
    · right
      split at hbyte
      · simp at hbyte
      · rename_i hcovers
        exact ⟨by simpa using hcovers, by simpa using hbyte⟩
  · rintro (⟨e, he, hstart, hbyte⟩ | ⟨hcovers, hbyte⟩)
    · exact .inl ⟨e, List.mem_filter.mpr ⟨he, by simpa using hstart⟩, hbyte⟩
    · right
      rw [if_neg (by simpa using hcovers)]
      simp [hbyte]

/-- The bytes from an offset on, one by one. -/
theorem flatMap_getElem?_eq (source : Bytes) (i n : Nat) :
  (List.range' i n).flatMap (fun k => source[k]?.toList) = (source.drop i).take n
  := by
  induction n generalizing i with
  | zero => simp
  | succ n ih =>
    rw [List.range'_succ, List.flatMap_cons, ih]
    by_cases hi : i < source.length
    · rw [List.drop_eq_getElem_cons hi, List.take_succ_cons, List.getElem?_eq_getElem hi]
      rfl
    · rw [List.drop_eq_nil_of_le (by omega), List.drop_eq_nil_of_le (by omega),
        List.getElem?_eq_none (by omega)]
      simp

/-- Where no edit acts, a source stays as it is. -/
theorem image_of_untouched {i j : Nat}
    (h : ∀ e ∈ edits, ∀ k : Nat, i ≤ k → k < j → e.range.start ≠ k ∧ e.covers k = false) :
  image source edits i j = source.slice i j
  := by
  have hfate : ∀ k, i ≤ k → k < j → fate source edits k = source[k]?.toList := by
    intro k hik hkj
    have hstarts : edits.filter (fun e => e.range.start = (k : Int)) = [] := by
      apply List.filter_eq_nil_iff.mpr
      intro e he
      simpa using (h e he k hik hkj).1
    have hcovers : edits.any (·.covers k) = false := by
      simpa using fun e he => (h e he k hik hkj).2
    rw [fate, hstarts, hcovers]
    rfl
  rw [Bytes.slice, ← flatMap_getElem?_eq]
  apply List.flatMap_congr
  intro k hk
  obtain ⟨hik, hkj⟩ := List.mem_range'_1.mp hk
  apply hfate k hik
  omega

/-! ### Splicing -/

theorem place_natCast (source : Bytes) (i : Nat) :
  source.place i = i
  := by
  rw [Bytes.place, if_neg (by omega), Int.toNat_natCast]

/-- In the place of the bytes that an edit replaces stands its text, if no other edit starts
there. -/
theorem image_replaced {e : Edit} {left right : List Edit} {start stop : Nat}
    (hrange : e.range = ⟨start, stop⟩) (hproper : start < stop)
    (hothers : ∀ d ∈ left ++ right, ∀ k : Nat, start ≤ k → k < stop → d.range.start ≠ k) :
  image source (left ++ e :: right) start stop = Utf8.encode e.text
  := by
  have hcovers : ∀ k, start ≤ k → k < stop → (left ++ e :: right).any (·.covers k) := by
    intro k hstart hstop
    simp [Edit.covers, hrange, hstart, hstop]
  have hnone : ∀ others ⊆ left ++ right, ∀ k : Nat, start ≤ k → k < stop →
      others.filter (fun d => d.range.start = (k : Int)) = [] := by
    intro others hsubset k hstart hstop
    apply List.filter_eq_nil_iff.mpr
    intro d hd
    simpa using hothers d (hsubset hd) k hstart hstop
  have hleft := hnone left (List.subset_append_left _ _)
  have hright := hnone right (List.subset_append_right _ _)
  have hfirst : fate source (left ++ e :: right) start = Utf8.encode e.text := by
    rw [fate, hcovers start (Nat.le_refl _) hproper, List.filter_append, List.filter_cons,
      hleft start (Nat.le_refl _) hproper, hright start (Nat.le_refl _) hproper]
    simp [hrange]
  have hother : ∀ k ∈ List.range' (start + 1) (stop - start - 1),
      fate source (left ++ e :: right) k = [] := by
    intro k hk
    obtain ⟨hstart, hstop⟩ := List.mem_range'_1.mp hk
    have hne : (start : Int) ≠ k := by omega
    rw [fate, hcovers k (by omega) (by omega), List.filter_append, List.filter_cons,
      hleft k (by omega) (by omega), hright k (by omega) (by omega)]
    simp [hrange, hne]
  rw [image, show stop - start = stop - start - 1 + 1 by omega, List.range'_succ,
    List.flatMap_cons, hfirst, List.flatMap_eq_nil_iff.mpr hother, List.append_nil]

/-- An edit has no part in what stands to the right of it. -/
theorem image_cons_of_le {e : Edit} {rest : List Edit} {start stop : Nat}
    (hrange : e.range = ⟨start, stop⟩) (hproper : start < stop) (n : Nat) :
  image source (e :: rest) stop n = image source rest stop n
  := by
  apply image_congr
  intro k hk _
  have hne : (start : Int) ≠ k := by omega
  have hcovers : e.covers k = false := Edit.covers_eq_false_of_le (by
    rw [hrange]
    exact Int.ofNat_le.mpr hk)
  rw [fate, fate, List.filter_cons, List.any_cons, hcovers]
  simp [hrange, hne]

/-- Splicing edits that are in order and keep apart gives the image of the source. -/
theorem splice_eq_image {edits : List Edit} :
  ∀ {offset : Nat}, (∀ e ∈ edits, e.Fits source) →
    edits.Pairwise (fun a b => a.range.stop ≤ b.range.start) →
    (∀ e ∈ edits, (offset : Int) ≤ e.range.start) →
      splice source offset edits = image source edits offset source.length
  := by
  induction edits with
  | nil =>
    intro offset _ _ _
    rw [splice, place_natCast, image_of_untouched (by simp), Bytes.slice, List.take_of_length_le]
    simp
  | cons e rest ih =>
    intro offset hfits hsorted hoffset
    obtain ⟨start, stop, hrange, hproper, hstop⟩ := (hfits e List.mem_cons_self).exists_nat
    obtain ⟨hrest, hsorted⟩ := List.pairwise_cons.mp hsorted
    have hle : offset ≤ start := by
      have hle := hoffset e List.mem_cons_self
      rw [hrange] at hle
      exact Int.ofNat_le.mp hle
    have hright : ∀ d ∈ e :: rest, (start : Int) ≤ d.range.start := by
      intro d hd
      rcases List.mem_cons.mp hd with rfl | hd
      · simp [hrange]
      · have hle := hrest d hd
        rw [hrange] at hle
        simp only at hle
        omega
    have hbefore : image source (e :: rest) offset start = source.slice offset start := by
      apply image_of_untouched
      intro d hd k _ hk
      have hle := hright d hd
      exact ⟨by omega, Edit.covers_eq_false_of_lt (by omega)⟩
    have hafter : splice source stop rest = image source rest stop source.length := by
      apply ih (fun d hd => hfits d (List.mem_cons_of_mem _ hd)) hsorted
      intro d hd
      have := hrest d hd
      rw [hrange] at this
      exact this
    have hat : image source (e :: rest) start stop = Utf8.encode e.text := by
      rw [← List.nil_append (e :: rest)]
      apply image_replaced hrange hproper
      intro d hd k _ hk
      have hle := hrest d hd
      rw [hrange] at hle
      simp only at hle
      omega
    rw [splice, hrange, place_natCast, place_natCast, hafter, image_append hle (by omega),
      image_append (Nat.le_of_lt hproper) hstop, hbefore, hat, image_cons_of_le hrange hproper,
      List.append_assoc]

/-! ### The order of the edits -/

/-- Overlapping is mutual. -/
theorem overlaps_comm (a b : ByteRange) :
  a.overlaps b = b.overlaps a
  := by
  rw [ByteRange.overlaps, ByteRange.overlaps, Bool.and_comm]

/-- A range does not overlap one that starts after it. -/
theorem overlaps_eq_false_of_le {a b : ByteRange} (h : a.stop ≤ b.start) :
  a.overlaps b = false
  := by
  rw [ByteRange.overlaps, Bool.and_eq_false_iff, decide_eq_false_iff_not, decide_eq_false_iff_not]
  omega

theorem perm_inOrder (edits : List Edit) :
  (inOrder edits).Perm edits
  := List.mergeSort_perm edits _

/-- The order of the starts is transitive. -/
theorem start_le_trans (a b c : Edit) :
  decide (a.range.start ≤ b.range.start) → decide (b.range.start ≤ c.range.start) →
    decide (a.range.start ≤ c.range.start)
  := by
  simp only [decide_eq_true_eq]
  omega

/-- The order of the starts is total. -/
theorem start_le_total (a b : Edit) :
  decide (a.range.start ≤ b.range.start) || decide (b.range.start ≤ a.range.start)
  := by
  simp only [Bool.or_eq_true, decide_eq_true_eq]
  omega

/-- Edits are put in the order of their starts. -/
theorem pairwise_start_inOrder (edits : List Edit) :
  (inOrder edits).Pairwise fun a b => a.range.start ≤ b.range.start
  := by
  have hsorted := List.pairwise_mergeSort start_le_trans start_le_total edits
  exact hsorted.imp fun h => of_decide_eq_true h

/-- Edits that start at the same byte keep their order. -/
theorem filter_start_inOrder (edits : List Edit) (i : Nat) :
  (inOrder edits).filter (fun e => e.range.start = (i : Int))
    = edits.filter fun e => e.range.start = (i : Int)
  := by
  symm
  apply List.Sublist.eq_of_length
  · have hsorted : (edits.filter fun e => e.range.start = (i : Int)).Pairwise
        fun a b => decide (a.range.start ≤ b.range.start) := by
      apply List.pairwise_of_forall_mem_list
      intro a ha b hb
      have ha := (List.mem_filter.mp ha).2
      have hb := (List.mem_filter.mp hb).2
      simp only [decide_eq_true_eq] at ha hb ⊢
      omega
    have hsublist := List.sublist_mergeSort start_le_trans start_le_total hsorted
      List.filter_sublist
    simpa [inOrder] using hsublist.filter fun e => e.range.start = (i : Int)
  · exact ((perm_inOrder edits).filter _).length_eq.symm

/-- The fate of a byte does not change when the edits are put in order. -/
theorem fate_inOrder (source : Bytes) (edits : List Edit) (i : Nat) :
  fate source (inOrder edits) i = fate source edits i
  := by
  have hcovers : (inOrder edits).any (·.covers i) = edits.any (·.covers i) := by
    rw [Bool.eq_iff_iff, List.any_eq_true, List.any_eq_true]
    simp only [(perm_inOrder edits).mem_iff]
  rw [fate, fate, filter_start_inOrder, hcovers]

/-- Edits that keep apart stay apart in another order. -/
theorem Apart.perm {edits' : List Edit} (h : Apart edits) (hperm : edits'.Perm edits) :
  Apart edits'
  := by
  apply (hperm.pairwise_iff _).mpr h
  intro a b h
  rw [overlaps_comm, h]

/-- Edits that keep apart follow each other when they are in the order of their starts. -/
theorem Apart.pairwise_stop_le (hapart : Apart edits) (hfits : ∀ e ∈ edits, e.Fits source)
    (hsorted : edits.Pairwise fun a b => a.range.start ≤ b.range.start) :
  edits.Pairwise fun a b => a.range.stop ≤ b.range.start
  := by
  apply (hsorted.and hapart).imp_of_mem
  intro a b _ hb ⟨hle, hne⟩
  have hproper := (hfits b hb).proper
  simp only [ByteRange.overlaps, Bool.and_eq_false_iff, decide_eq_false_iff_not] at hne
  omega

/-- There is only one order from the lowest start to the highest for edits that keep apart. -/
theorem eq_inOrder (hfits : ∀ e ∈ edits, e.Fits source) (hapart : Apart edits) {order : List Edit}
    (hperm : order.Perm edits)
    (hsorted : order.Pairwise fun a b => a.range.start ≤ b.range.start) :
  order = inOrder edits
  := by
  have hfits' : ∀ e ∈ inOrder edits, e.Fits source :=
    fun e he => hfits e ((perm_inOrder edits).mem_iff.mp he)
  have hfits'' : ∀ e ∈ order, e.Fits source := fun e he => hfits e (hperm.mem_iff.mp he)
  have hordered := (hapart.perm (perm_inOrder edits)).pairwise_stop_le hfits'
    (pairwise_start_inOrder edits)
  have hordered' := (hapart.perm hperm).pairwise_stop_le hfits'' hsorted
  apply (hperm.trans (perm_inOrder edits).symm).eq_of_pairwise _ hordered' hordered
  intro a b ha hb hab hba
  have hproper := (hfits' b hb).proper
  have hproper' := (hfits'' a ha).proper
  omega

/-- Carrying out edits that keep apart in order gives the image of the source. -/
theorem splice_inOrder (hfits : ∀ e ∈ edits, e.Fits source) (hapart : Apart edits) :
  splice source 0 (inOrder edits) = image source edits 0 source.length
  := by
  have hfits' : ∀ e ∈ inOrder edits, e.Fits source :=
    fun e he => hfits e ((perm_inOrder edits).mem_iff.mp he)
  have hordered := (hapart.perm (perm_inOrder edits)).pairwise_stop_le hfits'
    (pairwise_start_inOrder edits)
  rw [← image_congr fun k _ _ => fate_inOrder source edits k]
  apply splice_eq_image hfits' hordered
  intro e he
  exact (hfits' e he).start

/-- The order of edits that keep apart does not matter. -/
theorem image_of_perm (hfits : ∀ e ∈ edits, e.Fits source) (hapart : Apart edits)
    {edits' : List Edit} (hperm : edits'.Perm edits) :
  image source edits' 0 source.length = image source edits 0 source.length
  := by
  have hfits' : ∀ e ∈ edits', e.Fits source := fun e he => hfits e (hperm.mem_iff.mp he)
  have heq : inOrder edits' = inOrder edits :=
    eq_inOrder hfits hapart ((perm_inOrder edits').trans hperm) (pairwise_start_inOrder edits')
  rw [← splice_inOrder hfits hapart, ← splice_inOrder hfits' (hapart.perm hperm), heq]

/-! ### Fixes that are applied together -/

theorem overlaps_symm (a b : Fix) :
  a.overlaps b = b.overlaps a
  := by
  rw [Bool.eq_iff_iff]
  simp only [overlaps, List.any_eq_true]
  constructor
  all_goals
    rintro ⟨mine, hmine, theirs, htheirs, h⟩
    exact ⟨theirs, htheirs, mine, hmine, by rw [overlaps_comm, h]⟩

/-- No two of the fixes that are applied overlap. -/
theorem pairwise_sift {fixes : List Fix} :
  ∀ {kept : List Fix}, kept.Pairwise (fun a b => a.overlaps b = false) →
    (kept ++ (sift kept fixes).1).Pairwise fun a b => a.overlaps b = false
  := by
  induction fixes with
  | nil => simp [sift]
  | cons fix rest ih =>
    intro kept hkept
    rw [sift]
    split
    · exact ih hkept
    · rename_i hnone
      have hnone : ∀ other ∈ kept, fix.overlaps other = false := by simpa using hnone
      have hnew : (kept ++ [fix]).Pairwise fun a b => a.overlaps b = false := by
        apply List.pairwise_append.mpr
        refine ⟨hkept, List.pairwise_singleton _ _, ?_⟩
        intro a ha b hb
        rw [List.mem_singleton.mp hb, overlaps_symm]
        exact hnone a ha
      simpa using ih hnew

theorem sift_sublist {fixes : List Fix} :
  ∀ {kept : List Fix}, (sift kept fixes).1.Sublist fixes
  := by
  induction fixes with
  | nil => simp [sift]
  | cons fix rest ih =>
    intro kept
    rw [sift]
    split
    · exact ih.cons _
    · exact ih.cons_cons _

/-- The edits that are carried out. -/
def carriedOut (source : Bytes) (fixes : List Fix) : List Edit :=
  (applyAll source fixes).applied.flatMap (·.edits)

theorem mem_carriedOut {fixes : List Fix} {e : Edit} (h : e ∈ carriedOut source fixes) :
  ∃ fix ∈ fixes, e ∈ fix.edits
  := by
  obtain ⟨fix, hfix, he⟩ := List.mem_flatMap.mp h
  exact ⟨fix, sift_sublist.mem hfix, he⟩

/-- The edits that are carried out fit, if those of each fix do. -/
theorem fits_carriedOut {fixes : List Fix} (h : ∀ fix ∈ fixes, ∀ e ∈ fix.edits, e.Fits source) :
  ∀ e ∈ carriedOut source fixes, e.Fits source
  := by
  intro e he
  obtain ⟨fix, hfix, he⟩ := mem_carriedOut he
  exact h fix hfix e he

/-- The edits that are carried out keep apart, if those of each fix do. -/
theorem apart_carriedOut {fixes : List Fix} (h : ∀ fix ∈ fixes, Apart fix.edits) :
  Apart (carriedOut source fixes)
  := by
  apply List.pairwise_flatMap.mpr
  constructor
  · intro fix hfix
    exact h fix (sift_sublist.mem hfix)
  · apply (pairwise_sift List.Pairwise.nil).imp
    intro a b hab mine hmine theirs htheirs
    simp only [overlaps, List.any_eq_false, Bool.not_eq_true] at hab
    exact hab mine hmine theirs htheirs

/-- Applying fixes whose edits fit gives the image of the source under the edits that are carried
out. -/
theorem source_applyAll {fixes : List Fix} (hfits : ∀ fix ∈ fixes, ∀ e ∈ fix.edits, e.Fits source)
    (hapart : ∀ fix ∈ fixes, Apart fix.edits) :
  (applyAll source fixes).source = image source (carriedOut source fixes) 0 source.length
  := by
  have hapart' : Apart (carriedOut source fixes) := apart_carriedOut hapart
  exact splice_inOrder (fits_carriedOut hfits) hapart'

end Fix

end SingleUse
