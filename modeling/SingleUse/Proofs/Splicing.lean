import SingleUse.Proofs.Sweep

/-!
# One edit at a time

The sweep against the plain way to carry out edits: one at a time, each on the bytes that the one
before it has left.  An edit does not move the bytes to the left of it, so if the edits are taken
from the last to the first, the offsets of each still mean what they meant in the source.  The two
ways give the same bytes if the edits fit and keep apart.
-/

namespace SingleUse

/-- A byte string after a single edit. -/
def Edit.perform (e : Edit) (bytes : Bytes) : Bytes :=
  bytes.take (bytes.place e.range.start) ++ Utf8.encode e.text
    ++ bytes.drop (bytes.place e.range.stop)

namespace Fix

variable {source : Bytes} {edits : List Edit}

/-! ### The parts of an image -/

/-- An edit that does not overlap another one does not start inside it. -/
theorem start_ne_of_apart {d e : Edit} (hd : d.Fits source)
    (hapart : d.range.overlaps e.range = false) {k : Nat} (hstart : e.range.start ≤ k)
    (hstop : k < e.range.stop) :
  d.range.start ≠ k
  := by
  have hproper := hd.proper
  simp only [ByteRange.overlaps, Bool.and_eq_false_iff, decide_eq_false_iff_not] at hapart
  omega

/-- In the place of the bytes that one of the edits replaces stands its text. -/
theorem image_of_mem (hfits : ∀ e ∈ edits, e.Fits source) (hapart : Apart edits) {e : Edit}
    (he : e ∈ edits) :
  image source edits e.range.start.toNat e.range.stop.toNat = Utf8.encode e.text
  := by
  obtain ⟨start, stop, hrange, hproper, -⟩ := (hfits e he).exists_nat
  obtain ⟨left, right, rfl⟩ := List.append_of_mem he
  obtain ⟨-, hright, hleft⟩ := List.pairwise_append.mp hapart
  simp only [hrange, Int.toNat_natCast]
  apply image_replaced hrange hproper
  intro d hd k hstart hstop
  have hd' : d.Fits source ∧ d.range.overlaps e.range = false := by
    rcases List.mem_append.mp hd with hd | hd
    · exact ⟨hfits d (by simp [hd]), hleft d hd e List.mem_cons_self⟩
    · have hapart := (List.pairwise_cons.mp hright).1 d hd
      exact ⟨hfits d (by simp [hd]), overlaps_comm e.range d.range ▸ hapart⟩
  apply start_ne_of_apart hd'.1 hd'.2
  · rw [hrange]
    exact Int.ofNat_le.mpr hstart
  · rw [hrange]
    exact Int.ofNat_lt.mpr hstop

/-- Bytes that no edit replaces stay as they are, once each and in their order. -/
theorem image_of_uncovered (hfits : ∀ e ∈ edits, e.Fits source) {i j : Nat}
    (h : ∀ e ∈ edits, ∀ k : Nat, i ≤ k → k < j → e.covers k = false) :
  image source edits i j = source.slice i j
  := by
  apply image_of_untouched
  intro e he k hik hkj
  have huncovered := h e he k hik hkj
  refine ⟨?_, huncovered⟩
  -- the byte at which an edit starts is one that it replaces
  rintro hstart
  have hproper := (hfits e he).proper
  simp only [Edit.covers, Bool.and_eq_false_iff, decide_eq_false_iff_not] at huncovered
  omega

/-! ### From the last edit to the first -/

/-- Carrying out edits from the last to the first leaves what is to the left of all of them, and
goes on with the sweep. -/
theorem foldr_perform {edits : List Edit} :
  ∀ offset : Nat, (∀ e ∈ edits, e.Fits source) →
    edits.Pairwise (fun a b => a.range.stop ≤ b.range.start) →
    (∀ e ∈ edits, (offset : Int) ≤ e.range.start) →
      edits.foldr Edit.perform source = source.take offset ++ splice source offset edits
  := by
  induction edits with
  | nil =>
    intro offset _ _ _
    rw [List.foldr_nil, splice, place_natCast, List.take_append_drop]
  | cons e rest ih =>
    intro offset hfits hordered hoffset
    obtain ⟨start, stop, hrange, hproper, hstop⟩ := (hfits e List.mem_cons_self).exists_nat
    obtain ⟨hrest, hordered⟩ := List.pairwise_cons.mp hordered
    have hle : offset ≤ start := by
      have hle := hoffset e List.mem_cons_self
      rw [hrange] at hle
      exact Int.ofNat_le.mp hle
    have hright : rest.foldr Edit.perform source = source.take stop ++ splice source stop rest := by
      apply ih stop (fun d hd => hfits d (List.mem_cons_of_mem _ hd)) hordered
      intro d hd
      have hle := hrest d hd
      rwa [hrange] at hle
    have hlength : (source.take stop).length = stop := by
      rw [List.length_take]
      omega
    have hbefore : (source.take stop ++ splice source stop rest).take start
        = source.take start := by
      rw [List.take_append_of_le_length (by omega), List.take_take, Nat.min_eq_left (by omega)]
    have hafter : (source.take stop ++ splice source stop rest).drop stop
        = splice source stop rest := by
      rw [List.drop_append_of_le_length (by omega), List.drop_eq_nil_of_le (by omega),
        List.nil_append]
    have hslice : source.take start = source.take offset ++ source.slice offset start := by
      rw [Bytes.slice, ← List.take_add, Nat.add_sub_cancel' hle]
    rw [List.foldr_cons, hright, Edit.perform, splice, hrange]
    simp only [place_natCast]
    rw [hbefore, hafter, hslice]
    simp only [List.append_assoc]

/-- Carrying out edits that keep apart one at a time, from the one with the highest start to the
one with the lowest, has the same result as the sweep. -/
theorem foldl_perform (hfits : ∀ e ∈ edits, e.Fits source) (hapart : Apart edits)
    {order : List Edit} (hperm : order.Perm edits)
    (hdown : order.Pairwise fun a b => b.range.start ≤ a.range.start) :
  order.foldl (fun bytes e => e.perform bytes) source = splice source 0 (inOrder edits)
  := by
  have heq : order.reverse = inOrder edits :=
    eq_inOrder hfits hapart (order.reverse_perm.trans hperm) (List.pairwise_reverse.mpr hdown)
  have hfits' : ∀ e ∈ inOrder edits, e.Fits source :=
    fun e he => hfits e ((perm_inOrder edits).mem_iff.mp he)
  have hordered := (hapart.perm (perm_inOrder edits)).pairwise_stop_le hfits'
    (pairwise_start_inOrder edits)
  rw [← List.foldr_reverse, heq]
  have hfold := foldr_perform 0 hfits' hordered fun e he => (hfits' e he).start
  simpa using hfold

/-! ### Applying fixes -/

/-- Applying fixes is carrying out the edits of those that are applied, one at a time from the
highest start to the lowest.  So the result is the source byte for byte, with the text of each of
these edits in the place of what it replaces. -/
theorem source_applyAll_eq_foldl_perform {fixes : List Fix}
    (hfits : ∀ fix ∈ fixes, ∀ e ∈ fix.edits, e.Fits source)
    (hapart : ∀ fix ∈ fixes, Apart fix.edits) :
  (∀ order : List Edit, order.Perm (carriedOut source fixes) →
      order.Pairwise (fun a b => b.range.start ≤ a.range.start) →
        (applyAll source fixes).source = order.foldl (fun bytes e => e.perform bytes) source)
    ∧ (applyAll source fixes).source = image source (carriedOut source fixes) 0 source.length
    ∧ (∀ e ∈ carriedOut source fixes,
        image source (carriedOut source fixes) e.range.start.toNat e.range.stop.toNat
          = Utf8.encode e.text)
    ∧ ∀ i j : Nat, (∀ e ∈ carriedOut source fixes, ∀ k : Nat, i ≤ k → k < j → e.covers k = false) →
        image source (carriedOut source fixes) i j = source.slice i j
  := by
  have hfits' := fits_carriedOut hfits
  have hapart' : Apart (carriedOut source fixes) := apart_carriedOut hapart
  refine ⟨?_, source_applyAll hfits hapart, ?_, ?_⟩
  · intro order hperm hdown
    exact (foldl_perform hfits' hapart' hperm hdown).symm
  · intro e he
    exact image_of_mem hfits' hapart' he
  · intro i j
    exact image_of_uncovered hfits'

/-- Fixes for `abcdefgh` whose edits stand between those of one another; the second one overlaps
the first and is deferred. -/
def interleaved : List Fix := [
  ⟨"a", [⟨⟨4, 5⟩, "[1]"⟩, ⟨⟨0, 2⟩, ""⟩]⟩,
  ⟨"b", [⟨⟨1, 3⟩, ""⟩, ⟨⟨7, 8⟩, "2"⟩]⟩,
  ⟨"c", [⟨⟨2, 3⟩, "é"⟩, ⟨⟨5, 6⟩, ""⟩]⟩]

/-- The edits of the first and the third of these fixes, taken from the last to the first, turn
`abcdefgh` into `éd[1]gh`. -/
theorem source_applyAll_interleaved :
  ∃ order : List Edit, (∀ fix ∈ interleaved, ∀ e ∈ fix.edits, e.Fits (Utf8.encode "abcdefgh"))
    ∧ (∀ fix ∈ interleaved, Apart fix.edits)
    ∧ order.map (·.range.start) = [5, 4, 2, 0]
    ∧ order.Perm (carriedOut (Utf8.encode "abcdefgh") interleaved)
    ∧ (applyAll (Utf8.encode "abcdefgh") interleaved).source = Utf8.encode "éd[1]gh"
  := by
  have hfits : ∀ fix ∈ interleaved, ∀ e ∈ fix.edits, e.Fits (Utf8.encode "abcdefgh") := by
    decide +kernel
  have hapart : ∀ fix ∈ interleaved, Apart fix.edits := by decide +kernel
  use [⟨⟨5, 6⟩, ""⟩, ⟨⟨4, 5⟩, "[1]"⟩, ⟨⟨2, 3⟩, "é"⟩, ⟨⟨0, 2⟩, ""⟩], hfits, hapart, rfl
  have hperm : [⟨⟨5, 6⟩, ""⟩, ⟨⟨4, 5⟩, "[1]"⟩, ⟨⟨2, 3⟩, "é"⟩, ⟨⟨0, 2⟩, ""⟩].Perm
      (carriedOut (Utf8.encode "abcdefgh") interleaved) := by
    decide +kernel
  use hperm
  rw [(source_applyAll_eq_foldl_perform hfits hapart).1 _ hperm (by decide)]
  decide +kernel

end Fix

end SingleUse
