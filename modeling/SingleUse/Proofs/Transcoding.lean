import SingleUse.Text.Utf8
import Mathlib.Data.List.Forall2
import Mathlib.Tactic.Common

/-!
# Decoding and encoding

A byte string without broken chunks is the encoding of the text that it is decoded to.  Each chunk
takes the bytes from the front, and one that encodes a character consists of just the bytes that
encode it: the bounds on the followers of a lead byte leave no second way to write a character.
They leave each character one way to be written, too, so a text that is encoded can be decoded.
-/

namespace SingleUse.Utf8

/-! ### The bytes of a chunk -/

/-- Whether a byte stays within bounds. -/
def Within (bounds : UInt8 × UInt8) (byte : UInt8) : Prop := bounds.1 ≤ byte ∧ byte ≤ bounds.2

theorem matching_isPrefix (bounds : List (UInt8 × UInt8)) (bytes : Bytes) :
  matching bounds bytes <+: bytes
  := by
  fun_induction matching bounds bytes with
  | case1 low high bounds byte bytes hwithin ih => exact (List.prefix_cons_inj byte).mpr ih
  | case2 => exact List.nil_prefix
  | case3 => exact List.nil_prefix

/-- If no bound is left over, the bytes that match are within the bounds one by one. -/
theorem forall₂_matching {bounds : List (UInt8 × UInt8)} {bytes : Bytes}
    (h : (matching bounds bytes).length = bounds.length) :
  List.Forall₂ Within bounds (matching bounds bytes)
  := by
  fun_induction matching bounds bytes with
  | case1 low high bounds byte bytes hwithin ih =>
    exact List.Forall₂.cons (R := Within) hwithin (ih (Nat.succ.inj h))
  | case2 => simp at h
  | case3 bounds bytes hnone =>
    obtain rfl : bounds = [] := List.length_eq_zero_iff.mp h.symm
    exact List.Forall₂.nil

/-- A chunk takes its bytes from the front. -/
theorem bytes_first_append (lead : UInt8) (rest : Bytes) :
  (Chunk.first lead rest).bytes ++ rest.drop ((Chunk.first lead rest).bytes.length - 1)
    = lead :: rest
  := by
  have htail : ∀ tail : Bytes, tail <+: rest →
      lead :: tail ++ rest.drop ((lead :: tail).length - 1) = lead :: rest := by
    rintro tail ⟨after, rfl⟩
    simp
  unfold Chunk.first
  split
  · exact htail [] List.nil_prefix
  · simp only
    split_ifs
    all_goals exact htail _ (matching_isPrefix _ _)

/-! ### Characters -/

/-- The number of the character that a valid number stands for. -/
theorem toNat_val_ofNat {n : Nat} (h : n.isValidChar) :
  (Char.ofNat n).val.toNat = n
  := by
  rw [Char.ofNat, dif_pos h]
  rfl

theorem utf8EncodeChar_one {lead : UInt8} (hlead : lead.toNat < 0x80) :
  String.utf8EncodeChar (assemble lead []) = [lead]
  := by
  have hvalid : lead.toNat.isValidChar := by left; omega
  have hvalue : (assemble lead []).val.toNat = lead.toNat := toNat_val_ofNat hvalid
  simp only [String.utf8EncodeChar, hvalue]
  rw [if_pos (by omega), UInt8.ofNat_toNat]

theorem utf8EncodeChar_two {lead b : UInt8} (hlead : 0xC2 ≤ lead.toNat ∧ lead.toNat < 0xE0)
    (hb : 0x80 ≤ b.toNat ∧ b.toNat ≤ 0xBF) :
  String.utf8EncodeChar (assemble lead [b]) = [lead, b]
  := by
  have hassemble : assemble lead [b] = Char.ofNat (lead.toNat % 0x20 * 0x40 + b.toNat % 0x40) := rfl
  rw [hassemble]
  generalize hn : lead.toNat % 0x20 * 0x40 + b.toNat % 0x40 = n
  have hvalid : n.isValidChar := by left; omega
  simp only [String.utf8EncodeChar, toNat_val_ofNat hvalid]
  rw [if_neg (by omega), if_pos (by omega)]
  simp only [List.cons.injEq, ← UInt8.toNat_inj, UInt8.toNat_ofNat', and_true]
  omega

/-- The lowest followers of `0xE0` are left out since they encode what two bytes encode, and the
highest ones of `0xED` since they encode surrogates. -/
theorem utf8EncodeChar_three {lead b c : UInt8} (hlead : 0xE0 ≤ lead.toNat ∧ lead.toNat < 0xF0)
    (hb : 0x80 ≤ b.toNat ∧ b.toNat ≤ 0xBF) (hc : 0x80 ≤ c.toNat ∧ c.toNat ≤ 0xBF)
    (hlong : lead.toNat = 0xE0 → 0xA0 ≤ b.toNat)
    (hsurrogate : lead.toNat = 0xED → b.toNat < 0xA0) :
  String.utf8EncodeChar (assemble lead [b, c]) = [lead, b, c]
  := by
  have hassemble : assemble lead [b, c] = Char.ofNat
      ((lead.toNat % 0x10 * 0x40 + b.toNat % 0x40) * 0x40 + c.toNat % 0x40) := rfl
  rw [hassemble]
  generalize hn : (lead.toNat % 0x10 * 0x40 + b.toNat % 0x40) * 0x40 + c.toNat % 0x40 = n
  have hvalid : n.isValidChar := by
    unfold Nat.isValidChar
    omega
  simp only [String.utf8EncodeChar, toNat_val_ofNat hvalid]
  rw [if_neg (by omega), if_neg (by omega), if_pos (by omega)]
  simp only [List.cons.injEq, ← UInt8.toNat_inj, UInt8.toNat_ofNat', and_true]
  omega

/-- The lowest followers of `0xF0` are left out since they encode what three bytes encode, and the
highest ones of `0xF4` since they encode no character. -/
theorem utf8EncodeChar_four {lead b c d : UInt8} (hlead : 0xF0 ≤ lead.toNat ∧ lead.toNat ≤ 0xF4)
    (hb : 0x80 ≤ b.toNat ∧ b.toNat ≤ 0xBF) (hc : 0x80 ≤ c.toNat ∧ c.toNat ≤ 0xBF)
    (hd : 0x80 ≤ d.toNat ∧ d.toNat ≤ 0xBF) (hlong : lead.toNat = 0xF0 → 0x90 ≤ b.toNat)
    (hlarge : lead.toNat = 0xF4 → b.toNat < 0x90) :
  String.utf8EncodeChar (assemble lead [b, c, d]) = [lead, b, c, d]
  := by
  have hassemble : assemble lead [b, c, d] = Char.ofNat
      (((lead.toNat % 0x08 * 0x40 + b.toNat % 0x40) * 0x40 + c.toNat % 0x40) * 0x40
        + d.toNat % 0x40) := rfl
  rw [hassemble]
  generalize hn : ((lead.toNat % 0x08 * 0x40 + b.toNat % 0x40) * 0x40 + c.toNat % 0x40) * 0x40
    + d.toNat % 0x40 = n
  have hvalid : n.isValidChar := by
    unfold Nat.isValidChar
    omega
  simp only [String.utf8EncodeChar, toNat_val_ofNat hvalid]
  rw [if_neg (by omega), if_neg (by omega), if_neg (by omega)]
  simp only [List.cons.injEq, ← UInt8.toNat_inj, UInt8.toNat_ofNat', and_true]
  omega

/-- A lead byte with followers within its bounds is the encoding of a character. -/
theorem utf8EncodeChar_assemble {lead : UInt8} {bounds : List (UInt8 × UInt8)} {tail : Bytes}
    (hlead : followers lead = some bounds) (htail : List.Forall₂ Within bounds tail) :
  String.utf8EncodeChar (assemble lead tail) = lead :: tail
  := by
  unfold followers at hlead
  simp only [UInt8.lt_iff_toNat_lt, ← UInt8.toNat_inj, UInt8.reduceToNat] at hlead
  split_ifs at hlead
  all_goals cases hlead
  all_goals
    simp only [List.forall₂_cons_left_iff, List.forall₂_nil_left_iff, Within,
      UInt8.le_iff_toNat_le, UInt8.reduceToNat] at htail
  · obtain rfl := htail
    apply utf8EncodeChar_one
    omega
  · obtain ⟨b, _, hb, rfl, rfl⟩ := htail
    apply utf8EncodeChar_two
    all_goals omega
  -- the leads `0xE0` and `0xED`, and the others that start three bytes
  iterate 3
    · obtain ⟨b, _, hb, ⟨c, _, hc, rfl, rfl⟩, rfl⟩ := htail
      apply utf8EncodeChar_three
      all_goals omega
  -- the lead `0xF0`, those between, and the lead `0xF4`
  iterate 3
    · obtain ⟨b, _, hb, ⟨c, _, hc, ⟨d, _, hd, rfl, rfl⟩, rfl⟩, rfl⟩ := htail
      apply utf8EncodeChar_four
      all_goals omega

/-- A chunk that encodes a character consists of the bytes that encode it. -/
theorem bytes_first {lead : UInt8} {rest : Bytes} {c : Char}
    (h : (Chunk.first lead rest).content = .ok c) :
  (Chunk.first lead rest).bytes = String.utf8EncodeChar c
  := by
  unfold Chunk.first at h ⊢
  split at h
  · cases h
  · rename_i bounds hlead
    simp only at h ⊢
    split_ifs at h ⊢ with hlength
    cases h
    exact (utf8EncodeChar_assemble hlead (forall₂_matching hlength)).symm

/-! ### Whole byte strings -/

/-- Cutting a byte string into chunks loses nothing. -/
theorem flatMap_bytes_chunks (bytes : Bytes) :
  (chunks bytes).flatMap (·.bytes) = bytes
  := by
  fun_induction chunks bytes with
  | case1 => rfl
  | case2 lead rest chunk ih => rw [List.flatMap_cons, ih, bytes_first_append]

theorem bytes_of_mem_chunks {bytes : Bytes} {chunk : Chunk} (hchunk : chunk ∈ chunks bytes)
    {c : Char} (h : chunk.content = .ok c) :
  chunk.bytes = String.utf8EncodeChar c
  := by
  fun_induction chunks bytes with
  | case1 => simp at hchunk
  | case2 lead rest first ih =>
    rcases List.mem_cons.mp hchunk with rfl | hchunk
    · exact bytes_first h
    · exact ih hchunk

/-- If decoding succeeds, every chunk encodes a character. -/
theorem map_content_of_decodeFrom {chunks : List Chunk} :
  ∀ {position : Nat} {text : List Char}, decodeFrom position chunks = .ok text →
    chunks.map (·.content) = text.map .ok
  := by
  induction chunks with
  | nil =>
    intro position text h
    cases h
    rfl
  | cons chunk rest ih =>
    intro position text h
    rw [decodeFrom] at h
    cases hcontent : chunk.content with
    | error fault =>
      rw [hcontent] at h
      cases h
    | ok c =>
      rw [hcontent] at h
      cases hrest : decodeFrom (position + chunk.bytes.length) rest with
      | error e =>
        simp only [hrest] at h
        cases h
      | ok text' =>
        simp only [hrest] at h
        cases h
        rw [List.map_cons, List.map_cons, hcontent, ih hrest]

/-- The text of a byte string that is decoded strictly. -/
theorem decode_inv {bytes : Bytes} {text : String} (h : decode bytes = .ok text) :
  (chunks bytes).map (·.content) = text.toList.map .ok
  := by
  rw [decode] at h
  cases hchars : decodeFrom 0 (chunks bytes) with
  | error e =>
    rw [hchars] at h
    cases h
  | ok chars =>
    rw [hchars] at h
    cases h
    rw [String.toList_ofList, map_content_of_decodeFrom hchars]

theorem decodeLossy_eq (bytes : Bytes) :
  decodeLossy bytes
    = String.ofList ((chunks bytes).map fun chunk => chunk.content.toOption.getD replacement)
  := by
  rw [decodeLossy]
  apply congrArg String.ofList
  apply List.map_congr_left
  intro chunk _
  cases chunk.content <;> rfl

/-- Where strict decoding succeeds, both ways of decoding agree. -/
theorem decodeLossy_of_decode {bytes : Bytes} {text : String} (h : decode bytes = .ok text) :
  decodeLossy bytes = text
  := by
  have hcontents := congrArg (List.map (·.toOption.getD replacement)) (decode_inv h)
  rw [List.map_map, List.map_map] at hcontents
  rw [decodeLossy_eq, ← String.ofList_toList (s := text)]
  exact congrArg String.ofList (hcontents.trans (List.map_id text.toList))

/-- A byte string that can be decoded is the encoding of its text. -/
theorem encode_of_decode {bytes : Bytes} {text : String} (h : decode bytes = .ok text) :
  encode text = bytes
  := by
  have hcontents := congrArg (List.flatMap (·.toOption.elim [] String.utf8EncodeChar))
    (decode_inv h)
  rw [List.flatMap_map, List.flatMap_map] at hcontents
  calc encode text
    _ = (chunks bytes).flatMap (·.content.toOption.elim [] String.utf8EncodeChar) :=
          hcontents.symm
    _ = (chunks bytes).flatMap (·.bytes) := by
          apply List.flatMap_congr
          intro chunk hchunk
          have hcontent : chunk.content ∈ text.toList.map Except.ok :=
            decode_inv h ▸ List.mem_map_of_mem hchunk
          obtain ⟨c, -, hc⟩ := List.mem_map.mp hcontent
          rw [← hc, bytes_of_mem_chunks hchunk hc.symm]
          rfl
    _ = bytes := flatMap_bytes_chunks bytes

/-! ### Texts -/

/-- Bytes that are within the bounds one by one match, whatever follows. -/
theorem matching_append {bounds : List (UInt8 × UInt8)} {tail : Bytes}
    (h : List.Forall₂ Within bounds tail) (rest : Bytes) :
  matching bounds (tail ++ rest) = tail
  := by
  induction h with
  | nil => cases rest <;> rfl
  | @cons bound byte bounds tail hwithin _ ih =>
    have hwithin : bound.1 ≤ byte ∧ byte ≤ bound.2 := hwithin
    rw [List.cons_append, matching, if_pos hwithin, ih]

theorem exists_followers_one {lead : UInt8} (hlead : lead.toNat < 0x80) :
  ∃ bounds, followers lead = some bounds ∧ List.Forall₂ Within bounds []
  := by
  use []
  rw [followers, if_pos (UInt8.lt_iff_toNat_lt.mpr hlead)]
  exact ⟨rfl, List.Forall₂.nil⟩

theorem exists_followers_two {lead b : UInt8} (hlead : 0xC2 ≤ lead.toNat ∧ lead.toNat < 0xE0)
    (hb : 0x80 ≤ b.toNat ∧ b.toNat ≤ 0xBF) :
  ∃ bounds, followers lead = some bounds ∧ List.Forall₂ Within bounds [b]
  := by
  use [(0x80, 0xBF)]
  constructor
  · simp only [followers, UInt8.lt_iff_toNat_lt, UInt8.reduceToNat]
    rw [if_neg (by omega), if_neg (by omega), if_pos (by omega)]
  · simpa [Within, UInt8.le_iff_toNat_le] using hb

theorem exists_followers_three {lead b c : UInt8} (hlead : 0xE0 ≤ lead.toNat ∧ lead.toNat < 0xF0)
    (hb : 0x80 ≤ b.toNat ∧ b.toNat ≤ 0xBF) (hc : 0x80 ≤ c.toNat ∧ c.toNat ≤ 0xBF)
    (hlong : lead.toNat = 0xE0 → 0xA0 ≤ b.toNat)
    (hsurrogate : lead.toNat = 0xED → b.toNat < 0xA0) :
  ∃ bounds, followers lead = some bounds ∧ List.Forall₂ Within bounds [b, c]
  := by
  simp only [followers, UInt8.lt_iff_toNat_lt, ← UInt8.toNat_inj, UInt8.reduceToNat]
  rw [if_neg (by omega), if_neg (by omega), if_neg (by omega)]
  split_ifs
  all_goals first
    | omega
    | refine ⟨_, rfl, ?_⟩
      simp only [List.forall₂_cons, List.Forall₂.nil, and_true, Within, UInt8.le_iff_toNat_le,
        UInt8.reduceToNat]
      omega

theorem exists_followers_four {lead b c d : UInt8} (hlead : 0xF0 ≤ lead.toNat ∧ lead.toNat ≤ 0xF4)
    (hb : 0x80 ≤ b.toNat ∧ b.toNat ≤ 0xBF) (hc : 0x80 ≤ c.toNat ∧ c.toNat ≤ 0xBF)
    (hd : 0x80 ≤ d.toNat ∧ d.toNat ≤ 0xBF) (hlong : lead.toNat = 0xF0 → 0x90 ≤ b.toNat)
    (hlarge : lead.toNat = 0xF4 → b.toNat < 0x90) :
  ∃ bounds, followers lead = some bounds ∧ List.Forall₂ Within bounds [b, c, d]
  := by
  simp only [followers, UInt8.lt_iff_toNat_lt, ← UInt8.toNat_inj, UInt8.reduceToNat]
  rw [if_neg (by omega), if_neg (by omega), if_neg (by omega), if_neg (by omega),
    if_neg (by omega), if_neg (by omega)]
  split_ifs
  all_goals first
    | omega
    | refine ⟨_, rfl, ?_⟩
      simp only [List.forall₂_cons, List.Forall₂.nil, and_true, Within, UInt8.le_iff_toNat_le,
        UInt8.reduceToNat]
      omega

/-- A character is encoded by a lead byte and followers within its bounds. -/
theorem exists_followers (c : Char) :
  ∃ lead bounds tail, String.utf8EncodeChar c = lead :: tail ∧ followers lead = some bounds
    ∧ List.Forall₂ Within bounds tail
  := by
  have hvalid : c.val.toNat.isValidChar := c.valid
  unfold Nat.isValidChar at hvalid
  rw [String.utf8EncodeChar]
  generalize c.val.toNat = v at hvalid
  have hfollowed : ∀ {lead tail}, (∃ bounds, followers lead = some bounds
      ∧ List.Forall₂ Within bounds tail) → ∃ lead' bounds tail', lead :: tail = lead' :: tail'
        ∧ followers lead' = some bounds ∧ List.Forall₂ Within bounds tail' :=
    fun ⟨bounds, h⟩ => ⟨_, bounds, _, rfl, h⟩
  split_ifs
  all_goals apply hfollowed
  · apply exists_followers_one
    rw [UInt8.toNat_ofNat']
    omega
  · apply exists_followers_two
    all_goals simp only [UInt8.toNat_ofNat']; omega
  · apply exists_followers_three
    all_goals simp only [UInt8.toNat_ofNat']; omega
  · apply exists_followers_four
    all_goals simp only [UInt8.toNat_ofNat']; omega

/-- Different characters have different encodings. -/
theorem utf8EncodeChar_injective {c d : Char}
    (h : String.utf8EncodeChar c = String.utf8EncodeChar d) :
  c = d
  := by
  have hencode : [c].utf8Encode = [d].utf8Encode := by simp [List.utf8Encode, h]
  have hdecode := congrArg (·.utf8DecodeChar? 0) hencode
  simpa using hdecode

/-- The encoding of a character is the first chunk, whatever follows. -/
theorem chunks_utf8EncodeChar_append (c : Char) (rest : Bytes) :
  chunks (String.utf8EncodeChar c ++ rest) = ⟨String.utf8EncodeChar c, .ok c⟩ :: chunks rest
  := by
  obtain ⟨lead, bounds, tail, hencode, hlead, htail⟩ := exists_followers c
  have hc : assemble lead tail = c := by
    apply utf8EncodeChar_injective
    rw [utf8EncodeChar_assemble hlead htail, hencode]
  have hfirst : Chunk.first lead (tail ++ rest) = ⟨lead :: tail, .ok c⟩ := by
    simp [Chunk.first, hlead, matching_append htail, htail.length_eq, hc]
  rw [hencode, List.cons_append, chunks, hfirst]
  simp

/-- The chunks of an encoded text are its characters. -/
theorem content_chunks_encode (text : String) :
  (chunks (encode text)).map (·.content) = text.toList.map .ok
  := by
  rw [encode]
  induction text.toList with
  | nil => rw [List.flatMap_nil, chunks]; rfl
  | cons c rest ih =>
    rw [List.flatMap_cons, chunks_utf8EncodeChar_append, List.map_cons, ih, List.map_cons]

theorem decodeFrom_of_map_content {chunks : List Chunk} {text : List Char} :
  ∀ {position : Nat}, chunks.map (·.content) = text.map .ok →
    decodeFrom position chunks = .ok text
  := by
  induction chunks generalizing text with
  | nil =>
    intro position h
    obtain rfl := List.map_eq_nil_iff.mp h.symm
    rfl
  | cons chunk rest ih =>
    intro position h
    obtain ⟨c, text, rfl, hcontent, hrest⟩ := List.map_eq_cons_iff.mp h.symm
    have hcontent : chunk.content = .ok c := hcontent.symm
    simp only [decodeFrom, hcontent, ih hrest.symm]
    rfl

/-- An encoded text is decoded to the text. -/
theorem decode_encode (text : String) :
  decode (encode text) = .ok text
  := by
  rw [decode, decodeFrom_of_map_content (content_chunks_encode text)]
  simp [Except.map]

end SingleUse.Utf8
