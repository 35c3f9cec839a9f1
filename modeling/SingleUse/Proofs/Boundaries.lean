import SingleUse.Proofs.Lines
import SingleUse.Proofs.Transcoding
import Mathlib.Data.Nat.Bitwise

/-!
# Boundaries

Fixes cut no character apart.  A *boundary* of a byte string is an offset at which a character
starts, or the end.  Between two boundaries of an encoded text stands an encoded text.  The ends of
an edit are boundaries if those of the nodes are, since the search for lines moves them past
characters of one byte only.
-/

namespace SingleUse

/-! ### Boundaries of a text -/

namespace Utf8

/-- Whether an offset is the end or one at which a character starts. -/
def IsBoundary (bytes : Bytes) (i : Nat) : Prop :=
  i = bytes.length ∨ ∃ byte, bytes[i]? = some byte ∧ byte.IsUTF8FirstByte

instance (bytes : Bytes) (i : Nat) : Decidable (IsBoundary bytes i) :=
  decidable_of_iff (i = bytes.length ∨ bytes[i]?.any fun byte => byte.IsUTF8FirstByte)
    (by simp [IsBoundary, Option.any_eq_true])

variable {text : String} {i j : Nat}

theorem IsBoundary.le {bytes : Bytes} (h : IsBoundary bytes i) :
  i ≤ bytes.length
  := by
  rcases h with rfl | ⟨byte, hbyte, -⟩
  · exact Nat.le_refl _
  · exact (List.getElem?_eq_some_iff.mp hbyte).1.le

theorem encode_ofList (chars : List Char) :
  encode (String.ofList chars) = chars.flatMap String.utf8EncodeChar
  := by
  rw [encode, String.toList_ofList]

/-- Of the bytes of a character only the first one starts a character. -/
theorem isBoundary_cons {c : Char} {rest : List Char}
    (h : IsBoundary ((c :: rest).flatMap String.utf8EncodeChar) i) :
  i = 0 ∨ ∃ k, i = (String.utf8EncodeChar c).length + k
    ∧ IsBoundary (rest.flatMap String.utf8EncodeChar) k
  := by
  rw [List.flatMap_cons] at h
  rcases h with hend | ⟨byte, hbyte, hfirst⟩
  · right
    use (rest.flatMap String.utf8EncodeChar).length
    rw [← List.length_append]
    exact ⟨hend, .inl rfl⟩
  · by_cases hlt : i < (String.utf8EncodeChar c).length
    · left
      rw [List.getElem?_append_left hlt, List.getElem?_eq_getElem hlt] at hbyte
      obtain rfl := Option.some.inj hbyte
      exact UInt8.isUTF8FirstByte_getElem_utf8EncodeChar.mp hfirst
    · right
      use i - (String.utf8EncodeChar c).length
      rw [List.getElem?_append_right (Nat.le_of_not_lt hlt)] at hbyte
      exact ⟨by omega, .inr ⟨byte, hbyte, hfirst⟩⟩

/-- The boundaries of an encoded text are where it can be cut into two texts. -/
theorem isBoundary_encode_iff :
  IsBoundary (encode text) i ↔ ∃ left right, text.toList = left ++ right
    ∧ (left.flatMap String.utf8EncodeChar).length = i
  := by
  rw [encode]
  generalize text.toList = chars
  constructor
  · intro h
    induction chars generalizing i with
    | nil =>
      use [], [], rfl
      exact (Nat.le_zero.mp h.le).symm
    | cons c rest ih =>
      rcases isBoundary_cons h with rfl | ⟨k, rfl, hk⟩
      · use [], c :: rest, rfl
        rfl
      · obtain ⟨left, right, rfl, rfl⟩ := ih hk
        use c :: left, right, rfl
        rw [List.flatMap_cons, List.length_append]
  · rintro ⟨left, right, rfl, rfl⟩
    rw [List.flatMap_append]
    cases right with
    | nil =>
      left
      simp
    | cons c rest =>
      have hpos : 0 < (String.utf8EncodeChar c).length := by
        rw [String.length_utf8EncodeChar]
        exact c.utf8Size_pos
      right
      use (String.utf8EncodeChar c)[0]
      rw [List.getElem?_append_right (Nat.le_refl _), Nat.sub_self, List.flatMap_cons,
        List.getElem?_append_left hpos, List.getElem?_eq_getElem hpos]
      exact ⟨rfl, UInt8.isUTF8FirstByte_getElem_utf8EncodeChar.mpr rfl⟩

/-- A text cut where characters start is cut into texts. -/
theorem exists_slice_eq_encode (hi : IsBoundary (encode text) i)
    (hj : IsBoundary (encode text) j) :
  ∃ part, (encode text).slice i j = encode part
  := by
  obtain ⟨left, right, hcut, rfl⟩ := isBoundary_encode_iff.mp hi
  obtain ⟨left', right', hcut', rfl⟩ := isBoundary_encode_iff.mp hj
  rw [encode, hcut, List.flatMap_append, Bytes.slice, List.drop_left]
  rw [hcut] at hcut'
  rcases List.append_eq_append_iff.mp hcut' with ⟨part, rfl, rfl⟩ | ⟨part, rfl, rfl⟩
  · use String.ofList part
    rw [encode_ofList]
    simp
  · use ""
    simp [encode]

/-- A byte that encodes a character alone starts a character. -/
theorem isUTF8FirstByte_of_lt {byte : UInt8} (h : byte < 0x80) :
  byte.IsUTF8FirstByte
  := by
  have hlt : byte.toNat < 2 ^ 7 := UInt8.lt_iff_toNat_lt.mp h
  have hand : byte.toNat &&& 2 ^ 7 = 0 := by
    rw [Nat.and_two_pow, Nat.testBit_lt_two_pow hlt]
    rfl
  left
  rw [← UInt8.toNat_inj, UInt8.toNat_and]
  exact hand

/-- After a character of one byte there is a boundary. -/
theorem IsBoundary.succ {byte : UInt8} (hbyte : (encode text)[i]? = some byte)
    (hsmall : byte < 0x80) :
  IsBoundary (encode text) (i + 1)
  := by
  have hi : IsBoundary (encode text) i := .inr ⟨byte, hbyte, isUTF8FirstByte_of_lt hsmall⟩
  obtain ⟨left, right, hcut, rfl⟩ := isBoundary_encode_iff.mp hi
  rw [encode, hcut, List.flatMap_append, List.getElem?_append_right (Nat.le_refl _),
    Nat.sub_self] at hbyte
  cases right with
  | nil => simp at hbyte
  | cons c rest =>
    obtain ⟨lead, bounds, tail, hencode, hlead, htail⟩ := exists_followers c
    rw [List.flatMap_cons, hencode] at hbyte
    obtain rfl : lead = byte := Option.some.inj hbyte
    rw [followers, if_pos hsmall] at hlead
    obtain rfl := Option.some.inj hlead
    obtain rfl := List.forall₂_nil_left_iff.mp htail
    apply isBoundary_encode_iff.mpr
    use left ++ [c], rest
    rw [hcut, List.flatMap_append, List.flatMap_singleton, hencode]
    simp

/-- A run of characters of one byte that starts at a boundary ends at one. -/
theorem IsBoundary.add {run : Bytes} (hi : IsBoundary (encode text) i)
    (hrun : run <+: (encode text).drop i) (hsmall : ∀ byte ∈ run, byte < 0x80) :
  IsBoundary (encode text) (i + run.length)
  := by
  rcases List.eq_nil_or_concat' run with rfl | ⟨init, last, rfl⟩
  · exact hi
  · have hlast : (encode text)[i + init.length]? = some last := by
      obtain ⟨rest, hrest⟩ := hrun
      rw [← List.getElem?_drop, ← hrest]
      simp
    rw [List.length_append, List.length_singleton, ← Nat.add_assoc]
    apply IsBoundary.succ hlast
    apply hsmall last
    simp

theorem encode_append (left right : String) :
  encode (left ++ right) = encode left ++ encode right
  := by
  rw [encode, String.toList_append, List.flatMap_append]
  rfl

end Utf8

/-! ### Edits between boundaries -/

/-- Whether an edit starts and ends at boundaries. -/
def Edit.OnBoundaries (e : Edit) (source : Bytes) : Prop :=
  ∃ start stop : Nat, e.range = ⟨start, stop⟩
    ∧ Utf8.IsBoundary source start ∧ Utf8.IsBoundary source stop

open Utf8

variable {text : String}

/-- Where a line starts is a boundary. -/
theorem isBoundary_lineStart (text : String) (offset : Nat) :
  IsBoundary (encode text) (lineStart (encode text) offset)
  := by
  rcases lineStart_cases (encode text) offset with hzero | ⟨k, hstart, hfeed⟩
  · rw [hzero]
    apply isBoundary_encode_iff.mpr
    use [], text.toList, rfl
    rfl
  · rw [hstart]
    apply IsBoundary.succ hfeed (by decide)

/-- Where a line ends, the line end included, is a boundary. -/
theorem isBoundary_lineEnd (text : String) (offset : Nat) :
  IsBoundary (encode text) (min (lineEnd (encode text) offset + 1) (encode text).length)
  := by
  rcases lineEnd_cases (encode text) offset with hend | hfeed
  · left
    omega
  · have hlt := (List.getElem?_eq_some_iff.mp hfeed).1
    rw [Nat.min_eq_left hlt]
    apply IsBoundary.succ hfeed (by decide)

/-- The removal of the lines of a span is an edit at boundaries. -/
theorem onBoundaries_removeLines {span : Span} (hstart : IsBoundary (encode text) span.start)
    (hstop : IsBoundary (encode text) span.stop) (replacement : String) :
  (removeLines (encode text) span replacement).OnBoundaries (encode text)
  := by
  by_cases halone : span.StandsAlone (encode text)
  · rw [removeLines_of_standsAlone hstop.le halone]
    exact ⟨_, _, rfl, isBoundary_lineStart text _, isBoundary_lineEnd text _⟩
  · obtain ⟨blanks, hfront, hblank, hremove⟩ :=
      removeLines_of_not_standsAlone hstop.le halone replacement
    rw [hremove]
    refine ⟨_, _, rfl, hstart, ?_⟩
    apply hstop.add (hfront.trans (List.take_prefix _ _))
    intro byte hbyte
    rcases hblank byte hbyte with rfl | rfl
    all_goals decide

/-- Edits at boundaries turn a text into a text. -/
theorem Fix.exists_splice_eq_encode {edits : List Edit} :
  ∀ {offset : Nat}, IsBoundary (encode text) offset →
    (∀ e ∈ edits, e.OnBoundaries (encode text)) →
      ∃ new, splice (encode text) offset edits = encode new
  := by
  induction edits with
  | nil =>
    intro offset hoffset _
    have hslice := exists_slice_eq_encode hoffset (.inl rfl)
    rwa [Bytes.slice, List.take_of_length_le (by simp)] at hslice
  | cons e rest ih =>
    intro offset hoffset hedits
    obtain ⟨start, stop, hrange, hstart, hstop⟩ := hedits e List.mem_cons_self
    obtain ⟨part, hpart⟩ := exists_slice_eq_encode hoffset hstart
    obtain ⟨new, hnew⟩ := ih hstop fun e he => hedits e (List.mem_cons_of_mem _ he)
    use part ++ e.text ++ new
    rw [splice, hrange]
    simp only [place_natCast]
    rw [hpart, hnew, encode_append, encode_append]

/-! ### Fixes of a tree -/

/-- Whether all nodes of a tree start and end at boundaries. -/
def Tree.OnBoundaries (tree : Tree) (source : Bytes) : Prop :=
  ∀ c ∈ (Cursor.root tree).preorder, IsBoundary source c.start ∧ IsBoundary source c.stop

instance (tree : Tree) (source : Bytes) : Decidable (tree.OnBoundaries source) :=
  inferInstanceAs (Decidable (∀ c ∈ (Cursor.root tree).preorder,
    IsBoundary source c.start ∧ IsBoundary source c.stop))

variable {tree : Tree}

/-- The removal of a declarator is an edit at boundaries. -/
theorem Cursor.onBoundaries_removeDeclarator (htree : tree.OnBoundaries (encode text))
    {declarator statement : Cursor} (hin : root tree ∈ declarator.ancestors)
    (hparent : declarator.parent = some statement) {removal : Edit}
    (h : declarator.removeDeclarator statement (encode text) = some removal) :
  removal.OnBoundaries (encode text)
  := by
  have hstatement := root_mem_ancestors_of_parent hin hparent
  have hplace := htree declarator (mem_preorder_iff.mpr hin)
  have hdeclarators : ∀ other ∈ statement.declarators,
      IsBoundary (encode text) other.start ∧ IsBoundary (encode text) other.stop := by
    intro other hother
    apply htree
    apply mem_preorder_iff.mpr
    apply root_mem_ancestors_of_mem_children hstatement
    exact statement.declarators_sublist.mem hother
  simp only [removeDeclarator] at h
  split at h
  · obtain rfl := Option.some.inj h
    obtain ⟨hstart, hstop⟩ := htree statement (mem_preorder_iff.mpr hstatement)
    rw [removeStatement]
    split
    · exact ⟨_, _, rfl, hstart, hstop⟩
    · apply onBoundaries_removeLines hstart hstop
  · split at h
    · cases h
    · obtain ⟨next, hnext, rfl⟩ := Option.map_eq_some_iff.mp h
      exact ⟨_, _, rfl, hplace.1, (hdeclarators next (List.mem_of_getElem? hnext)).1⟩
    · obtain ⟨previous, hprevious, rfl⟩ := Option.map_eq_some_iff.mp h
      exact ⟨_, _, rfl, (hdeclarators previous (List.mem_of_getElem? hprevious)).2, hplace.2⟩

namespace Analysis

variable {source : Bytes} {typeContexts : List NodeType} {options : RuleOptions} {a : Analysis}

/-- The edits of a fix are edits at boundaries. -/
theorem onBoundaries_of_inline (htree : tree.OnBoundaries (encode text))
    (h : ofTree (encode text) tree typeContexts options = .ok a) {b : Binding}
    (hb : b ∈ a.registry.bindings) {fix : Fix} (hfix : b.inline (encode text) = .ok fix) :
  ∀ e ∈ fix.edits, e.OnBoundaries (encode text)
  := by
  obtain ⟨read, declarator, statement, removal, replaced, ⟨hreadIn, -⟩, -, -, ⟨hparent, -, hin⟩,
    hremoval, -, rfl⟩ := places_of_inline h hb hfix
  intro e he
  rcases List.mem_cons.mp he with rfl | he
  · exact Cursor.onBoundaries_removeDeclarator htree hin hparent hremoval
  · rw [List.mem_singleton.mp he]
    obtain ⟨hstart, hstop⟩ := htree read.node (Cursor.mem_preorder_iff.mpr hreadIn)
    exact ⟨_, _, rfl, hstart, hstop⟩

/-- Fixes of a source that can be decoded cut no character apart, if the nodes of the tree do not.
So what they turn the source into can be decoded, too, and is encoded as it was. -/
theorem decode_applyAll (hsource : decode source = .ok text) (htree : tree.OnBoundaries source)
    (h : ofTree source tree typeContexts options = .ok a) {fixes : List Fix}
    (hfixes : a.MadeFor source fixes) :
  (∀ fix ∈ fixes, ∀ e ∈ fix.edits, e.OnBoundaries source)
    ∧ (∃ new, decode (Fix.applyAll source fixes).source = .ok new)
    ∧ encode (decodeLossy (Fix.applyAll source fixes).source) = (Fix.applyAll source fixes).source
  := by
  obtain rfl := encode_of_decode hsource
  have hedits : ∀ fix ∈ fixes, ∀ e ∈ fix.edits, e.OnBoundaries (encode text) := by
    intro fix hfix
    obtain ⟨b, hb, hinline⟩ := hfixes fix hfix
    apply onBoundaries_of_inline htree h hb hinline
  have hstart : IsBoundary (encode text) 0 := isBoundary_encode_iff.mpr ⟨[], _, rfl, rfl⟩
  have hordered : ∀ e ∈ Fix.inOrder (Fix.carriedOut (encode text) fixes),
      e.OnBoundaries (encode text) := by
    intro e he
    obtain ⟨fix, hfix, he⟩ := Fix.mem_carriedOut ((Fix.perm_inOrder _).mem_iff.mp he)
    apply hedits fix hfix e he
  obtain ⟨new, hnew⟩ : ∃ new, (Fix.applyAll (encode text) fixes).source = encode new :=
    Fix.exists_splice_eq_encode hstart hordered
  use hedits
  rw [hnew, decodeLossy_of_decode (decode_encode new), decode_encode]
  exact ⟨⟨new, rfl⟩, rfl⟩

/-- The source
```
// ñ
const é = "ü";
f(é);
```
-/
def accented : Bytes × Tree where
  fst := encode "// ñ\nconst é = \"ü\";\nf(é);\n"
  snd :=
    .named .program 0 30 none
      [.named .comment 0 5 none [],
      .named .lexicalDeclaration 6 22 none
        [.named .variableDeclarator 12 21 none
          [.named .identifier 12 14 (some .name) [], .named .string 17 21 (some .value) []]],
      .named .expressionStatement 23 29 none
        [.named .callExpression 23 28 none
          [.named .identifier 23 24 (some .function) [],
          .named .arguments 24 28 (some .arguments) [.named .identifier 25 27 none []]]]]

/-- Fixing leaves a text with a character of two bytes in the place of the read. -/
theorem decode_applyAll_accented :
  ∃ a fix, ofTree accented.1 accented.2 [] {} = .ok a
    ∧ fixes accented.1 a.registry.bindings = [fix]
    ∧ (∀ e ∈ fix.edits, e.OnBoundaries accented.1)
    ∧ (Fix.applyAll accented.1 [fix]).source = encode "// ñ\nf(\"ü\");\n"
    ∧ encode (decodeLossy (Fix.applyAll accented.1 [fix]).source)
      = (Fix.applyAll accented.1 [fix]).source
  := by
  have hsource : decode accented.1 = .ok "// ñ\nconst é = \"ü\";\nf(é);\n" := by
    decide +kernel
  have htree : accented.2.OnBoundaries accented.1 := by decide +kernel
  have hany : (ofTree accented.1 accented.2 [] {}).toOption.any fun a =>
      (fixes accented.1 a.registry.bindings).any fun fix =>
        fixes accented.1 a.registry.bindings = [fix]
          ∧ (∀ e ∈ fix.edits, e.Fits accented.1) ∧ Fix.Apart fix.edits
          ∧ Fix.image accented.1 (Fix.carriedOut accented.1 [fix]) 0 accented.1.length
            = encode "// ñ\nf(\"ü\");\n" := by
    decide +kernel
  obtain ⟨a, ha, hany⟩ := exists_ok_of_any hany
  obtain ⟨fix, -, hany⟩ := List.any_eq_true.mp hany
  obtain ⟨hfixes, hfits, hapart, himage⟩ := of_decide_eq_true hany
  have hmade : a.MadeFor accented.1 [fix] := hfixes ▸ madeFor_fixes (List.Subset.refl _)
  obtain ⟨hedits, -, hagain⟩ := decode_applyAll hsource htree ha hmade
  have hfixed : (Fix.applyAll accented.1 [fix]).source = _ :=
    Fix.source_applyAll (by simpa using hfits) (by simpa using hapart)
  exact ⟨a, fix, ha, hfixes, hedits fix List.mem_cons_self, hfixed.trans himage, hagain⟩

end Analysis

end SingleUse
