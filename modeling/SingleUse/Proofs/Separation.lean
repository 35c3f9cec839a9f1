import SingleUse.Proofs.Fitting
import SingleUse.Proofs.Reporting
import Mathlib.Data.List.DropRight
import Mathlib.Tactic.IntervalCases

/-!
# Separation of statements

Statements that do not end in a semicolon are kept apart by what stands between them.  When a
pass removes statements, the ones to both sides may come to stand next to each other, and the
second one may go on with the first if it starts with `(`, `[`, backquote, `+`, `-` or `/`.  A
removal leaves a semicolon if its own neighbours would join; here it is told when that is enough.
-/

namespace SingleUse

/-! ### Blanks at the end of a text -/

/-- A byte of ASCII is a chunk of its own. -/
theorem Utf8.chunks_cons_of_lt {lead : UInt8} (h : lead < 0x80) (rest : Bytes) :
  chunks (lead :: rest) = ⟨[lead], .ok (assemble lead [])⟩ :: chunks rest
  := by
  have hfirst : Chunk.first lead rest = ⟨[lead], .ok (assemble lead [])⟩ := by
    simp [Chunk.first, followers, h, matching]
  rw [chunks, hfirst]
  simp

theorem isBlank_assemble {byte : UInt8} (h : isBlankByte byte) :
  byte < 0x80 ∧ Text.isBlank (Utf8.assemble byte [])
  := by
  have hcases : byte ∈ [0x20, 0x09, 0x0A, 0x0B, 0x0C, 0x0D] := by
    simp only [isBlankByte, Bool.or_eq_true, Bool.and_eq_true, beq_iff_eq, decide_eq_true_eq,
      UInt8.le_iff_toNat_le] at h
    simp only [List.mem_cons, List.not_mem_nil, or_false, ← UInt8.toNat_inj] at h ⊢
    simp at h ⊢
    omega
  have hall : ∀ byte ∈ ([0x20, 0x09, 0x0A, 0x0B, 0x0C, 0x0D] : Bytes),
      byte < 0x80 ∧ Text.isBlank (Utf8.assemble byte []) := by
    decide +kernel
  exact hall byte hcases

/-- The text of blank bytes is blank. -/
theorem isBlank_decodeLossy {bytes : Bytes} (h : ∀ byte ∈ bytes, isBlankByte byte) :
  ∀ c ∈ (Utf8.decodeLossy bytes).toList, Text.isBlank c
  := by
  rw [Utf8.decodeLossy, String.toList_ofList]
  induction bytes with
  | nil => simp [Utf8.chunks]
  | cons byte rest ih =>
    obtain ⟨hascii, hblank⟩ := isBlank_assemble (h byte List.mem_cons_self)
    rw [Utf8.chunks_cons_of_lt hascii, List.map_cons]
    intro c hc
    rcases List.mem_cons.mp hc with rfl | hc
    · exact hblank
    · exact ih (fun b hb => h b (List.mem_cons_of_mem _ hb)) c hc

/-- Where the trimmed text of some bytes has a last character, not all bytes are blank. -/
theorem exists_not_isBlankByte {bytes : Bytes} {last : Char}
    (h : (Text.trimEnd (Utf8.decodeLossy bytes)).toList.getLast? = some last) :
  ∃ byte ∈ bytes, isBlankByte byte = false
  := by
  by_contra hnone
  have hblank : ∀ byte ∈ bytes, isBlankByte byte := by
    intro byte hbyte
    by_contra hbyte'
    exact hnone ⟨byte, hbyte, by simpa using hbyte'⟩
  have hdrop : (Utf8.decodeLossy bytes).toList.reverse.dropWhile Text.isBlank = [] := by
    apply List.dropWhile_eq_nil_iff.mpr
    intro c hc
    exact isBlank_decodeLossy hblank c (List.mem_reverse.mp hc)
  rw [Text.trimEnd, hdrop] at h
  simp at h

namespace Cursor

/-- The offset at which the text of a node ends, blanks at the end left out. -/
def textEnd (c : Cursor) (source : Bytes) : Nat :=
  c.start + ((c.bytes source).rdropWhile isBlankByte).length

theorem length_bytes_le (c : Cursor) (source : Bytes) :
  (c.bytes source).length ≤ c.stop - c.start
  := by
  rw [bytes, Bytes.slice, List.length_take]
  apply Nat.min_le_left

/-- The text of a node ends in the node. -/
theorem textEnd_le_stop {c : Cursor} {source : Bytes} (h : c.start ≤ c.stop) :
  c.textEnd source ≤ c.stop
  := by
  have hprefix := (List.rdropWhile_prefix isBlankByte (l := c.bytes source)).length_le
  have hlength := c.length_bytes_le source
  rw [textEnd]
  omega

/-- Before the end of the text stands a byte that is not blank, if there is one at all. -/
theorem getElem?_textEnd {c : Cursor} {source : Bytes}
    (h : ∃ byte ∈ c.bytes source, isBlankByte byte = false) :
  c.start < c.textEnd source
    ∧ ∃ byte, source[c.textEnd source - 1]? = some byte ∧ isBlankByte byte = false
  := by
  have hne : (c.bytes source).rdropWhile isBlankByte ≠ [] := by
    intro hnil
    obtain ⟨byte, hbyte, hblank⟩ := h
    simp [List.rdropWhile_eq_nil_iff.mp hnil byte hbyte] at hblank
  have hpos := List.length_pos_iff.mpr hne
  constructor
  · rw [textEnd]
    omega
  · use ((c.bytes source).rdropWhile isBlankByte).getLast hne
    constructor
    · obtain ⟨blanks, hbytes⟩ := List.rdropWhile_prefix isBlankByte (l := c.bytes source)
      have hlength := c.length_bytes_le source
      rw [← hbytes, List.length_append] at hlength
      have hoffset : c.textEnd source - 1
          = c.start + (((c.bytes source).rdropWhile isBlankByte).length - 1) := by
        rw [textEnd]
        omega
      rw [hoffset, ← Bytes.getElem?_slice source _ _ c.stop (by omega), ← bytes]
      nth_rewrite 1 [← hbytes]
      rw [List.getElem?_append_left (by omega), ← List.getLast?_eq_getElem?,
        List.getLast?_eq_some_getLast hne]
    · simpa using List.rdropWhile_last_not isBlankByte _ hne

/-- Past comments the first label is that of the place after them. -/
theorem find?_of_comments {comments rest : List Cursor} {c : Cursor}
    (h : ∀ comment ∈ comments, comment.type = .comment) (hc : c.type ≠ .comment) :
  ((comments ++ c :: rest).map (·.label)).find? (fun label => label.type ≠ .comment)
    = some c.label
  := by
  induction comments with
  | nil =>
    rw [List.nil_append, List.map_cons, List.find?_cons_of_pos]
    exact decide_eq_true hc
  | cons comment others ih =>
    have hcomment : comment.label.type = .comment := h comment List.mem_cons_self
    rw [List.cons_append, List.map_cons, List.find?_cons_of_neg (by simpa using hcomment)]
    exact ih fun other hother => h other (List.mem_cons_of_mem _ hother)

end Cursor

/-! ### What a pass does between two statements -/

/-- Whether some bytes start like the continuation of a statement. -/
def continues (bytes : Bytes) : Bool := bytes.head?.any continuationBytes.contains

/-- The byte of a semicolon. -/
def semicolon : UInt8 := 0x3B

namespace Analysis

variable (source : Bytes) (bindings : List Binding)

/-- The edits of a pass that applies the fixes for some bindings. -/
def passEdits : List Edit := Fix.carriedOut source (fixes source bindings)

/-- Whether a statement is removed by the pass that applies the fixes for some bindings. -/
def Removed (statement : Cursor) : Prop :=
  ∃ b ∈ bindings, b.statement = some statement
    ∧ ∃ fix ∈ (Fix.applyAll source (fixes source bindings)).applied,
      (b.inline source).toOption = some fix
        ∧ fix.removal? = some (statement.removeStatement source)

instance (statement : Cursor) : Decidable (Removed source bindings statement) :=
  inferInstanceAs (Decidable (∃ b ∈ bindings, _))

/-- What stands between the text of a node and another node after the pass. -/
def between (p n : Cursor) : Bytes :=
  Fix.image source (passEdits source bindings) (p.textEnd source) n.start

/-- What has become of a node after the pass. -/
def rewritten (n : Cursor) : Bytes :=
  Fix.image source (passEdits source bindings) n.start n.stop

/-- Whether a semicolon between two nodes is there after the pass although no removal of one of
the statements in between puts it there. -/
def KeepsSemicolon (p n : Cursor) (mid : List Cursor) : Prop :=
  ∃ i, p.textEnd source ≤ i ∧ i < n.start ∧
    ((∃ e ∈ passEdits source bindings, e.range.start = (i : Int)
        ∧ semicolon ∈ Utf8.encode e.text
        ∧ ∀ m ∈ mid, Removed source bindings m → e ≠ m.removeStatement source)
      ∨ (∀ e ∈ passEdits source bindings, e.covers i = false) ∧ source[i]? = some semicolon)

/-- Whether two statements stay two statements in the pass: a semicolon stands between them, or
the second one does not start like a continuation. -/
def Separated (p n : Cursor) : Prop :=
  semicolon ∈ between source bindings p n ∨ ¬ continues (rewritten source bindings n)

instance (p n : Cursor) : Decidable (Separated source bindings p n) :=
  inferInstanceAs (Decidable (_ ∨ _))

variable {source bindings}

/-- The removal of a statement that is removed is among the edits of the pass. -/
theorem Removed.mem_passEdits {m : Cursor} (h : Removed source bindings m) :
  m.removeStatement source ∈ passEdits source bindings
  := by
  obtain ⟨b, hb, hstatement, fix, hfix, hinline, hremoval⟩ := h
  apply List.mem_flatMap.mpr
  exact ⟨fix, hfix, List.mem_of_getElem? hremoval⟩

variable {tree : Tree} {typeContexts : List NodeType} {options : RuleOptions} {a : Analysis}

/-- A statement that is removed has bytes. -/
theorem Removed.start_lt_stop (htree : tree.WellFormed source)
    (h : ofTree source tree typeContexts options = .ok a)
    (hbindings : bindings ⊆ a.registry.bindings) {m : Cursor} (hm : Removed source bindings m) :
  m.start < m.stop
  := by
  obtain ⟨b, hb, hstatement, -⟩ := hm
  obtain ⟨declarator, -, hparent, hcategory, hin⟩ := statement_inv h (hbindings hb) hstatement
  have hproper := htree.nonempty _ (Cursor.mem_preorder_iff.mpr hin) (.inr hcategory)
  have hup := Cursor.root_mem_ancestors_of_parent hin hparent
  have hnested := htree.nested m (Cursor.mem_preorder_iff.mpr hup) declarator
    (Cursor.mem_children_of_parent hparent)
  omega

/-- Two statements of a statement list, the first one left open, with nothing between them but
comments and statements that are removed. -/
structure Adjacent (tree : Tree) (source : Bytes) (bindings : List Binding) (p n : Cursor)
    (mid : List Cursor) : Prop where
  siblings : ∃ (list : Cursor) (left right : List Cursor), .root tree ∈ list.ancestors
    ∧ hasSingleBody list.type = false ∧ list.children = left ++ p :: mid ++ n :: right
  first : p.named ∧ p.type ≠ .comment
  second : n.named ∧ n.type ≠ .comment
  gone : ∀ m ∈ mid, m.type = .comment ∨ Removed source bindings m
  /-- The first statement ends neither in a semicolon nor in a closing brace. -/
  leftOpen : ∃ last, (Text.trimEnd (p.text source)).toList.getLast? = some last
    ∧ last ≠ ';' ∧ last ≠ '\x7d'
  /-- If nothing is removed, the second statement did not start like a continuation before. -/
  apart : (∀ m ∈ mid, m.type = .comment) → ¬ continues (n.bytes source)

namespace Adjacent

variable {p n : Cursor} {mid : List Cursor}

/-- The text of the first statement ends before the second one starts. -/
theorem bounds (hadjacent : Adjacent tree source bindings p n mid)
    (htree : tree.WellFormed source) :
  p.textEnd source ≤ n.start ∧ n.start ≤ n.stop ∧ n.stop ≤ source.length
  := by
  obtain ⟨list, left, right, hlist, -, hchildren⟩ := hadjacent.siblings
  have hp : Cursor.root tree ∈ p.ancestors :=
    Cursor.root_mem_ancestors_of_mem_children hlist (by simp [hchildren])
  have hn : Cursor.root tree ∈ n.ancestors :=
    Cursor.root_mem_ancestors_of_mem_children hlist (by simp [hchildren])
  have hend : p.textEnd source ≤ p.stop := Cursor.textEnd_le_stop (htree.stop_le_length hp).1
  have hle := htree.stop_le_start hlist hchildren
  exact ⟨Nat.le_trans hend hle, htree.stop_le_length hn⟩

/-- A range that reaches to the left of a later place over blanks only starts after the text of
the first statement. -/
theorem textEnd_le (hadjacent : Adjacent tree source bindings p n mid) {start stop : Nat}
    (hle : p.textEnd source ≤ stop) (hblank : (source.slice start stop).all isBlankByte) :
  p.textEnd source ≤ start
  := by
  obtain ⟨last, hlast, -⟩ := hadjacent.leftOpen
  obtain ⟨hpos, byte, hbyte, hnot⟩ := Cursor.getElem?_textEnd (exists_not_isBlankByte hlast)
  by_contra hlt
  have hget := Bytes.getElem?_slice source start (p.textEnd source - 1 - start) stop (by omega)
  rw [show start + (p.textEnd source - 1 - start) = p.textEnd source - 1 by omega, hbyte] at hget
  have hmem := List.all_eq_true.mp hblank byte (List.mem_of_getElem? hget)
  simp [hnot] at hmem

/-- Where the removal of a statement between the two starts, and what it leaves there. -/
theorem removal_between (hadjacent : Adjacent tree source bindings p n mid)
    (htree : tree.WellFormed source) (h : ofTree source tree typeContexts options = .ok a)
    (hbindings : bindings ⊆ a.registry.bindings) {m : Cursor} (hmid : m ∈ mid)
    (hm : Removed source bindings m) :
  ∃ i : Nat, p.textEnd source ≤ i ∧ i < n.start
    ∧ (m.removeStatement source).range.start = (i : Int)
    ∧ (m.removeStatement source).text = if m.joinsNeighbours source then ";" else ""
  := by
  obtain ⟨list, left, right, hlist, hbody, hchildren⟩ := hadjacent.siblings
  obtain ⟨before, after, rfl⟩ := List.append_of_mem hmid
  have hmemP : p ∈ list.children := by simp [hchildren]
  have hmemM : m ∈ list.children := by simp [hchildren]
  have hp := htree.stop_le_length (Cursor.root_mem_ancestors_of_mem_children hlist hmemP)
  have hstop := htree.stop_le_length (Cursor.root_mem_ancestors_of_mem_children hlist hmemM)
  have hleft : list.children = left ++ p :: before ++ m :: (after ++ n :: right) := by
    simp [hchildren]
  have hright : list.children = (left ++ p :: before) ++ m :: after ++ n :: right := by
    simp [hchildren]
  have hpm := htree.stop_le_start hlist hleft
  have hmn := htree.stop_le_start hlist hright
  have hproper := hm.start_lt_stop htree h hbindings
  have hparent : m.parent.any (fun up => hasSingleBody up.type) = false := by
    rw [Cursor.parent_of_mem_children hmemM]
    exact hbody
  obtain ⟨start, stop, hremove, hstart, -, -, hblank⟩ := Cursor.removeStatement_spec hstop.2 hparent
  use start
  rw [hremove]
  refine ⟨hadjacent.textEnd_le ?_ hblank, by omega, rfl, rfl⟩
  exact Nat.le_trans (Cursor.textEnd_le_stop hp.1) hpm

/-- A removal between the two puts a semicolon there if the neighbours of the removed statement
would join. -/
theorem semicolon_mem_between (hadjacent : Adjacent tree source bindings p n mid)
    (htree : tree.WellFormed source) (h : ofTree source tree typeContexts options = .ok a)
    (hbindings : bindings ⊆ a.registry.bindings) {m : Cursor} (hmid : m ∈ mid)
    (hm : Removed source bindings m) (hjoins : m.joinsNeighbours source) :
  semicolon ∈ between source bindings p n
  := by
  obtain ⟨i, hend, hstart, hrange, htext⟩ := hadjacent.removal_between htree h hbindings hmid hm
  apply Fix.mem_image.mpr
  refine ⟨i, hend, hstart, Fix.mem_fate.mpr (.inl ⟨_, hm.mem_passEdits, hrange, ?_⟩)⟩
  rw [htext, if_pos hjoins]
  decide

/-- There are three ways for a semicolon to stand between the two. -/
theorem semicolon_mem_between_iff (hadjacent : Adjacent tree source bindings p n mid)
    (htree : tree.WellFormed source) (h : ofTree source tree typeContexts options = .ok a)
    (hbindings : bindings ⊆ a.registry.bindings) :
  semicolon ∈ between source bindings p n ↔
    (∃ m ∈ mid, Removed source bindings m ∧ m.joinsNeighbours source)
      ∨ KeepsSemicolon source bindings p n mid
  := by
  constructor
  · intro hmem
    obtain ⟨i, hend, hstart, hbyte⟩ := Fix.mem_image.mp hmem
    rcases Fix.mem_fate.mp hbyte with ⟨e, he, hrange, htext⟩ | hkept
    · by_cases hremoval : ∃ m ∈ mid, Removed source bindings m ∧ e = m.removeStatement source
      · obtain ⟨m, hmid, hm, rfl⟩ := hremoval
        left
        use m, hmid, hm
        obtain ⟨-, -, -, -, hreplacement⟩ := hadjacent.removal_between htree h hbindings hmid hm
        by_contra hjoins
        rw [hreplacement, if_neg hjoins] at htext
        simp [Utf8.encode] at htext
      · right
        refine ⟨i, hend, hstart, .inl ⟨e, he, hrange, htext, ?_⟩⟩
        intro m hmid hm heq
        exact hremoval ⟨m, hmid, hm, heq⟩
    · exact .inr ⟨i, hend, hstart, .inr hkept⟩
  · rintro (⟨m, hmid, hm, hjoins⟩ | ⟨i, hend, hstart, ⟨e, he, hrange, htext, -⟩ | hkept⟩)
    · exact hadjacent.semicolon_mem_between htree h hbindings hmid hm hjoins
    · exact Fix.mem_image.mpr ⟨i, hend, hstart, Fix.mem_fate.mpr (.inl ⟨e, he, hrange, htext⟩)⟩
    · exact Fix.mem_image.mpr ⟨i, hend, hstart, Fix.mem_fate.mpr (.inr hkept)⟩

/-- The neighbours of the only statement between the two would join, if the second one starts
like a continuation. -/
theorem joinsNeighbours {before after : List Cursor} {m : Cursor}
    (hadjacent : Adjacent tree source bindings p n (before ++ m :: after))
    (hbefore : ∀ c ∈ before, c.type = .comment) (hafter : ∀ c ∈ after, c.type = .comment)
    (hcontinues : continues (n.bytes source)) :
  m.joinsNeighbours source
  := by
  obtain ⟨list, left, right, -, -, hchildren⟩ := hadjacent.siblings
  obtain ⟨last, hlast, hsemicolon, hbrace⟩ := hadjacent.leftOpen
  have hsplit : list.children = (left ++ p :: before) ++ m :: (after ++ n :: right) := by
    simp [hchildren]
  have hfollowing : (m.following.find? fun label => label.type ≠ .comment) = some n.label := by
    rw [Cursor.following_of_children_eq hsplit]
    exact Cursor.find?_of_comments hafter hadjacent.second.2
  have hpreceding : (m.preceding.find? fun label => label.type ≠ .comment) = some p.label := by
    have hreverse : (left ++ p :: before).reverse = before.reverse ++ p :: left.reverse := by simp
    rw [Cursor.preceding_of_children_eq hsplit, hreverse]
    exact Cursor.find?_of_comments (by simpa using hbefore) hadjacent.first.2
  have hnext : continuesBefore source m.following := by
    have hproper : n.start + 0 < n.stop := by
      have hlength := n.length_bytes_le source
      have hpos : 0 < (n.bytes source).length := by
        apply List.length_pos_iff.mpr
        intro hnil
        simp [continues, hnil] at hcontinues
      omega
    rw [continues, List.head?_eq_getElem?, Cursor.bytes,
      Bytes.getElem?_slice source _ _ _ hproper] at hcontinues
    rw [continuesBefore, hfollowing]
    exact Bool.and_eq_true_iff.mpr ⟨hadjacent.second.1, hcontinues⟩
  have hprevious : isLeftOpen source m.preceding := by
    have hnamed : p.label.named = true := hadjacent.first.1
    rw [isLeftOpen, hpreceding]
    simp only [Cursor.text, Cursor.bytes, Cursor.start, Cursor.stop] at hlast
    simp [hnamed, hlast, hsemicolon, hbrace]
  rw [Cursor.joinsNeighbours, hnext, hprevious]
  rfl

/-- If a single statement is removed between the two and the second one starts as before, then
they stay apart. -/
theorem separated_of_countP_le_one (hadjacent : Adjacent tree source bindings p n mid)
    (htree : tree.WellFormed source) (h : ofTree source tree typeContexts options = .ok a)
    (hbindings : bindings ⊆ a.registry.bindings) (hsingle : mid.countP (·.type ≠ .comment) ≤ 1)
    (hstart : (rewritten source bindings n).head? = (n.bytes source).head?) :
  Separated source bindings p n
  := by
  have hkeeps : ¬ continues (n.bytes source) → Separated source bindings p n := by
    intro hn
    right
    rwa [continues, hstart]
  cases hfind : mid.find? (·.type ≠ .comment) with
  | none =>
    apply hkeeps (hadjacent.apart _)
    simpa using hfind
  | some m =>
    obtain ⟨hstatement, before, after, rfl, hbefore⟩ := List.find?_eq_some_iff_append.mp hfind
    have hstatement : m.type ≠ .comment := by simpa using hstatement
    have hbefore : ∀ c ∈ before, c.type = .comment := by simpa using hbefore
    have hafter : ∀ c ∈ after, c.type = .comment := by
      rw [List.countP_append, List.countP_cons_of_pos (by simpa using hstatement)] at hsingle
      have hnone : after.countP (·.type ≠ .comment) = 0 := by omega
      simpa using List.countP_eq_zero.mp hnone
    by_cases hcontinues : continues (n.bytes source)
    · have hmid : m ∈ before ++ m :: after := by simp
      left
      apply hadjacent.semicolon_mem_between htree h hbindings hmid
        ((hadjacent.gone m hmid).resolve_left hstatement)
      apply hadjacent.joinsNeighbours hbefore hafter hcontinues
    · exact hkeeps hcontinues

end Adjacent

/-- Two statements that end up next to each other stay two statements exactly if the second one
does not start like a continuation, or the neighbours of one of the removed statements would have
joined, or a semicolon stands between for another reason.  This is so if a single statement is
removed there and the second one starts as before. -/
theorem separated_iff (htree : tree.WellFormed source)
    (h : ofTree source tree typeContexts options = .ok a) {reported : List Binding}
    (hreported : a.registry.reportable options a.scopes = .ok reported) {p n : Cursor}
    {mid : List Cursor} (hadjacent : Adjacent tree source reported p n mid) :
  (Fix.applyAll source (fixes source reported)).source
      = Fix.image source (passEdits source reported) 0 (p.textEnd source)
        ++ between source reported p n ++ rewritten source reported n
        ++ Fix.image source (passEdits source reported) n.stop source.length
    ∧ (Separated source reported p n ↔
      ¬ continues (rewritten source reported n)
        ∨ (∃ m ∈ mid, Removed source reported m ∧ m.joinsNeighbours source)
        ∨ KeepsSemicolon source reported p n mid)
    ∧ (mid.countP (·.type ≠ .comment) ≤ 1 →
      (rewritten source reported n).head? = (n.bytes source).head? →
        Separated source reported p n)
  := by
  have hbindings : reported ⊆ a.registry.bindings :=
    fun b hb => (Registry.passes_of_mem_reportable hreported hb).1
  obtain ⟨hend, hproper, hlength⟩ := hadjacent.bounds htree
  refine ⟨?_, ?_, hadjacent.separated_of_countP_le_one htree h hbindings⟩
  · have hstop : n.start ≤ source.length := Nat.le_trans hproper hlength
    rw [source_applyAll_fixes htree h hbindings,
      Fix.image_append (Nat.zero_le _) (Nat.le_trans hend hstop), Fix.image_append hend hstop,
      Fix.image_append hproper hlength]
    simp only [between, rewritten, passEdits, List.append_assoc]
  · rw [Separated, hadjacent.semicolon_mem_between_iff htree h hbindings, or_comm]

/-- The source
```
foo()
const a = 1;
const b = 2;
[a, b].map(h)
```
-/
def joined : Bytes × Tree where
  fst := Utf8.encode "foo()\nconst a = 1;\nconst b = 2;\n[a, b].map(h)\n"
  snd :=
    .named .program 0 46 none
      [.named .expressionStatement 0 5 none
        [.named .callExpression 0 5 none
          [.named .identifier 0 3 (some .function) [],
          .named .arguments 3 5 (some .arguments) []]],
      .named .lexicalDeclaration 6 18 none
        [.named .variableDeclarator 12 17 none
          [.named .identifier 12 13 (some .name) [], .named .number 16 17 (some .value) []]],
      .named .lexicalDeclaration 19 31 none
        [.named .variableDeclarator 25 30 none
          [.named .identifier 25 26 (some .name) [], .named .number 29 30 (some .value) []]],
      .named .expressionStatement 32 45 none
        [.named .callExpression 32 45 none
          [.named .memberExpression 32 42 (some .function)
            [.named .array 32 38 (some .object)
              [.named .identifier 33 34 none [], .named .identifier 36 37 none []],
            .named .propertyIdentifier 39 42 (some (.other "property")) []],
          .named .arguments 42 45 (some .arguments) [.named .identifier 43 44 none []]]]]

/-- Two statements are removed between two others, neither removal leaves a semicolon, and the
others become the single statement `foo()[1, 2].map(h)`. -/
theorem separated_iff_joined :
  ∃ a reported p n mid, joined.2.WellFormed joined.1 ∧ ofTree joined.1 joined.2 [] {} = .ok a
    ∧ a.registry.reportable {} a.scopes = .ok reported
    ∧ Adjacent joined.2 joined.1 reported p n mid
    ∧ (Fix.applyAll joined.1 (fixes joined.1 reported)).source
      = Utf8.encode "foo()\n[1, 2].map(h)\n"
    ∧ ¬ Separated joined.1 reported p n
    ∧ (Separated joined.1 reported p n ↔
      ¬ continues (rewritten joined.1 reported n)
        ∨ (∃ m ∈ mid, Removed joined.1 reported m ∧ m.joinsNeighbours joined.1)
        ∨ KeepsSemicolon joined.1 reported p n mid)
  := by
  obtain ⟨p, m, m', n, hchildren, hlast, hfirst, hsecond, hany⟩ : ∃ p m m' n : Cursor,
      (Cursor.root joined.2).children = [p, m, m', n]
        ∧ (Text.trimEnd (p.text joined.1)).toList.getLast? = some ')'
        ∧ (p.named ∧ p.type ≠ .comment) ∧ (n.named ∧ n.type ≠ .comment)
        ∧ (ofTree joined.1 joined.2 [] {}).toOption.any fun a =>
          (a.registry.reportable {} a.scopes).toOption.any fun reported =>
            (∀ c ∈ [m, m'], c.type ≠ .comment ∧ Removed joined.1 reported c)
              ∧ Fix.image joined.1 (passEdits joined.1 reported) 0 joined.1.length
                = Utf8.encode "foo()\n[1, 2].map(h)\n"
              ∧ ¬ Separated joined.1 reported p n :=
    ⟨_, _, _, _, rfl, by decide +kernel, by decide +kernel, by decide +kernel, by decide +kernel⟩
  obtain ⟨a, ha, hany⟩ := exists_ok_of_any hany
  obtain ⟨reported, hreported, hany⟩ := exists_ok_of_any hany
  obtain ⟨hremoved, himage, hjoined⟩ := of_decide_eq_true hany
  have htree : joined.2.WellFormed joined.1 := by decide +kernel
  have hsource := source_applyAll_fixes htree ha
    fun b hb => (Registry.passes_of_mem_reportable hreported hb).1
  rw [← passEdits, himage] at hsource
  have hadjacent : Adjacent joined.2 joined.1 reported p n [m, m'] := {
    siblings := by
      use Cursor.root joined.2, [], []
      exact ⟨Cursor.self_mem_ancestors _, rfl, hchildren⟩
    first := hfirst
    second := hsecond
    gone := fun c hc => .inr (hremoved c hc).2
    leftOpen := ⟨')', hlast, by decide, by decide⟩
    apart := fun hcomments =>
      absurd (hcomments m List.mem_cons_self) (hremoved m List.mem_cons_self).1 }
  use a, reported, p, n, [m, m'], htree, ha, hreported, hadjacent, hsource, hjoined
  apply (separated_iff htree ha hreported hadjacent).2.1

end Analysis

end SingleUse
