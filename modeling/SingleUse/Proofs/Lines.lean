import SingleUse.Proofs.Fitting
import Mathlib.Data.List.DropRight

/-!
# Lines

What the removal of a statement takes besides the statement.  Two offsets lie on the same *line* if
no line end stands between them.  A span *stands alone* if nothing but blanks is to the left of it
on its first line and to the right of it on its last line.  Only then does the removal take a line
end, which is the last byte that it takes.
-/

namespace SingleUse

/-- Whether no line end stands between two offsets. -/
def Bytes.SameLine (source : Bytes) (i j : Nat) : Prop :=
  ∀ k, i ≤ k → k < j → source[k]? ≠ some lineFeed

/-! ### The two ends of a line -/

theorem Bytes.mem_slice_iff {source : Bytes} {i j : Nat} {byte : UInt8} :
  byte ∈ source.slice i j ↔ ∃ k, i ≤ k ∧ k < j ∧ source[k]? = some byte
  := by
  constructor
  · intro h
    obtain ⟨k, hk⟩ := List.mem_iff_getElem?.mp h
    have hlt : k < j - i := by
      have hlength := (List.getElem?_eq_some_iff.mp hk).1
      rw [slice, List.length_take] at hlength
      omega
    rw [getElem?_slice source i k j (by omega)] at hk
    exact ⟨i + k, by omega, by omega, hk⟩
  · rintro ⟨k, hik, hkj, hk⟩
    apply List.mem_of_getElem? (i := k - i)
    rw [getElem?_slice source i (k - i) j (by omega), Nat.add_sub_cancel' hik]
    exact hk

/-- The bytes before an offset, cut where the line of the offset starts. -/
theorem exists_take_eq (source : Bytes) (offset : Nat) :
  ∃ front line, source.take offset = front ++ line ∧ front.length = lineStart source offset
    ∧ (∀ byte ∈ line, byte ≠ lineFeed) ∧ (front = [] ∨ front.getLast? = some lineFeed)
  := by
  use (source.take offset).rdropWhile (· != lineFeed),
    (source.take offset).rtakeWhile (· != lineFeed)
  have happend : (source.take offset).rdropWhile (· != lineFeed)
      ++ (source.take offset).rtakeWhile (· != lineFeed) = source.take offset :=
    List.rdropWhile_append_rtakeWhile
  refine ⟨happend.symm, ?_, ?_, ?_⟩
  · have hlength := congrArg List.length happend
    rw [List.length_append, List.rtakeWhile, List.length_reverse] at hlength
    rw [lineStart, trailing]
    omega
  · intro byte hbyte
    simpa using List.mem_rtakeWhile_imp hbyte
  · by_cases hnil : (source.take offset).rdropWhile (· != lineFeed) = []
    · exact .inl hnil
    · right
      rw [List.getLast?_eq_some_getLast hnil]
      simpa using List.rdropWhile_last_not _ _ hnil

/-- No line end stands between the start of a line and an offset on it. -/
theorem sameLine_lineStart (source : Bytes) (offset : Nat) :
  source.SameLine (lineStart source offset) offset
  := by
  obtain ⟨front, line, happend, hlength, hline, -⟩ := exists_take_eq source offset
  intro k hk hoffset hbyte
  have hget : (source.take offset)[k]? = some lineFeed := by
    rwa [List.getElem?_take_of_lt hoffset]
  rw [happend, List.getElem?_append_right (by omega)] at hget
  exact hline _ (List.mem_of_getElem? hget) rfl

/-- A line starts where the source does or just after a line end. -/
theorem lineStart_cases (source : Bytes) (offset : Nat) :
  lineStart source offset = 0
    ∨ ∃ k, lineStart source offset = k + 1 ∧ source[k]? = some lineFeed
  := by
  obtain ⟨front, line, happend, hlength, -, hlast⟩ := exists_take_eq source offset
  rcases hlast with rfl | hlast
  · left
    exact hlength.symm
  · right
    obtain ⟨init, rfl⟩ := List.getLast?_eq_some_iff.mp hlast
    use init.length
    constructor
    · rw [← hlength, List.length_append, List.length_singleton]
    · have hfront : init ++ [lineFeed] ++ line <+: source := happend ▸ List.take_prefix _ _
      obtain ⟨rest, rfl⟩ := hfront
      simp

/-- No line end stands between an offset and the end of its line. -/
theorem sameLine_lineEnd (source : Bytes) (offset : Nat) :
  source.SameLine offset (lineEnd source offset)
  := by
  intro k hk hend hbyte
  have hdrop : (source.drop offset)[k - offset]? = some lineFeed := by
    rwa [List.getElem?_drop, Nat.add_sub_cancel' hk]
  rw [lineEnd] at hend
  split at hend
  · rename_i index hindex
    obtain ⟨_, -, hbefore⟩ := List.findIdx?_eq_some_iff_getElem.mp hindex
    obtain ⟨_, hget⟩ := List.getElem?_eq_some_iff.mp hdrop
    have hne := hbefore (k - offset) (by omega)
    simp [hget] at hne
  · rename_i hnone
    have hne := List.findIdx?_eq_none_iff.mp hnone lineFeed (List.mem_of_getElem? hdrop)
    simp at hne

/-- A line ends where the source does or in a line end. -/
theorem lineEnd_cases (source : Bytes) (offset : Nat) :
  lineEnd source offset = source.length ∨ source[lineEnd source offset]? = some lineFeed
  := by
  rw [lineEnd]
  split
  · right
    rename_i index hindex
    obtain ⟨hlt, hfeed, -⟩ := List.findIdx?_eq_some_iff_getElem.mp hindex
    rw [← List.getElem?_drop, List.getElem?_eq_getElem hlt]
    simpa using hfeed
  · exact .inl rfl

/-- The offsets to the left on the line of an offset are those from the start of the line on. -/
theorem sameLine_left_iff {source : Bytes} {offset k : Nat} :
  source.SameLine k offset ↔ lineStart source offset ≤ k
  := by
  constructor
  · intro hsame
    rcases lineStart_cases source offset with hzero | ⟨feed, hstart, hfeed⟩
    · omega
    · by_contra hlt
      have hle := lineStart_le source offset
      exact hsame feed (by omega) (by omega) hfeed
  · intro hle j hj
    apply sameLine_lineStart source offset j
    omega

/-! ### What a removal takes -/

/-- Whether nothing but blanks shares the first and the last line of a span with it. -/
structure Span.StandsAlone (span : Span) (source : Bytes) : Prop where
  before : ∀ k < span.start, source.SameLine k span.start →
    ∀ byte, source[k]? = some byte → isBlankByte byte
  after : ∀ k, span.stop ≤ k → source.SameLine span.stop (k + 1) →
    ∀ byte, source[k]? = some byte → isBlankByte byte

/-- A span stands alone if the two tests of a removal succeed. -/
theorem Span.standsAlone_iff {span : Span} {source : Bytes} (hstop : span.stop ≤ source.length) :
  span.StandsAlone source ↔
    (source.slice (lineStart source span.start) span.start).all isBlankByte
      ∧ (source.slice span.stop (lineEnd source span.stop)).all isBlankByte
  := by
  simp only [List.all_eq_true, Bytes.mem_slice_iff]
  constructor
  · intro h
    constructor
    · rintro byte ⟨k, hk, hlt, hbyte⟩
      exact h.before k hlt (sameLine_left_iff.mpr hk) byte hbyte
    · rintro byte ⟨k, hk, hlt, hbyte⟩
      apply h.after k hk _ byte hbyte
      intro j hj hjk
      apply sameLine_lineEnd source span.stop j hj
      omega
  · rintro ⟨hbefore, hafter⟩
    constructor
    · intro k hlt hsame byte hbyte
      exact hbefore byte ⟨k, sameLine_left_iff.mp hsame, hlt, hbyte⟩
    · intro k hk hsame byte hbyte
      refine hafter byte ⟨k, hk, ?_, hbyte⟩
      rcases lineEnd_cases source span.stop with hend | hfeed
      · rw [hend]
        exact (List.getElem?_eq_some_iff.mp hbyte).1
      · by_contra hge
        exact hsame _ (lineEnd_bounds hstop).1 (by omega) hfeed

/-- An edit removes a span, and besides it only blanks.  A line end besides the span is the last
byte that is removed, so that there is at most one, and it is removed only if the span stands
alone. -/
structure Edit.RemovesOnly (e : Edit) (span : Span) (source : Bytes) : Prop where
  start : 0 ≤ e.range.start ∧ e.range.start ≤ span.start
  stop : span.stop ≤ e.range.stop ∧ e.range.stop ≤ source.length
  blank : ∀ k, e.covers k → k < span.start ∨ span.stop ≤ k →
    ∀ byte, source[k]? = some byte → isBlankByte byte
  lineEnd : ∀ k, e.covers k → k < span.start ∨ span.stop ≤ k → source[k]? = some lineFeed →
    (k + 1 : Int) = e.range.stop ∧ span.StandsAlone source

theorem Edit.covers_mk {start stop k : Nat} {text : String} :
  (Edit.mk (Span.mk start stop) text).covers k ↔ start ≤ k ∧ k < stop
  := by
  simp [covers, Span.range]

/-- The lines of a span that stands alone are removed with it, the line end included. -/
theorem removeLines_of_standsAlone {source : Bytes} {span : Span}
    (hstop : span.stop ≤ source.length) (h : span.StandsAlone source) (replacement : String) :
  removeLines source span replacement
    = ⟨Span.mk (lineStart source span.start) (min (lineEnd source span.stop + 1) source.length),
        replacement⟩
  := by
  simp only [removeLines]
  rw [if_pos]
  rwa [Bool.and_eq_true, ← Span.standsAlone_iff hstop]

/-- Of a span that does not stand alone, the blanks to the right are removed with it. -/
theorem removeLines_of_not_standsAlone {source : Bytes} {span : Span}
    (hstop : span.stop ≤ source.length) (h : ¬ span.StandsAlone source) (replacement : String) :
  ∃ blanks, blanks <+: source.slice span.stop (lineEnd source span.stop)
    ∧ (∀ byte ∈ blanks, byte = 0x20 ∨ byte = 0x09)
    ∧ removeLines source span replacement
      = ⟨Span.mk span.start (span.stop + blanks.length), replacement⟩
  := by
  simp only [removeLines]
  rw [if_neg]
  · refine ⟨_, List.takeWhile_prefix _, ?_, rfl⟩
    intro byte hbyte
    simpa using List.mem_takeWhile_imp hbyte
  · rwa [Bool.and_eq_true, ← Span.standsAlone_iff hstop]

/-- Besides a span that stands alone its lines hold only blanks, and a line end only where the last
one ends. -/
theorem Span.StandsAlone.isBlankByte {source : Bytes} {span : Span} (h : span.StandsAlone source)
    {k : Nat} (hstart : lineStart source span.start ≤ k) (hend : k ≤ lineEnd source span.stop)
    (hbesides : k < span.start ∨ span.stop ≤ k) {byte : UInt8} (hbyte : source[k]? = some byte) :
  isBlankByte byte ∧ (byte = lineFeed → k = lineEnd source span.stop)
  := by
  by_cases heq : k = lineEnd source span.stop
  · rcases lineEnd_cases source span.stop with hlength | hfeed
    · have hlt := (List.getElem?_eq_some_iff.mp hbyte).1
      omega
    · rw [← heq, hbyte] at hfeed
      obtain rfl := Option.some.inj hfeed
      exact ⟨by decide, fun _ => heq⟩
  · rcases hbesides with hbefore | hafter
    · constructor
      · apply h.before k hbefore _ byte hbyte
        apply sameLine_left_iff.mpr hstart
      · rintro rfl
        exact absurd hbyte (sameLine_lineStart source span.start k hstart hbefore)
    · have hlt : k < lineEnd source span.stop := by omega
      constructor
      · apply h.after k hafter _ byte hbyte
        intro j hj hjk
        apply sameLine_lineEnd source span.stop j hj
        omega
      · rintro rfl
        exact absurd hbyte (sameLine_lineEnd source span.stop k hafter hlt)

/-- The removal of the lines of a span removes besides the span only blanks. -/
theorem removesOnly_removeLines {source : Bytes} {span : Span} (hstop : span.stop ≤ source.length)
    (replacement : String) :
  (removeLines source span replacement).RemovesOnly span source
  := by
  have hstart := lineStart_le source span.start
  obtain ⟨hend, hlength⟩ := lineEnd_bounds hstop
  by_cases halone : span.StandsAlone source
  · rw [removeLines_of_standsAlone hstop halone]
    constructor
    case start => simp only [Span.range]; omega
    case stop => simp only [Span.range]; omega
    case blank =>
      intro k hcovers hbesides byte hbyte
      obtain ⟨hk, hlt⟩ := Edit.covers_mk.mp hcovers
      apply (halone.isBlankByte hk (by omega) hbesides hbyte).1
    case lineEnd =>
      intro k hcovers hbesides hfeed
      obtain ⟨hk, hlt⟩ := Edit.covers_mk.mp hcovers
      have heq := (halone.isBlankByte hk (by omega) hbesides hfeed).2 rfl
      constructor
      · simp only [Span.range]
        omega
      · exact halone
  · obtain ⟨blanks, ⟨rest, hfront⟩, hblank, hremove⟩ :=
      removeLines_of_not_standsAlone hstop halone replacement
    have hfew : span.stop + blanks.length ≤ lineEnd source span.stop := by
      have hle := congrArg List.length hfront
      rw [Bytes.slice, List.length_append, List.length_take] at hle
      omega
    have hmem : ∀ k byte, (Edit.mk (Span.mk span.start (span.stop + blanks.length))
        replacement).covers k → k < span.start ∨ span.stop ≤ k → source[k]? = some byte →
          byte = 0x20 ∨ byte = 0x09 := by
      intro k byte hcovers hbesides hbyte
      obtain ⟨hk, hlt⟩ := Edit.covers_mk.mp hcovers
      have hget := Bytes.getElem?_slice source span.stop (k - span.stop)
        (lineEnd source span.stop) (by omega)
      rw [Nat.add_sub_cancel' (by omega), hbyte, ← hfront,
        List.getElem?_append_left (by omega)] at hget
      apply hblank byte (List.mem_of_getElem? hget)
    rw [hremove]
    constructor
    case start => simp only [Span.range]; omega
    case stop => simp only [Span.range]; omega
    case blank =>
      intro k hcovers hbesides byte hbyte
      rcases hmem k byte hcovers hbesides hbyte with rfl | rfl
      all_goals decide
    case lineEnd =>
      intro k hcovers hbesides hfeed
      rcases hmem k lineFeed hcovers hbesides hfeed with hspace | htab
      all_goals contradiction

/-- The removal of a statement removes besides the statement only blanks, and a line end only if the
statement stands alone on its lines.  If it does, its lines are removed whole, and a statement that
has to stand where it is gives way to a semicolon. -/
theorem Cursor.removesOnly_removeStatement {source : Bytes} {c : Cursor}
    (hstop : c.stop ≤ source.length) :
  (c.removeStatement source).RemovesOnly c.span source
    ∧ (∀ parent, c.parent = some parent → hasSingleBody parent.type →
        c.removeStatement source = ⟨c.span, ";"⟩)
    ∧ ((∀ parent, c.parent = some parent → ¬ hasSingleBody parent.type) →
        c.span.StandsAlone source →
          (c.removeStatement source).range
            = Span.mk (lineStart source c.start) (min (lineEnd source c.stop + 1) source.length))
  := by
  cases hbody : c.parent.any fun parent => hasSingleBody parent.type with
  | true =>
    have hremove : c.removeStatement source = ⟨c.span, ";"⟩ := by
      rw [removeStatement, hbody]
      rfl
    obtain ⟨parent, hparent, hsingle⟩ := (Option.any_eq_true _ _).mp hbody
    refine ⟨?_, ?_, ?_⟩
    · have hnone : ∀ k, (Edit.mk c.span ";").covers k → ¬ (k < c.start ∨ c.stop ≤ k) := by
        intro k hcovers
        have hcovers : c.start ≤ k ∧ k < c.stop := Edit.covers_mk.mp hcovers
        omega
      rw [hremove]
      constructor
      case start => exact ⟨Int.natCast_nonneg _, Int.le_refl _⟩
      case stop => exact ⟨Int.le_refl _, Int.ofNat_le.mpr hstop⟩
      case blank =>
        intro k hcovers hbesides
        exact absurd hbesides (hnone k hcovers)
      case lineEnd =>
        intro k hcovers hbesides
        exact absurd hbesides (hnone k hcovers)
    · intros
      exact hremove
    · intro hnot
      exact absurd hsingle (hnot parent hparent)
  | false =>
    have hremove : c.removeStatement source
        = removeLines source c.span (if c.joinsNeighbours source then ";" else "") := by
      rw [removeStatement, hbody]
      rfl
    rw [hremove]
    refine ⟨removesOnly_removeLines hstop _, ?_, ?_⟩
    · intro parent hparent hsingle
      simp [hparent, hsingle] at hbody
    · intro _ halone
      rw [removeLines_of_standsAlone hstop halone]
      rfl

/-- The source
```
if (x) {
  const a =
    1;
  f(a);
}
```
with two bytes for each line end and a tab after the declaration. -/
def declaredAcrossLines : Bytes × Tree where
  fst := Utf8.encode "if (x) \x7b\r\n  const a =\r\n    1;\t\r\n  f(a);\r\n\x7d\r\n"
  snd :=
    .named .program 0 44 none
      [.named .ifStatement 0 42 none
        [.named .statementBlock 7 42 (some .consequence)
          [.named .lexicalDeclaration 12 29 none
            [.named .variableDeclarator 18 28 none
              [.named .identifier 18 19 (some .name) [], .named .number 27 28 (some .value) []]],
          .named .expressionStatement 34 39 none
            [.named .callExpression 34 38 none
              [.named .identifier 34 35 (some .function) [],
              .named .arguments 35 38 (some .arguments) [.named .identifier 36 37 none []]]]]]]

/-- The declaration is removed with the blanks before it, the blanks after it and one line end. -/
theorem Cursor.removesOnly_removeStatement_acrossLines :
  ∃ c ∈ (root declaredAcrossLines.2).preorder, c.stop ≤ declaredAcrossLines.1.length
    ∧ c.span = ⟨12, 29⟩ ∧ c.removeStatement declaredAcrossLines.1 = ⟨Span.mk 10 32, ""⟩
    ∧ (c.removeStatement declaredAcrossLines.1).RemovesOnly c.span declaredAcrossLines.1
  := by
  have hany : ∃ c ∈ (root declaredAcrossLines.2).preorder, c.stop ≤ declaredAcrossLines.1.length
      ∧ c.span = ⟨12, 29⟩ ∧ c.removeStatement declaredAcrossLines.1 = ⟨Span.mk 10 32, ""⟩ := by
    decide +kernel
  obtain ⟨c, hc, hstop, hspan, hremove⟩ := hany
  exact ⟨c, hc, hstop, hspan, hremove, (removesOnly_removeStatement hstop).1⟩

end SingleUse
