/-!
# Lines

A text is cut after its line ends.  Besides the line feed, the carriage return and the two
together, the vertical tab, the form feed, the separators U+001C to U+001E, the next-line
character and the line and paragraph separators end a line.
-/

namespace SingleUse.Text

/-- Whether a character ends a line. -/
def isLineEnd (c : Char) : Bool :=
  let n := c.toNat
  (0x0A ≤ n && n ≤ 0x0D) || (0x1C ≤ n && n ≤ 0x1E) || n == 0x85 || n == 0x2028 || n == 0x2029

/-- Puts a character at the front of the first line. -/
def consFirst (c : Char) : List (List Char) → List (List Char)
  | [] => [[c]]
  | line :: rest => (c :: line) :: rest

/-- The lines of a text with their line ends. -/
def linesOf : List Char → List (List Char)
  | [] => []
  | '\r' :: '\n' :: rest => ['\r', '\n'] :: linesOf rest
  | c :: rest => if isLineEnd c then [c] :: linesOf rest else consFirst c (linesOf rest)

/-- The lines of a text with their line ends. -/
def lines (text : String) : List String := (linesOf text.toList).map String.ofList

/-- The lines of a text without their line ends. -/
def bareLines (text : String) : List String :=
  (linesOf text.toList).map fun line =>
    String.ofList (line.reverse.dropWhile isLineEnd).reverse

end SingleUse.Text
