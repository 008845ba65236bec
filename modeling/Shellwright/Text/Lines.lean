/-!
# Lines

Two ways to cut a text into lines. Output of tools is read line by line with every line break of
Unicode ending a line; a document in an editor is cut at line feeds only and always has a last line.
-/

namespace Shellwright.Text

/-- Line feed, carriage return, vertical tab, form feed, the three separators U+001C to U+001E, next
line, and the line and paragraph separators. -/
def isLineBreak (c : Char) : Bool :=
  let n := c.toNat
  (10 ≤ n && n ≤ 13) || (28 ≤ n && n ≤ 30) || n == 0x85 || n == 0x2028 || n == 0x2029

/-- Put a character in front of the first line. -/
def consFirst (c : Char) : List (List Char) → List (List Char)
  | [] => [[c]]
  | line :: rest => (c :: line) :: rest

/-- The lines of a text, without their ends; a carriage return followed by a line feed ends one line,
and nothing follows a final line break. -/
def lines : List Char → List (List Char)
  | [] => []
  | '\r' :: '\n' :: rest => [] :: lines rest
  | c :: rest => if isLineBreak c then [] :: lines rest else consFirst c (lines rest)

/-- Cut a text at every separator; one at the end opens an empty last part. -/
def cutAt (separator : Char) : List Char → List (List Char)
  | [] => [[]]
  | c :: rest =>
    if c = separator then [] :: cutAt separator rest else consFirst c (cutAt separator rest)

theorem cutAt_ne_nil (separator : Char) (cs : List Char) : cutAt separator cs ≠ [] := by
  cases cs with
  | nil => simp [cutAt]
  | cons c rest =>
    unfold cutAt
    split
    · simp
    · cases cutAt separator rest <;> simp [consFirst]

/-- A carriage return before a line feed does not count. -/
def withoutReturns : List Char → List Char
  | '\r' :: '\n' :: rest => '\n' :: withoutReturns rest
  | c :: rest => c :: withoutReturns rest
  | [] => []

/-- The lines an editor shows: a line feed at the end opens an empty last line. -/
def editorLines (cs : List Char) : List (List Char) :=
  cutAt '\n' cs

theorem editorLines_ne_nil (cs : List Char) : editorLines cs ≠ [] :=
  cutAt_ne_nil '\n' cs

end Shellwright.Text
