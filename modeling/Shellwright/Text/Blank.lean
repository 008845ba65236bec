/-!
# Classes of characters

Tables over code points, blanks, and the digits of every script.
-/

/-!
## Tables over code points

Character classes are lists of ranges and case maps are lists of strided runs.
-/

namespace Shellwright.Text

def inRanges (ranges : List (Nat × Nat)) (n : Nat) : Bool :=
  ranges.any fun r => r.1 ≤ n && n ≤ r.2

/-- The image of `n` under the runs `(first, last, step, image of first)`: `n` itself where no run
holds it. -/
def image (runs : List (Nat × Nat × Nat × Nat)) (n : Nat) : Nat :=
  match runs.find? fun r => r.1 ≤ n && n ≤ r.2.1 && (n - r.1) % r.2.2.1 == 0 with
  | some r => r.2.2.2 + (n - r.1)
  | none => n

end Shellwright.Text

/-!
## Blanks

The 29 blank characters and the trimming of a text at its ends.
-/

namespace Shellwright.Text

/-- Blanks are the white space of Unicode together with the four information separators. -/
def isBlank (c : Char) : Bool :=
  let n := c.toNat
  (9 ≤ n && n ≤ 13) || (28 ≤ n && n ≤ 32) || n == 0x85 || n == 0xA0 || n == 0x1680 ||
    (0x2000 ≤ n && n ≤ 0x200A) || n == 0x2028 || n == 0x2029 || n == 0x202F || n == 0x205F ||
    n == 0x3000

def trimStart (cs : List Char) : List Char :=
  cs.dropWhile isBlank

def trimEnd (cs : List Char) : List Char :=
  (cs.reverse.dropWhile isBlank).reverse

def trim (cs : List Char) : List Char :=
  trimEnd (trimStart cs)

def trimmed (s : String) : String :=
  String.ofList (trim s.toList)

/-- A separator of information is no white space. -/
def isInformationSeparator (c : Char) : Bool :=
  28 ≤ c.toNat && c.toNat ≤ 31

def isWhite (c : Char) : Bool :=
  isBlank c && !isInformationSeparator c

/-- A text without white space at its ends. -/
def trimWhite (cs : List Char) : List Char :=
  ((cs.dropWhile isWhite).reverse.dropWhile isWhite).reverse

def isBlankText (s : String) : Bool :=
  s.toList.all isBlank

end Shellwright.Text

/-!
## Decimal digits

Digits of every script count as digits, and whole numbers are read from any of them.
-/

namespace Shellwright.Text

/-- Code points of the digits zero; the digits one to nine follow each of them. -/
def digitZeros : List Nat :=
  [48, 1632, 1776, 1984, 2406, 2534, 2662, 2790, 2918, 3046, 3174, 3302, 3430, 3558, 3664, 3792,
   3872, 4160, 4240, 6112, 6160, 6470, 6608, 6784, 6800, 6992, 7088, 7232, 7248, 42528, 43216,
   43264, 43472, 43504, 43600, 44016, 65296, 66720, 68912, 69734, 69872, 69942, 70096, 70384, 70736,
   70864, 71248, 71360, 71472, 71904, 72016, 72784, 73040, 73120, 92768, 92864, 93008, 120782,
   120792, 120802, 120812, 120822, 123200, 123632, 125264, 130032]

def digitValue? (c : Char) : Option Nat :=
  (digitZeros.find? fun z => z ≤ c.toNat && c.toNat < z + 10).map (c.toNat - ·)

def isDigit (c : Char) : Bool :=
  (digitValue? c).isSome

/-- The number written by digits, most significant first; other characters count as zero. -/
def digitsValue (cs : List Char) : Nat :=
  cs.foldl (fun n c => 10 * n + (digitValue? c).getD 0) 0

/-- A number of more digits than this is not read. -/
def digitLimit : Nat := 4300

/-- The number written by a run of digits, unless the run is longer than `digitLimit`. -/
def readDigits (cs : List Char) : Option Nat :=
  if cs.length ≤ digitLimit then some (digitsValue cs) else none

/-- The digits of a text in which single underscores may stand between two digits. -/
def groupedDigits : List Char → Option (List Char)
  | [] => none
  | [c] => if isDigit c then some [c] else none
  | c :: '_' :: rest => if isDigit c then (groupedDigits rest).map (c :: ·) else none
  | c :: d :: rest => if isDigit c then (groupedDigits (d :: rest)).map (c :: ·) else none

/-- Split an optional sign from a text; `true` stands for minus. -/
def splitSign : List Char → Bool × List Char
  | '-' :: rest => (true, rest)
  | '+' :: rest => (false, rest)
  | cs => (false, cs)

/-- A whole number with surrounding white space, a sign and grouped digits. -/
def readInt (s : String) : Option Int := do
  let (negative, body) := splitSign (trimWhite s.toList)
  let digits ← groupedDigits body
  let n ← readDigits digits
  return if negative then -(n : Int) else n

end Shellwright.Text
