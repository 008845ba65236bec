import Shellwright.Decimal
import Shellwright.Text.Blank
import Shellwright.Text.Quoted
import Shellwright.Wire.Datum
/-!
# JSON

Data as JSON text. A number with a fraction or an exponent is a float and any other an integer of any
size. Reading is lenient: a text that is not JSON gives some value or other.
-/

namespace Shellwright.Json

/-! ## Writing -/

def escapeChar (c : Char) : List Char :=
  if c = '"' then ['\\', '"']
  else if c = '\\' then ['\\', '\\']
  else if c.toNat < 32 || c.toNat = 127 then '\\' :: 'u' :: Text.hexDigits c.toNat 4
  else [c]

def quote (s : String) : String :=
  String.ofList ('"' :: s.toList.flatMap escapeChar ++ ['"'])

mutual

def write : Datum → String
  | .null => "null"
  | .bool b => if b then "true" else "false"
  | .int n => toString n
  | .float x => Decimal.shortest x
  | .text s => quote s
  | .list items => "[" ++ ",".intercalate (writeItems items) ++ "]"
  | .table entries => "\x7b" ++ ",".intercalate (writeEntries entries) ++ "\x7d"
  | .moment description => quote description

def writeItems : List Datum → List String
  | [] => []
  | d :: rest => write d :: writeItems rest

def writeEntries : List (String × Datum) → List String
  | [] => []
  | (key, d) :: rest => (quote key ++ ":" ++ write d) :: writeEntries rest

end

/-! ## Reading -/

def isSpace (c : Char) : Bool :=
  c == ' ' || c == '\n' || c == '\t' || c == '\r'

def hexValue (c : Char) : Nat :=
  if '0' ≤ c && c ≤ '9' then c.toNat - 48
  else if 'a' ≤ c && c ≤ 'f' then c.toNat - 87
  else c.toNat - 55

/-- What a letter after a backslash stands for. -/
def unescaped (c : Char) : Char :=
  match c with
  | 'n' => '\n'
  | 't' => '\t'
  | 'r' => '\r'
  | 'b' => Char.ofNat 8
  | 'f' => Char.ofNat 12
  | c => c

/-- The code units of a text up to its closing quote, and what follows that. -/
def readUnits : List Char → List Nat × List Char
  | [] => ([], [])
  | '"' :: rest => ([], rest)
  | '\\' :: 'u' :: a :: b :: c :: d :: rest =>
    let (units, rest) := readUnits rest
    ((((hexValue a * 16 + hexValue b) * 16 + hexValue c) * 16 + hexValue d) :: units, rest)
  | '\\' :: c :: rest =>
    let (units, rest) := readUnits rest
    ((unescaped c).toNat :: units, rest)
  | c :: rest =>
    let (units, rest) := readUnits rest
    (c.toNat :: units, rest)

/-- Two surrogates in a row are one code point. -/
def joinUnits : List Nat → List Char
  | [] => []
  | [n] => [Char.ofNat n]
  | n :: m :: rest =>
    if 0xD800 ≤ n && n < 0xDC00 && 0xDC00 ≤ m && m < 0xE000 then
      Char.ofNat (0x10000 + (n - 0xD800) * 1024 + (m - 0xDC00)) :: joinUnits rest
    else Char.ofNat n :: joinUnits (m :: rest)

def readString (cs : List Char) : String × List Char :=
  let (units, rest) := readUnits cs
  (String.ofList (joinUnits units), rest)

def isExponent (c : Char) : Bool :=
  c == 'e' || c == 'E'

def isNumberChar (c : Char) : Bool :=
  c.isDigit || c == '-' || c == '+' || c == '.' || isExponent c

def readUnsigned (cs : List Char) (negative : Bool) : Datum :=
  if cs.any fun c => c == '.' || isExponent c then
    let mantissa := cs.takeWhile (!isExponent ·)
    let whole := mantissa.takeWhile (· != '.')
    let fraction := (mantissa.dropWhile (· != '.')).drop 1
    let (minus, digits) := Text.splitSign ((cs.dropWhile (!isExponent ·)).drop 1)
    let power : Int := Text.digitsValue digits
    let x := Decimal.nearest (Text.digitsValue (whole ++ fraction))
      ((if minus then -power else power) - fraction.length)
    .float (Decimal.signed negative x)
  else
    let n : Int := Text.digitsValue cs
    .int (if negative then -n else n)

def readNumber : List Char → Datum
  | '-' :: cs => readUnsigned cs true
  | cs => readUnsigned cs false

mutual

/-- The value at the start of a text, and what follows it; `fuel` bounds the length of the text. -/
def readValue : (fuel : Nat) → List Char → Datum × List Char
  | 0, cs => (.null, cs)
  | fuel + 1, cs =>
    match cs.dropWhile isSpace with
    | '"' :: rest =>
      let (s, rest) := readString rest
      (.text s, rest)
    | '[' :: rest =>
      match rest.dropWhile isSpace with
      | ']' :: rest => (.list [], rest)
      | rest =>
        let (items, rest) := readItems fuel rest
        (.list items, rest)
    | '\x7b' :: rest =>
      match rest.dropWhile isSpace with
      | '\x7d' :: rest => (.table [], rest)
      | rest =>
        let (entries, rest) := readEntries fuel rest
        (.table entries, rest)
    | 't' :: rest => (.bool true, rest.drop 3)
    | 'f' :: rest => (.bool false, rest.drop 4)
    | 'n' :: rest => (.null, rest.drop 3)
    | 'N' :: rest => (.float (0.0 / 0.0), rest.drop 2)
    | 'I' :: rest => (.float (1.0 / 0.0), rest.drop 7)
    | '-' :: 'I' :: rest => (.float (-1.0 / 0.0), rest.drop 7)
    | rest => (readNumber (rest.takeWhile isNumberChar), rest.dropWhile isNumberChar)

def readItems : (fuel : Nat) → List Char → List Datum × List Char
  | 0, cs => ([], cs)
  | fuel + 1, cs =>
    let (d, rest) := readValue fuel cs
    match rest.dropWhile isSpace with
    | ',' :: rest =>
      let (items, rest) := readItems fuel rest
      (d :: items, rest)
    | rest => ([d], rest.drop 1)

def readEntries : (fuel : Nat) → List Char → List (String × Datum) × List Char
  | 0, cs => ([], cs)
  | fuel + 1, cs =>
    let (key, rest) := readString ((cs.dropWhile isSpace).drop 1)
    let (d, rest) := readValue fuel ((rest.dropWhile isSpace).drop 1)
    match rest.dropWhile isSpace with
    | ',' :: rest =>
      let (entries, rest) := readEntries fuel rest
      ((key, d) :: entries, rest)
    | rest => ([(key, d)], rest.drop 1)

end

def read (text : String) : Datum :=
  let cs := text.toList
  (readValue (2 * cs.length + 1) cs).1

end Shellwright.Json
