/-!
# UTF-8

Reading bytes as text. A byte sequence that is not well formed is refused by `decode?`; `decodeLossy`
puts one replacement character in place of each maximal part that begins a character and does not
finish it.
-/

namespace Shellwright.Text.Utf8

def isContinuation (b : UInt8) : Bool :=
  0x80 ≤ b && b ≤ 0xBF

/-- What a first byte announces: the number of bytes to follow and the range allowed for the first of
them, which keeps out overlong forms, surrogates and values beyond U+10FFFF. -/
def announced (b : UInt8) : Option (Nat × UInt8 × UInt8) :=
  if b < 0x80 then some (0, 0x80, 0xBF)
  else if b < 0xC2 then none
  else if b < 0xE0 then some (1, 0x80, 0xBF)
  else if b == 0xE0 then some (2, 0xA0, 0xBF)
  else if b == 0xED then some (2, 0x80, 0x9F)
  else if b < 0xF0 then some (2, 0x80, 0xBF)
  else if b == 0xF0 then some (3, 0x90, 0xBF)
  else if b < 0xF4 then some (3, 0x80, 0xBF)
  else if b == 0xF4 then some (3, 0x80, 0x8F)
  else none

/-- The bits of a first byte that belong to the character. -/
def leadBits (b : UInt8) : Nat :=
  if b < 0x80 then b.toNat
  else if b < 0xE0 then b.toNat % 32
  else if b < 0xF0 then b.toNat % 16
  else b.toNat % 8

/-- Reading in progress: the value so far, the bytes still to come and the range of the next one. -/
structure Unfinished where
  value : Nat
  missing : Nat
  low : UInt8
  high : UInt8

/-- A character that was read, or `none` for a part that is not well formed. -/
abbrev Piece := Option Char

/-- Begin at a first byte. -/
def start (b : UInt8) : Piece ⊕ Unfinished :=
  match announced b with
  | none => .inl none
  | some (0, _, _) => .inl (some (Char.ofNat b.toNat))
  | some (k + 1, low, high) => .inr ⟨leadBits b, k + 1, low, high⟩

/-- The pieces of a byte sequence, `held` being the character that is being read. -/
def pieces : Option Unfinished → List UInt8 → List Piece
  | none, [] => []
  | some _, [] => [none]
  | none, b :: rest =>
    match start b with
    | .inl piece => piece :: pieces none rest
    | .inr held => pieces (some held) rest
  | some held, b :: rest =>
    if held.low ≤ b && b ≤ held.high then
      let value := 64 * held.value + b.toNat % 64
      if held.missing ≤ 1 then some (Char.ofNat value) :: pieces none rest
      else pieces (some ⟨value, held.missing - 1, 0x80, 0xBF⟩) rest
    else
      none :: match start b with
        | .inl piece => piece :: pieces none rest
        | .inr next => pieces (some next) rest

def replacement : Char := Char.ofNat 0xFFFD

def decodeLossy (bytes : List UInt8) : String :=
  String.ofList ((pieces none bytes).map (·.getD replacement))

def decode? (bytes : List UInt8) : Option String :=
  ((pieces none bytes).mapM id).map String.ofList

def encode (s : String) : List UInt8 :=
  s.toUTF8.toList

end Shellwright.Text.Utf8
