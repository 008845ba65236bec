import Shellwright.Text.Lines
/-!
# Positions in a document

Lines and columns count from zero, columns in code points.
-/

namespace Shellwright

structure Position where
  line : Nat
  character : Nat
  deriving DecidableEq, Repr

/-- The text from `start` up to, not including, `stop`. -/
structure Span where
  start : Position
  stop : Position
  deriving DecidableEq, Repr

namespace Span

def ofCoordinates (startLine startCharacter stopLine stopCharacter : Nat) : Span :=
  ⟨⟨startLine, startCharacter⟩, ⟨stopLine, stopCharacter⟩⟩

/-- The whole of a text. -/
def whole (text : String) : Span :=
  let ls := Text.editorLines text.toList
  ofCoordinates 0 0 (ls.length - 1) (ls.getLastD []).length

/-- One line of a text without the carriage returns at its end; the last line stands for any later
one. -/
def ofLine (text : String) (line : Nat) : Span :=
  let ls := Text.editorLines text.toList
  let index := min line (ls.length - 1)
  let kept := (ls.getD index []).reverse.dropWhile (· == '\r')
  ofCoordinates index 0 index kept.length

end Span

/-- A coordinate counted from one, counted from zero; the start is never passed. -/
def zeroBased (n : Int) : Nat :=
  (n - 1).toNat

end Shellwright
