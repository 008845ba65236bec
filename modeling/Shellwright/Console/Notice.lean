import Shellwright.Text.Cells
/-!
# Notices

Lines that tell the user how a command went. A failure goes to standard error and everything else to
standard output.
-/

namespace Shellwright.Console

inductive Tone
  | info
  | success
  | warning
  | failure
  deriving DecidableEq, Repr

namespace Tone

/-- The sign put before a notice. -/
def sign : Tone → String
  | .info => "ℹ️ "
  | .success => "✅ "
  | .warning => "⚠️ "
  | .failure => "❌ "

def isFailure : Tone → Bool
  | .failure => true
  | _ => false

end Tone

/-- Bell, backspace, vertical tab, form feed and carriage return are never printed. -/
def isDropped (c : Char) : Bool :=
  let n := c.toNat
  n == 7 || n == 8 || n == 11 || n == 12 || n == 13

def printable (cs : List Char) : List Char :=
  cs.filter (!isDropped ·)

/-- Lines as they are printed: without what is dropped, and with blanks for tabs. -/
def printedLines (cs : List Char) : List (List Char) :=
  (Text.editorLines (printable cs)).map Text.expandTabs

/-- A notice as it is printed, with a line feed at its end. -/
def noticeText (tone : Tone) (signs : Bool) (message : String) : String :=
  let text := (if signs then tone.sign else "") ++ message
  String.ofList (['\n'].intercalate (printedLines text.toList)) ++ "\n"

end Shellwright.Console
