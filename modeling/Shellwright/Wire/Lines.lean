import Shellwright.Output.Pattern
import Shellwright.Wire.Datum
/-!
# Lines of tools as data

Every form of line by its name, and the parts of a line of that form.
-/

namespace Shellwright.Output

/-- A form of line that tools write. -/
inductive LineForm
  | finding
  | header
  | note
  | error
  | hunk
  deriving DecidableEq, Repr

namespace LineForm

/-- Any other word stands for the header of a hunk. -/
def ofLabel : String → LineForm
  | "gcc" => .finding
  | "block_header" => .header
  | "block_note" => .note
  | "syntax" => .error
  | _ => .hunk

def part (name : String) (cs : List Char) : String × Datum :=
  (name, .text (String.ofList cs))

/-- The parts of a line, when it has the form. -/
def parts? (form : LineForm) (line : List Char) : Option (List (String × Datum)) :=
  match form with
  | .finding => (FindingLine.read line).map fun f =>
    [part "file" f.file, part "line" f.line, part "column" f.column, part "severity" f.level,
      part "message" f.message, part "code" f.code]
  | .header => (HeaderLine.read line).map fun h => [part "file" h.file, part "line" h.line]
  | .note => (NoteLine.read line).map fun n =>
    [part "indent" n.indent, part "code" n.code, part "message" n.message,
      ("severity", .ofText? (n.level.map String.ofList))]
  | .error => (ErrorLine.read line).map fun e =>
    [part "file" e.file, part "line" e.line, part "column" e.column, part "message" e.message]
  | .hunk => (hunkLine line).map fun digits => [part "line" digits]

end LineForm

end Shellwright.Output
