import Shellwright.Diagnostic.Basic
/-!
# Diagnostics on one line

How a diagnostic is printed: where it is, counted from one, how serious it is, and who says so.
-/

namespace Shellwright.Diagnostic

/-- The first line of a message of several lines. -/
def firstLine (message : String) : String :=
  String.ofList ((Text.lines message.toList).headD [])

/-- `path:line:column: severity: message [source:code]`. -/
def line (path : String) (d : Diagnostic) : String :=
  let origin := match d.code with
    | some code => if code.isEmpty then d.source else s!"{d.source}:{code}"
    | none => d.source
  s!"{path}:{d.range.start.line + 1}:{d.range.start.character + 1}: " ++
    s!"{d.severity.label}: {firstLine d.message} [{origin}]"

end Shellwright.Diagnostic
