import Shellwright.Command.Session
import Shellwright.Diagnostic.Line
/-!
# The command `check`

Checks shell scripts at the same time and prints what was found. The status tells whether there was an
error or a check that did not complete.
-/

namespace Shellwright.Command

/-- The verdict on one script. -/
structure Checked where
  script : Script
  verdict : Verdict
  deriving DecidableEq, Repr

namespace Checked

/-- The lines that are printed for a script. -/
def lines (c : Checked) : List String :=
  if c.verdict.inconclusive then []
  else c.verdict.diagnostics.map (Diagnostic.line c.script.document.fileName)

/-- A check that did not complete counts as a failure, like an error that was found. -/
def fails (c : Checked) : Bool :=
  c.verdict.inconclusive || c.verdict.diagnostics.any (·.severity == .error)

def report (c : Checked) : Work Unit :=
  if c.verdict.inconclusive then
    notify .failure
      s!"{c.script.document.fileName}: diagnosis did not complete ({incompleteness c.verdict})"
  else c.lines.forM printLine

end Checked

def checkStatus (cs : List Checked) : Nat :=
  if cs.any Checked.fails then 1 else 0

/-- How many problems there are in all. -/
def summarize (cs : List Checked) : Work Unit :=
  let total := (cs.flatMap Checked.lines).length
  if total = 0 then
    if checkStatus cs = 0 then
      notify .success s!"Checked {cs.length} file(s): no problems found"
    else return
  else printLine s!"{total} problem(s) in {cs.length} file(s)"

/-- The verdicts on scripts, in order; a document that no plugin is asked about has none. -/
def verdictsOn : List Script → List Workspace.Reply → List Checked
  | s :: scripts, .review (.verdict (some v)) :: replies => ⟨s, v⟩ :: verdictsOn scripts replies
  | _ :: scripts, _ :: replies => verdictsOn scripts replies
  | _, _ => []

/-- Check the scripts among files. -/
def check (settings : Settings) (loader : FactoryLoader) (timed : Bool) (files : List String) :
    Work Nat := do
  let scripts ← loadScripts files
  if scripts.isEmpty then
    notify .warning "No shell scripts to check"
    return 0
  let active ← openWorkspace settings loader timed (scripts.map Script.document)
  let replies ← callAll (scripts.mapIdx fun i _ => .openDocument (toString i))
  if active = 0 then notify .warning "No plugin is available; install shellcheck or shfmt"
  let checked := verdictsOn scripts replies
  checked.forM Checked.report
  summarize checked
  if timed then printTimings
  return checkStatus checked

end Shellwright.Command
