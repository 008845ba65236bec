import Shellwright.Registry.Step
import Shellwright.Review.Basic
/-!
# Steps of a review

A review reacts to one event at a time, and so does the registry below it: what the registry wants done
is passed on, and the ends of its calls carry on those of the review.
-/

namespace Shellwright.Reviewer

open Review

def emit (r : Reviewer) (e : Effect) : Reviewer :=
  { r with outbox := r.outbox ++ [e] }

def log (r : Reviewer) (level : LogLevel) (text : String) : Reviewer :=
  r.emit (.log ⟨level, .review, text⟩)

def document (r : Reviewer) (name : String) : TextDocument :=
  r.buffers.find name

def setCall (r : Reviewer) (n : Nat) (c : Call) : Reviewer :=
  { r with calls := r.calls.put n c }

def finish (r : Reviewer) (n : Nat) (outcome : Outcome Reply) : Reviewer :=
  { r with calls := r.calls.drop n }.emit (.finish n outcome)

/-! ## Runs -/

/-- Tell those who listen to the newest run of a session that it is cancelled. -/
def cancelNewest (r : Reviewer) (number : Nat) : Reviewer :=
  match (r.sessions.at? number).bind (·.source) with
  | some run => r.emit (.cancel run)
  | none => r

/-- Dispatch a run for a session: it gets the next number and supersedes the one before. -/
def dispatch (r : Reviewer) (number : Nat) (document : String) : Reviewer × Nat :=
  let r := r.cancelNewest number
  let sessions := r.sessions.supersede number
  let sequence := ((sessions.at? number).map (·.dispatched)).getD 0
  let run : Run := { session := number, sequence := sequence, document := document }
  let n := r.runs.length
  ({ r with sessions := sessions, runs := r.runs ++ [run] }.emit (.later (.begin n)), n)

/-- Check a document at once; what was pending for it is superseded. A document that is not a shell
script is passed over. -/
def diagnose (r : Reviewer) (document : String) : Reviewer × Option Nat :=
  let d := r.document document
  if !d.isShell then (r.log .debug s!"skipping {d.fileName}", none)
  else
    let (sessions, number) := r.sessions.obtain d.uri
    let (r, run) := { r with sessions := sessions.cancelPending number }.dispatch number document
    (r, some run)

/-- The verdict of a run is published if the run is the newest of its session and says anything. -/
def publish (r : Reviewer) (run : Run) (verdict : Verdict) : Reviewer :=
  match r.sessions.at? run.session with
  | none => r
  | some session =>
    if verdict.inconclusive then
      r.log .debug
        s!"run {run.sequence} for {session.uri} inconclusive, keeping previous diagnostics"
    else if session.mayPublish run.sequence then
      { r with
        sessions := r.sessions.markPublished run.session run.sequence
        sink := r.sink.publish session.uri verdict.diagnostics }
    else r.log .debug s!"discarding stale run {run.sequence} for {session.uri}"

def setRun (r : Reviewer) (n : Nat) (f : Run → Run) : Reviewer :=
  { r with runs := r.runs.modify n f }

/-- A run is over; those who wait for it learn so a little later. -/
def endRun (r : Reviewer) (n : Nat) (outcome : Outcome Verdict) : Reviewer :=
  (r.setRun n fun run => { run with outcome := some outcome }).emit (.later (.ended n))

/-- The registry has answered the check of a run. -/
def completeRun (r : Reviewer) (n : Nat) (outcome : Outcome Registry.Reply) : Reviewer :=
  let r := r.emit (.stopped n)
  match r.runs[n]?, outcome with
  | some run, .done (.checked verdict) => (r.publish run verdict).endRun n (.done verdict)
  | _, .raised trouble => r.endRun n (.raised trouble)
  | _, _ => r.endRun n .aborted

/-! ## Formats -/

/-- Apply edits to the editable document that has the address of `document`. -/
def applyEdits (r : Reviewer) (document : String) (editable : List String)
    (edits : List TextEdit) : Reviewer × Bool :=
  let uri := (r.document document).uri
  match editable.reverse.find? fun name => (r.document name).uri == uri with
  | none => (r, false)
  | some name =>
    let (accepted, changed) := (r.document name).applyEdits edits
    ({ r with buffers := Keyed.put r.buffers name changed }, accepted)

/-- The reply to a fix without edits. -/
def unfixed (r : Reviewer) (n : Nat) (document : String) (verdict : FormatVerdict) : Reviewer :=
  if verdict.inconclusive then r.finish n (.done (.fixed .inconclusive))
  else if verdict.diagnostics.isEmpty then r.finish n (.done (.fixed .unchanged))
  else
    let reason := match verdict.errorMessage with
      | some m => if m.isEmpty then "see diagnostics" else m
      | none => "see diagnostics"
    (r.log .warning s!"formatting {(r.document document).uri} failed: {reason}").finish n
      (.done (.fixed .refused))

/-- The reply to a format whose verdict holds no edits. -/
def withoutEdits (r : Reviewer) (n : Nat) (document : String) (verdict : FormatVerdict) :
    FormatPurpose → Reviewer
  | .edits => r.finish n (.done (.formatted verdict))
  | .fix _ => r.unfixed n document verdict

/-- The edits of a formatter are handed over, or applied and the document checked anew. -/
def withEdits (r : Reviewer) (n : Nat) (document : String) (verdict : FormatVerdict) :
    FormatPurpose → Reviewer
  | .edits => r.finish n (.done (.formatted verdict))
  | .fix editable =>
    let (r, accepted) := r.applyEdits document editable verdict.edits
    if !accepted then
      (r.log .warning s!"host rejected formatting edits for {(r.document document).uri}").finish n
        (.done (.fixed .rejected))
    else match r.diagnose document with
      | (r, some run) => r.setCall n ⟨.applied run, false⟩
      | (r, none) => r.finish n (.done (.fixed .applied))

/-- The formatters have been asked. When one of them failed, the document is checked anew before the
reply, so that the user sees why. -/
def completeFormat (r : Reviewer) (n : Nat) (document : String) (purpose : FormatPurpose)
    (verdict : FormatVerdict) : Reviewer :=
  if !verdict.edits.isEmpty then r.withEdits n document verdict purpose
  else if verdict.diagnostics.any Diagnostic.isBlocking then
    match r.diagnose document with
    | (r, some run) => r.setCall n ⟨.refreshing run document purpose verdict, false⟩
    | (r, none) => r.withoutEdits n document verdict purpose
  else r.withoutEdits n document verdict purpose

/-- The registry has ended a call that the host has made, for itself or for a format. -/
def completeCall (r : Reviewer) (n : Nat) (outcome : Outcome Registry.Reply) : Reviewer :=
  match (r.calls.get? n).map Call.stage, outcome with
  | some (.formatting document purpose), .done (.formatted verdict) =>
    r.completeFormat n document purpose verdict
  | some (.formatting ..), .raised trouble => r.finish n (.raised trouble)
  | some (.formatting ..), _ => r.finish n .aborted
  | _, _ => r.emit (.finishRegistry n outcome)

/-! ## The registry below -/

def absorb (r : Reviewer) : Registry.Effect → Reviewer
  | .later e => r.emit (.later (.registry e))
  | .ask key part plugin question => r.emit (.ask key part plugin question)
  | .quit key part => r.emit (.quit key part)
  | .log record => r.emit (.log record)
  | .finish (.run n) outcome => r.completeRun n outcome
  | .finish (.host n) outcome => r.completeCall n outcome

/-- Let the registry do one step, and see to what it wants done. -/
def tellRegistry (r : Reviewer) (e : Registry.Event) : Reviewer :=
  let registry := r.registry.step r.buffers e
  registry.outbox.foldl absorb { r with registry := { registry with outbox := [] } }

/-! ## Calls -/

/-- Call a run off. -/
def abortRun (r : Reviewer) (n : Nat) : Reviewer :=
  match r.registry.calls.get? (.run n) with
  | some _ => r.tellRegistry (.abort (.run n))
  | none => r.setRun n fun run => { run with dropped := true }

/-- The runs that a call waits for. -/
def awaited : Stage → List Nat
  | .running run => [run]
  | .several members => members.filterMap fun
    | (_, .running run) => some run
    | _ => none
  | .formatting .. => []
  | .refreshing run .. => [run]
  | .applied run => [run]
  | .closing runs => runs

def abort (r : Reviewer) (n : Nat) (c : Call) : Reviewer :=
  let r := r.setCall n { c with aborting := true }
  match c.stage with
  | .formatting .. => r.tellRegistry (.abort (.host n))
  | stage => (awaited stage).foldl abortRun r

def allSettled (members : List (String × Member)) : Bool :=
  members.all fun m => match m.2 with
    | .settled _ => true
    | _ => false

def setMember (members : List (String × Member)) (i : Nat) (m : Member) :
    List (String × Member) :=
  members.modify i fun entry => (entry.1, m)

/-- The members of a call have changed; the last one to settle completes the call a little later. -/
def setMembers (r : Reviewer) (n : Nat) (c : Call) (members : List (String × Member)) : Reviewer :=
  let r := r.setCall n { c with stage := .several members }
  if allSettled members then r.emit (.later (.gathered n)) else r

/-- Verdicts by address, without the documents that were passed over. -/
def verdictsOf (r : Reviewer) (members : List (String × Member)) : Keyed String Verdict :=
  Keyed.ofList (members.filterMap fun
    | (name, .settled (some v)) => some ((r.document name).uri, v)
    | _ => none)

/-- Close all sessions and wait for their runs. -/
def shutdown (r : Reviewer) (n : Nat) : Reviewer :=
  let numbers := r.sessions.registered.values
  let r := numbers.foldl cancelNewest r
  let r := { r with sessions := r.sessions.closeAll }
  let unfinished := (List.range r.runs.length).filter fun i =>
    r.runs[i]?.any fun run => numbers.contains run.session && run.outcome.isNone
  if unfinished.isEmpty then r.finish n (.done .settled) else r.setCall n ⟨.closing unfinished, false⟩

def call (r : Reviewer) (n : Nat) : Request → Reviewer
  | .diagnose document =>
    match r.diagnose document with
    | (r, some run) => r.setCall n ⟨.running run, false⟩
    | (r, none) => r.finish n (.done (.verdict none))
  | .diagnoseAll documents =>
    let targets := documents.filter fun name => (r.document name).isShell
    if targets.isEmpty then r.finish n (.done (.verdicts []))
    else
      let r := r.setCall n ⟨.several (targets.map (·, .waiting)), false⟩
      (List.range targets.length).foldl (fun r i => r.emit (.later (.member n i))) r
  | .format document token =>
    (r.setCall n ⟨.formatting document .edits, false⟩).tellRegistry
      (.call (.host n) (.format document ⟨token, r.timeout⟩))
  | .fixAll document token editable =>
    if !(r.document document).isShell then r.finish n (.done (.fixed .skipped))
    else (r.setCall n ⟨.formatting document (.fix editable), false⟩).tellRegistry
      (.call (.host n) (.format document ⟨token, r.timeout⟩))
  | .shutdown => r.shutdown n

/-- A document was edited and is to be checked when it has been quiet for a while. For a time that the
clock cannot measure no timer is set. -/
def change (r : Reviewer) (document : String) : Reviewer :=
  let d := r.document document
  if !r.onChange || !d.isShell then r
  else
    let (sessions, number) := r.sessions.obtain d.uri
    match r.debounce.filter Execution.isMeasurable with
    | none => { r with sessions := sessions.cancelPending number }
    | some delay =>
      let timer := r.timers
      { r with
        timers := timer + 1
        sessions := sessions.modify number fun session =>
          { session with debounce := some ⟨timer, document⟩ } }.emit (.timer timer delay)

/-- A document is closed: its session ends and its diagnostics are cleared. -/
def close (r : Reviewer) (document : String) : Reviewer :=
  let uri := (r.document document).uri
  let r := ((r.sessions.get? uri).map r.cancelNewest).getD r
  { r with sessions := r.sessions.close uri, sink := r.sink.clear uri }

/-- A timer has run out. It counts only while the session that set it still waits for it. -/
def elapsed (r : Reviewer) (timer : Nat) : Reviewer :=
  match r.sessions.all.findIdx? fun session => session.debounce.any (·.timer == timer) with
  | none => r
  | some number =>
    match (r.sessions.at? number).bind (·.debounce) with
    | none => r
    | some debounce =>
      ({ r with sessions := r.sessions.cancelPending number }.dispatch number debounce.document).1

def member (r : Reviewer) (n i : Nat) (c : Call) : Reviewer :=
  if c.aborting then r.finish n .aborted
  else match c.stage with
    | .several members =>
      match members[i]? with
      | none => r
      | some (name, _) =>
        match r.diagnose name with
        | (r, some run) => r.setMembers n c (setMember members i (.running run))
        | (r, none) => r.setMembers n c (setMember members i (.settled none))
    | _ => r

/-- A run begins: the registry is asked to check the document. -/
def begin (r : Reviewer) (n : Nat) (run : Run) : Reviewer :=
  if run.dropped then r.endRun n .aborted
  else (r.emit (.started n)).tellRegistry
    (.call (.run n) (.check run.document ⟨some (.run n), r.timeout⟩))

/-- A call goes on after a run that it waits for. -/
def resume (r : Reviewer) (n : Nat) (run : Nat) (outcome : Outcome Verdict) (c : Call) : Reviewer :=
  if !(awaited c.stage).contains run then r
  else match c.stage, outcome with
    | .closing runs, _ =>
      let rest := runs.filter (· != run)
      if !rest.isEmpty then r.setCall n { c with stage := .closing rest }
      else if c.aborting then r.finish n .aborted
      else r.finish n (.done .settled)
    | _, .aborted => r.finish n .aborted
    | _, .raised trouble => r.finish n (.raised trouble)
    | .running _, .done verdict => r.finish n (.done (.verdict (some verdict)))
    | .several members, .done verdict =>
      r.setMembers n c (members.map fun m =>
        if m.2 = .running run then (m.1, .settled (some verdict)) else m)
    | .refreshing _ document purpose format, .done _ => r.withoutEdits n document format purpose
    | .applied _, .done _ => r.finish n (.done (.fixed .applied))
    | .formatting .., .done _ => r

def ended (r : Reviewer) (run : Nat) : Reviewer :=
  match r.runs[run]?.bind (·.outcome) with
  | none => r
  | some outcome =>
    r.calls.keys.foldl (fun r n =>
      match r.calls.get? n with
      | some c => r.resume n run outcome c
      | none => r) r

def gathered (r : Reviewer) (n : Nat) (c : Call) : Reviewer :=
  if c.aborting then r.finish n .aborted
  else match c.stage with
    | .several members => r.finish n (.done (.verdicts (r.verdictsOf members)))
    | _ => r

def withCall (r : Reviewer) (n : Nat) (f : Call → Reviewer) : Reviewer :=
  match r.calls.get? n with
  | some c => f c
  | none => r

def step (r : Reviewer) : Event → Reviewer
  | .registry e => r.tellRegistry e
  | .call n request => r.call n request
  | .change document => r.change document
  | .close document => r.close document
  | .update document text =>
    { r with buffers := r.buffers.change document (·.update text) }
  | .configure debounce timeout onChange =>
    { r with debounce := debounce, timeout := timeout, onChange := onChange }
  | .elapsed timer => r.elapsed timer
  | .member n i => r.withCall n (r.member n i)
  | .begin n =>
    match r.runs[n]? with
    | some run => r.begin n run
    | none => r
  | .ended n => r.ended n
  | .gathered n => r.withCall n (r.gathered n)
  | .abort n => r.withCall n (r.abort n)

end Shellwright.Reviewer
