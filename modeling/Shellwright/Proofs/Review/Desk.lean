import Shellwright.Proofs.Registry.Steps
import Shellwright.Review.Step
/-!
# The desk of a review

The sessions of a review, its runs and what it has published, and the few ways in which a step changes
them.
-/

namespace Shellwright.Review

structure Desk where
  sessions : Sessions
  runs : List Run
  sink : DiagnosticSink

/-- What of a run never changes. -/
def Run.ticket (run : Run) : Nat × Nat × String :=
  (run.session, run.sequence, run.document)

namespace Desk

def dispatch (d : Desk) (number : Nat) (document : String) : Desk :=
  let sessions := d.sessions.supersede number
  let sequence := ((sessions.at? number).map (·.dispatched)).getD 0
  { d with
    sessions := sessions
    runs := d.runs ++ [{ session := number, sequence := sequence, document := document }] }

/-- The timer of a session has run out. -/
def elapse (d : Desk) (number : Nat) (document : String) : Desk :=
  { d with sessions := d.sessions.cancelPending number }.dispatch number document

def diagnose (d : Desk) (uri document : String) : Desk :=
  { d with sessions := (d.sessions.obtain uri).1 }.elapse (d.sessions.obtain uri).2 document

/-- Wait for a document to be quiet, or no longer wait. -/
def arm (d : Desk) (uri : String) (debounce : Option Debounce) : Desk :=
  { d with
    sessions := (d.sessions.obtain uri).1.modify (d.sessions.obtain uri).2 fun session =>
      { session with debounce := debounce } }

/-- The verdict of run `n` is published for its session. -/
def publish (d : Desk) (n : Nat) (run : Run) (session : Session) (verdict : Verdict) : Desk where
  sessions := d.sessions.markPublished run.session run.sequence
  runs := d.runs.modify n fun run => { run with outcome := some (.done verdict) }
  sink := d.sink.publish session.uri verdict.diagnostics

def close (d : Desk) (uri : String) : Desk :=
  { d with sessions := d.sessions.close uri, sink := d.sink.clear uri }

def shut (d : Desk) : Desk :=
  { d with sessions := d.sessions.closeAll }

end Desk

/-- The call may still have the document checked. -/
def Stage.Awaits (document : String) : Stage → Prop
  | .formatting name _ => name = document
  | .several members => document ∈ members.map Prod.fst
  | _ => False

/-- The event is about the document. -/
def Event.Names (document : String) : Event → Prop
  | .call _ (.diagnose name) => name = document
  | .call _ (.diagnoseAll names) => document ∈ names
  | .call _ (.format name _) => name = document
  | .call _ (.fixAll name _ _) => name = document
  | .change name => name = document
  | .close name => name = document
  | _ => False

/-- The event is a call that may have the document checked later. -/
def Event.Asks (n : Nat) (document : String) : Event → Prop
  | .call m (.diagnoseAll names) => m = n ∧ document ∈ names
  | .call m (.format name _) => m = n ∧ name = document
  | .call m (.fixAll name _ _) => m = n ∧ name = document
  | _ => False

/-- What a step does to the desk; `may` tells which documents may be checked. -/
inductive Does (may : String → Prop) (b : Buffers) (e : Event) (d d' : Desk) : Prop
  | rests (sessions : d'.sessions = d.sessions)
      (runs : d'.runs.map Run.ticket = d.runs.map Run.ticket) (sink : d'.sink = d.sink)
  | publishes (n : Nat) (run : Run) (session : Session) (verdict : Verdict)
      (run_eq : d.runs[n]? = some run) (session_eq : d.sessions.at? run.session = some session)
      (conclusive : verdict.inconclusive = false) (newest : session.mayPublish run.sequence = true)
      (desk : d' = d.publish n run session verdict)
  | diagnoses (document : String) (allowed : may document)
      (shell : (b.find document).isShell = true)
      (desk : d' = d.diagnose (b.find document).uri document)
  | elapses (number : Nat) (session : Session) (debounce : Debounce)
      (event : e = .elapsed debounce.timer) (session_eq : d.sessions.at? number = some session)
      (pending : session.debounce = some debounce) (desk : d' = d.elapse number debounce.document)
  | arms (document : String) (debounce : Option Debounce) (event : e = .change document)
      (own : ∀ x, debounce = some x → x.document = document)
      (desk : d' = d.arm (b.find document).uri debounce)
  | closes (document : String) (event : e = .close document)
      (desk : d' = d.close (b.find document).uri)
  | shuts (n : Nat) (event : e = .call n .shutdown) (desk : d' = d.shut)

theorem Event.Asks.names {e : Event} {n : Nat} {document : String} (h : e.Asks n document) :
    e.Names document := by
  unfold Event.Asks at h
  unfold Event.Names
  split at h
  · exact h.2
  · exact h.2
  · exact h.2
  · exact h.elim

theorem Does.mono {may may' : String → Prop} {b : Buffers} {e : Event} {d d' : Desk}
    (h : Does may b e d d') (imp : ∀ document, may document → may' document) :
    Does may' b e d d' := by
  cases h with
  | rests sessions runs sink => exact .rests sessions runs sink
  | publishes n run session verdict run_eq session_eq conclusive newest desk =>
      exact .publishes n run session verdict run_eq session_eq conclusive newest desk
  | diagnoses document allowed shell desk =>
      exact .diagnoses document (imp document allowed) shell desk
  | elapses number session debounce event session_eq pending desk =>
      exact .elapses number session debounce event session_eq pending desk
  | arms document debounce event own desk => exact .arms document debounce event own desk
  | closes document event desk => exact .closes document event desk
  | shuts n event desk => exact .shuts n event desk

end Shellwright.Review

namespace Shellwright.Reviewer

open Review

def desk (r : Reviewer) : Desk :=
  ⟨r.sessions, r.runs, r.sink⟩

/-- The call may still have the document checked. -/
def Awaits (r : Reviewer) (n : Nat) (document : String) : Prop :=
  ∃ c, r.calls.get? n = some c ∧ c.stage.Awaits document

/-- Only what is wanted done differs. -/
def Mutters (r r' : Reviewer) : Prop :=
  ∃ out, r' = { r with outbox := out }

section Mutters

variable {r r' r'' : Reviewer}

theorem Mutters.refl (r : Reviewer) : r.Mutters r := ⟨r.outbox, rfl⟩

theorem Mutters.trans (h : r.Mutters r') (h' : r'.Mutters r'') : r.Mutters r'' := by
  obtain ⟨out, rfl⟩ := h
  obtain ⟨out', rfl⟩ := h'
  exact ⟨out', rfl⟩

theorem emit_mutters (r : Reviewer) (e : Effect) : r.Mutters (r.emit e) := ⟨_, rfl⟩

theorem log_mutters (r : Reviewer) (level : LogLevel) (text : String) :
    r.Mutters (r.log level text) := ⟨_, rfl⟩

theorem cancelNewest_mutters (r : Reviewer) (number : Nat) : r.Mutters (r.cancelNewest number) := by
  unfold cancelNewest
  split
  · exact emit_mutters r _
  · exact .refl r

theorem foldl_mutters {α : Type} {f : Reviewer → α → Reviewer}
    (h : ∀ (r : Reviewer) (a : α), r.Mutters (f r a)) (r : Reviewer) (l : List α) : r.Mutters (l.foldl f r) := by
  induction l generalizing r with
  | nil => exact .refl r
  | cons a rest ih => exact (h r a).trans (ih (f r a))

end Mutters

/-! ## Runs and sessions -/

theorem dispatch_eq (r : Reviewer) (number : Nat) (document : String) :
    ∃ out, r.dispatch number document =
      ({ r with
        sessions := (r.desk.dispatch number document).sessions
        runs := (r.desk.dispatch number document).runs
        outbox := out }, r.runs.length) := by
  obtain ⟨out, hout⟩ := cancelNewest_mutters r number
  unfold dispatch
  rw [hout]
  exact ⟨_, rfl⟩

/-- A check of a shell script changes the desk and nothing else. -/
theorem diagnose_eq {r : Reviewer} {document : String} (h : (r.document document).isShell = true) :
    ∃ out, r.diagnose document =
      ({ r with
        sessions := (r.desk.diagnose (r.document document).uri document).sessions
        runs := (r.desk.diagnose (r.document document).uri document).runs
        outbox := out }, some r.runs.length) := by
  obtain ⟨out, hout⟩ := dispatch_eq
    { r with
      sessions := (r.sessions.obtain (r.document document).uri).1.cancelPending
        (r.sessions.obtain (r.document document).uri).2 }
    (r.sessions.obtain (r.document document).uri).2 document
  refine ⟨out, ?_⟩
  unfold diagnose
  rw [if_neg (by simp [h])]
  simp only [hout]
  rfl

theorem diagnose_none {r : Reviewer} {document : String} (h : (r.document document).isShell = false) :
    ∃ out, r.diagnose document = ({ r with outbox := out }, none) := by
  unfold diagnose
  rw [if_pos (by simp [h])]
  exact ⟨_, rfl⟩

end Shellwright.Reviewer
