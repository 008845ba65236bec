import Shellwright.Proofs.Plugin.Tools
import Shellwright.Proofs.Registry.Isolation
import Shellwright.Proofs.Workspace.Steps
/-!
# Documents that are opened together

A workspace whose plugins are in place and in which several documents are opened at once. The runs that
this dispatches begin, plugins are asked and tools answer, each in its turn, and the turns may come in any
order.
-/

namespace Shellwright

namespace Workspace

/-- Something that is still to happen: an event that is due, or the answer to a question. -/
inductive Task
  | event (e : Event)
  | inquiry (q : Registry.Inquiry)

def Effect.task? : Effect → Option Task
  | .later e => some (.event e)
  | .ask key part plugin question => some (.inquiry ⟨key, part, plugin, question⟩)
  | _ => none

def Effect.reply? : Effect → Option (Nat × Outcome Reply)
  | .finish n outcome => some (n, outcome)
  | _ => none

end Workspace

open Workspace (Task)

/-- A workspace whose plugins are in place, apart from its documents. -/
structure Workshop where
  tools : Tools
  settings : Settings
  loader : FactoryLoader
  /-- Number of plugins made so far. -/
  made : Nat
  plugins : Keyed String Plugin
  active : List String

namespace Workshop

/-- A workspace with all that is still to happen in it, and the replies to its calls. -/
structure Floor where
  workspace : Workspace
  tasks : List Task := []
  replies : Keyed Nat (Outcome Workspace.Reply) := []

namespace Floor

/-- The workspace takes its step, and what it wants done is added. -/
def react (f : Floor) (e : Workspace.Event) : Floor where
  workspace := { f.workspace.step e with outbox := [] }
  tasks := f.tasks ++ (f.workspace.step e).outbox.filterMap Workspace.Effect.task?
  replies := f.replies ++ (f.workspace.step e).outbox.filterMap Workspace.Effect.reply?

/-- The token has been cancelled. -/
def isOff (f : Floor) : Option Token → Bool
  | some (.run n) => f.workspace.reviewer.sessions.cancelled.getD n false
  | _ => false

/-- What the plugin answers that has been asked. -/
def answerTo (tools : Tools) (f : Floor) (q : Registry.Inquiry) : Answer :=
  let text := (q.question.document?.map fun name => (f.workspace.reviewer.document name).text).getD ""
  tools.answer q.plugin q.question text (f.isOff q.question.options.token)

/-- What a task is to the workspace when its turn has come. -/
def event (tools : Tools) (f : Floor) : Task → Workspace.Event
  | .event e => e
  | .inquiry q => .review (.registry (.answered q.key q.part (f.answerTo tools q)))

/-- One of the tasks has its turn, for as long as there are any. -/
def step (tools : Tools) (f : Floor) (pick : Nat) : Floor :=
  match f.tasks[pick % f.tasks.length]? with
  | some t => { f with tasks := f.tasks.eraseIdx (pick % f.tasks.length) }.react (f.event tools t)
  | none => f

end Floor

/-- How long a plugin may take for a document. -/
def limit (s : Workshop) : Option Execution.Limit :=
  some (.milliseconds s.settings.diagnosis.timeout)

/-- The documents are there, and nothing has happened yet. -/
def workspace (s : Workshop) (documents : List TextDocument) : Workspace :=
  let w := Workspace.create s.settings s.loader (documents.mapIdx fun i d => (toString i, d))
  { w with
    made := s.made
    reviewer := { w.reviewer with registry := { plugins := s.plugins, active := s.active } } }

/-- The first `n` documents have been opened, each with a call of its own. -/
def opened (s : Workshop) (documents : List TextDocument) (n : Nat) : Floor :=
  (List.range n).foldl (fun f i => f.react (.call i (.openDocument (toString i))))
    { workspace := s.workspace documents }

/-- All documents have been opened, and then some turns have been taken. -/
def floor (s : Workshop) (documents : List TextDocument) (picks : Nat → Nat) : Nat → Floor
  | 0 => s.opened documents documents.length
  | t + 1 => (s.floor documents picks t).step s.tools (picks t)

/-- The active plugins that handle a document. -/
def asked (s : Workshop) (d : TextDocument) : List Plugin :=
  (s.plugins.values.filter fun p => s.active.contains p.name).filter (Registry.concerned d)

/-- Another document of the same address is opened later. -/
def isRepeated (documents : List TextDocument) (k : Nat) : Bool :=
  documents[k]?.any fun d => decide (d.uri ∈ (documents.map TextDocument.uri).drop (k + 1))

/-- What the plugins together say about a document; `off` tells whether they have been called off. -/
def verdict (s : Workshop) (off : Bool) (d : TextDocument) : Verdict :=
  Verdict.merge ((s.asked d).map (s.tools.share s.limit off d))

end Workshop

/-! ## What the review wants done -/

namespace Review

def Effect.task? : Effect → Option Task
  | .later e => some (.event (.review e))
  | .ask key part plugin question => some (.inquiry ⟨key, part, plugin, question⟩)
  | _ => none

def Effect.reply? : Effect → Option (Nat × Outcome Workspace.Reply)
  | .finish n outcome => some (n, outcome.map .review)
  | .finishRegistry n outcome => some (n, outcome.map .registry)
  | _ => none

end Review

namespace Reviewer

def tasks (r : Reviewer) : List Task :=
  r.outbox.filterMap Review.Effect.task?

def replies (r : Reviewer) : List (Nat × Outcome Workspace.Reply) :=
  r.outbox.filterMap Review.Effect.reply?

theorem tasks_emit (r : Reviewer) (e : Review.Effect) : (r.emit e).tasks = r.tasks ++ e.task?.toList := by
  unfold tasks emit
  rw [List.filterMap_append]
  cases e <;> rfl

theorem replies_emit (r : Reviewer) (e : Review.Effect) :
    (r.emit e).replies = r.replies ++ e.reply?.toList := by
  unfold replies emit
  rw [List.filterMap_append]
  cases e <;> rfl

end Reviewer

namespace Workspace

variable {w : Workspace}

theorem foldl_absorb_tasks (effects : List Review.Effect) (w : Workspace) :
    (effects.foldl absorb w).outbox.filterMap Effect.task? =
      w.outbox.filterMap Effect.task? ++ effects.filterMap Review.Effect.task? := by
  induction effects generalizing w with
  | nil => simp
  | cons effect rest ih =>
      rw [List.foldl_cons, ih]
      cases effect <;>
        simp [absorb, emit, Effect.task?, Review.Effect.task?, List.filterMap_append, List.filterMap_cons]

theorem foldl_absorb_replies (effects : List Review.Effect) (w : Workspace) :
    (effects.foldl absorb w).outbox.filterMap Effect.reply? = w.outbox.filterMap Effect.reply? := by
  induction effects generalizing w with
  | nil => rfl
  | cons effect rest ih =>
      rw [List.foldl_cons, ih]
      cases effect <;>
        simp [absorb, emit, Effect.reply?, List.filterMap_append, List.filterMap_cons]

/-- The reply that an ending brings when no call of the workspace waits for it. -/
def Ending.reply : Ending → Nat × Outcome Reply
  | .review n outcome => (n, outcome.map .review)
  | .registry n outcome => (n, outcome.map .registry)

/-- No call of the workspace itself waits, so all endings are passed on. -/
theorem foldl_conclude_eq (endings : List Ending) (calls : w.calls = []) :
    endings.foldl conclude w =
      { w with outbox := w.outbox ++ endings.map fun e => .finish e.reply.1 e.reply.2 } := by
  induction endings generalizing w with
  | nil => simp
  | cons ending rest ih =>
      have hfirst : w.conclude ending =
          { w with outbox := w.outbox ++ [.finish ending.reply.1 ending.reply.2] } := by
        unfold conclude
        cases ending <;> simp [calls, passOn, finish, emit, Keyed.drop, Ending.reply]
      have hrest := ih (w := { w with
        outbox := w.outbox ++ [.finish ending.reply.1 ending.reply.2] }) calls
      rw [List.foldl_cons, hfirst, hrest]
      simp

theorem endings_tasks (endings : List Ending) :
    (endings.map fun e => Effect.finish e.reply.1 e.reply.2).filterMap Effect.task? = [] := by
  induction endings with
  | nil => rfl
  | cons ending rest ih => exact ih

theorem endings_replies (effects : List Review.Effect) :
    ((effects.filterMap endingOf?).map fun e => Effect.finish e.reply.1 e.reply.2).filterMap
      Effect.reply? = effects.filterMap Review.Effect.reply? := by
  induction effects with
  | nil => rfl
  | cons effect rest ih =>
      cases effect with
      | finish n outcome => exact congrArg ((n, outcome.map Reply.review) :: ·) ih
      | finishRegistry n outcome => exact congrArg ((n, outcome.map Reply.registry) :: ·) ih
      | _ => exact ih

/-- The review takes a step and nothing of the workspace itself goes on. -/
theorem tellReview_eq (calls : w.calls = []) (outbox : w.outbox = []) (e : Review.Event) :
    ∃ out, w.tellReview e =
        { w with reviewer := { w.reviewer.step e with outbox := [] }, outbox := out } ∧
      out.filterMap Effect.task? = (w.reviewer.step e).tasks ∧
      out.filterMap Effect.reply? = (w.reviewer.step e).replies := by
  have htasks : (w.tell e).1.outbox.filterMap Effect.task? =
      w.outbox.filterMap Effect.task? ++ (w.reviewer.step e).tasks := foldl_absorb_tasks _ _
  have hreplies : (w.tell e).1.outbox.filterMap Effect.reply? = w.outbox.filterMap Effect.reply? :=
    foldl_absorb_replies _ _
  obtain ⟨out, hout⟩ := tell_eq w e
  have hcalls : (w.tell e).1.calls = [] := by
    rw [hout]
    exact calls
  refine ⟨(w.tell e).1.outbox ++ (w.tell e).2.map fun e => .finish e.reply.1 e.reply.2, ?_, ?_, ?_⟩
  · change (w.tell e).2.foldl conclude (w.tell e).1 = _
    rw [foldl_conclude_eq _ hcalls, hout]
  · rw [List.filterMap_append, htasks, outbox, endings_tasks, List.append_nil]
    rfl
  · rw [List.filterMap_append, hreplies, outbox]
    exact endings_replies _

end Workspace

end Shellwright
