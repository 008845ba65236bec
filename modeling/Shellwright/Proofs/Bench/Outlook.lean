import Mathlib.Data.Multiset.AddSub
import Shellwright.Bench.Run
/-!
# The outlook of a bench

For the calls of the host it matters what the plugins have been asked, what the workspace is yet to be told
and which calls have ended. Clocks, children and tokens are beside the point: whatever happens to them, the
outlook is the same, unless a plugin answers.
-/

namespace Shellwright.Bench

/-- What a message has in store for the workspace, at once or after some turns. -/
def Message.event? : Message → Option Workspace.Event
  | .workspace e => some e
  | .delayed _ m => m.event?
  | .supervisor .. | .launched _ | .feed _ | .write .. | .exit .. | .ready _ | .interrupt _ | .quit _
  | .cancel _ => none

/-- What of a bench concerns the calls of the host. -/
structure Outlook where
  workspace : Workspace
  activities : List Activity
  /-- What the workspace is yet to be told, in whatever order. -/
  upcoming : Multiset Workspace.Event
  finished : List Finish
  calls : Nat

/-- The workspace is yet to be told what a message has in store for it. -/
def Outlook.hold (o : Outlook) (m : Message) : Outlook :=
  { o with upcoming := (m.event?.toList : Multiset Workspace.Event) + o.upcoming }

theorem Outlook.hold_of_none {m : Message} (h : m.event? = none) (o : Outlook) : o.hold m = o := by
  simp [hold, h]

def messages (b : Bench) : List Message :=
  b.urgent ++ b.queue ++ b.timers.map Timer.message

def outlook (b : Bench) : Outlook where
  workspace := b.workspace
  activities := b.activities
  upcoming := (b.messages.filterMap Message.event? : Multiset Workspace.Event)
  finished := b.finished
  calls := b.calls

variable {b : Bench} {m : Message} {p : Nat} {process : Process} {token : Option Token} {s : Subscriber}

/-! ## Messages -/

/-- The order in which messages wait is of no matter. -/
theorem upcoming_of_perm {messages : List Message} (h : messages.Perm (m :: b.messages)) :
    (messages.filterMap Message.event? : Multiset Workspace.Event) = (b.outlook.hold m).upcoming := by
  have hevents := h.filterMap Message.event?
  rw [List.filterMap_cons] at hevents
  have hsplit : (m.event?.toList : Multiset Workspace.Event) + b.outlook.upcoming =
      ((m.event?.toList ++ b.messages.filterMap Message.event? : List Workspace.Event) :
        Multiset Workspace.Event) := rfl
  rw [Outlook.hold, hsplit, Multiset.coe_eq_coe]
  cases hevent : m.event? <;> simpa [hevent] using hevents

theorem outlook_urge (b : Bench) (m : Message) : (b.urge m).outlook = b.outlook.hold m := by
  have hperm : (b.urge m).messages.Perm (m :: b.messages) := by
    simp [messages, urge]
  exact congrArg (Outlook.mk b.workspace b.activities · b.finished b.calls) (upcoming_of_perm hperm)

theorem outlook_post (b : Bench) (m : Message) : (b.post m).outlook = b.outlook.hold m := by
  have hperm : (b.post m).messages.Perm (m :: b.messages) := by
    have hmiddle : (b.urgent ++ b.queue ++ m :: b.timers.map Timer.message).Perm
        (m :: (b.urgent ++ b.queue ++ b.timers.map Timer.message)) := List.perm_middle
    simpa [messages, post] using hmiddle
  exact congrArg (Outlook.mk b.workspace b.activities · b.finished b.calls) (upcoming_of_perm hperm)

theorem outlook_after (b : Bench) (delay : Int) (m : Message) :
    (b.after delay m).outlook = b.outlook.hold m := by
  unfold after
  split
  · exact outlook_post b m
  · have hperm : (b.messages ++ [m]).Perm (m :: b.messages) := List.perm_append_singleton m b.messages
    have hsame : ({ b with timers := b.timers ++ [⟨b.now + delay.toNat, m⟩] } : Bench).messages =
        b.messages ++ [m] := by simp [messages]
    have hupcoming := upcoming_of_perm hperm
    rw [← hsame] at hupcoming
    exact congrArg (Outlook.mk b.workspace b.activities · b.finished b.calls) hupcoming

/-- The clock brings nothing that was not in store. -/
theorem outlook_jump (b : Bench) (time : Nat) : (b.jump time).outlook = b.outlook := by
  have hperm : (b.jump time).messages.Perm b.messages := by
    have hsplit : (b.timers.filter (·.due ≤ time) ++ b.timers.filter (time < ·.due)).Perm b.timers := by
      have hlate : (fun t : Timer => decide (time < t.due)) = fun t => !decide (t.due ≤ time) := by
        funext t
        rw [← decide_not, decide_eq_decide]
        exact Nat.not_le.symm
      rw [hlate]
      exact List.filter_append_perm _ _
    have htimers := hsplit.map Timer.message
    rw [List.map_append] at htimers
    simpa [messages, jump] using htimers.append_left (b.urgent ++ b.queue)
  have hupcoming : ((b.jump time).messages.filterMap Message.event? : Multiset Workspace.Event) =
      (b.messages.filterMap Message.event? : Multiset Workspace.Event) :=
    Multiset.coe_eq_coe.2 (hperm.filterMap _)
  exact congrArg (Outlook.mk b.workspace b.activities · b.finished b.calls) hupcoming

theorem outlook_urge_aside (h : m.event? = none) : (b.urge m).outlook = b.outlook := by
  rw [outlook_urge, Outlook.hold_of_none h]

theorem outlook_post_aside (h : m.event? = none) : (b.post m).outlook = b.outlook := by
  rw [outlook_post, Outlook.hold_of_none h]

theorem outlook_after_aside (h : m.event? = none) (delay : Int) :
    (b.after delay m).outlook = b.outlook := by
  rw [outlook_after, Outlook.hold_of_none h]

/-- What happens next was in store. -/
theorem next?_eq {b' : Bench} (h : b.next? = some b') :
    ∃ (b₁ : Bench) (m : Message), b' = b₁.handle m ∧ b.outlook = b₁.outlook.hold m := by
  unfold next? at h
  split at h
  · rename_i m rest hurgent
    cases h
    refine ⟨{ b with urgent := rest }, m, rfl, ?_⟩
    have hperm : b.messages.Perm (m :: ({ b with urgent := rest } : Bench).messages) := by
      rw [messages, hurgent]
      exact List.Perm.refl _
    exact congrArg (Outlook.mk b.workspace b.activities · b.finished b.calls) (upcoming_of_perm hperm)
  · rename_i m rest hurgent hqueue
    cases h
    refine ⟨{ b with queue := rest }, m, rfl, ?_⟩
    have hperm : b.messages.Perm (m :: ({ b with queue := rest } : Bench).messages) := by
      rw [messages, messages, hurgent, hqueue]
      exact List.Perm.refl _
    exact congrArg (Outlook.mk b.workspace b.activities · b.finished b.calls) (upcoming_of_perm hperm)
  · cases h

/-! ## Tokens and the clock -/

theorem outlook_see (b : Bench) (words : List String) : (b.see words).outlook = b.outlook := rfl

theorem outlook_clock (b : Bench) (metric : Metric) (since : Nat) :
    (b.clock metric since).outlook = b.outlook := rfl

theorem outlook_source (b : Bench) (token : Token) : (b.source token).outlook = b.outlook := by
  unfold source
  split <;> rfl

theorem outlook_hear (b : Bench) (s : Subscriber) : (b.hear s).outlook = b.outlook := by
  cases s with
  | process p => exact outlook_post_aside rfl
  | activity a => exact outlook_post_aside rfl

theorem outlook_cancel (b : Bench) (token : Token) : (b.cancel token).outlook = b.outlook := by
  have hheard (told : List Subscriber) (b : Bench) : (told.foldl hear b).outlook = b.outlook := by
    induction told generalizing b with
    | nil => rfl
    | cons s rest ih => exact (ih _).trans (outlook_hear b s)
  exact (hheard _ _).trans (outlook_source b token)

theorem outlook_listen (b : Bench) (token : Option Token) (s : Subscriber) :
    (b.listen token s).outlook = b.outlook := by
  unfold listen
  split
  · rfl
  · dsimp only
    split
    · exact (outlook_hear _ s).trans (outlook_source b _)
    · exact outlook_source b _

theorem outlook_unlisten (b : Bench) (token : Option Token) (s : Subscriber) :
    (b.unlisten token s).outlook = b.outlook := by
  unfold unlisten
  split <;> rfl

/-! ## Children -/

theorem outlook_modifyProcess (b : Bench) (p : Nat) (f : Process → Process) :
    (b.modifyProcess p f).outlook = b.outlook := rfl

theorem outlook_modifyLaunch (b : Bench) (n : Nat) (f : Launch → Launch) :
    (b.modifyLaunch n f).outlook = b.outlook := rfl

theorem outlook_beginChild (b : Bench) (p : Nat) (process : Process) :
    (b.beginChild p process).outlook = b.outlook := by
  have hwrite (b : Bench) (stream : OutputStream) (bytes : List UInt8) :
      (if bytes.isEmpty then b else b.urge (.write p stream bytes)).outlook = b.outlook := by
    split
    · rfl
    · exact outlook_urge_aside rfl
  have hlater (outputs : List LateOutput) (b : Bench) :
      (outputs.foldl (fun b o => b.after o.delay (.write p o.stream o.bytes)) b).outlook = b.outlook := by
    induction outputs generalizing b with
    | nil => rfl
    | cons o rest ih => exact (ih _).trans (outlook_after_aside rfl _)
  have hwritten (b : Bench) (rule : Rule) : (rule.later.foldl
      (fun b o => b.after o.delay (.write p o.stream o.bytes))
      (if rule.stderr.isEmpty then if rule.stdout.isEmpty then b else b.urge (.write p .stdout rule.stdout)
        else (if rule.stdout.isEmpty then b else b.urge (.write p .stdout rule.stdout)).urge
          (.write p .stderr rule.stderr))).outlook = b.outlook :=
    (hlater _ _).trans ((hwrite _ .stderr _).trans (hwrite b .stdout _))
  unfold beginChild
  dsimp only
  split
  · exact hwritten _ _
  · exact (outlook_after_aside rfl _).trans (hwritten _ _)

theorem outlook_exitChild (b : Bench) (p : Nat) (status : Int) (process : Process) :
    (b.exitChild p status process).outlook = b.outlook := by
  unfold exitChild
  dsimp only
  split
  · rfl
  · split
    · exact outlook_urge_aside rfl
    · exact (outlook_post_aside rfl).trans ((outlook_post_aside rfl).trans (outlook_urge_aside rfl))

theorem outlook_killChild (b : Bench) (p : Nat) (process : Process) :
    (b.killChild p process).outlook = b.outlook := by
  unfold killChild
  dsimp only
  split
  · rfl
  · split
    · rfl
    · rfl
    · exact outlook_after_aside rfl _

theorem outlook_feedChild (b : Bench) (p : Nat) (process : Process) :
    (b.feedChild p process).outlook = b.outlook := by
  unfold feedChild
  dsimp only
  split
  · exact outlook_urge_aside rfl
  · have hfed (b : Bench) : ((b.beginChild p process).urge (.supervisor p .fed)).outlook = b.outlook :=
      (outlook_urge_aside rfl).trans (outlook_beginChild b p process)
    split
    · exact (hfed _).trans (outlook_urge_aside rfl)
    · exact hfed _

theorem outlook_launchChild (b : Bench) (p : Nat) (process : Process) :
    (b.launchChild p process).outlook = b.outlook := by
  unfold launchChild
  dsimp only
  split
  · exact outlook_urge_aside rfl
  · refine (outlook_post_aside rfl).trans ?_
    split
    · exact (outlook_beginChild _ p process).trans (outlook_urge_aside rfl)
    · exact (outlook_modifyLaunch _ _ _).trans (outlook_urge_aside rfl)

theorem outlook_prepareLaunch (b : Bench) (p : Nat) (process : Process) :
    (b.prepareLaunch p process).outlook = b.outlook := by
  unfold prepareLaunch
  dsimp only
  split
  · exact outlook_urge_aside rfl
  · exact outlook_after_aside rfl _

end Shellwright.Bench
