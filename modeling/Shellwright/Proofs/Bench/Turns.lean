import Shellwright.Proofs.Bench.Agenda
/-!
# Turns of a bench that keeps to an agenda

Whatever happens on a bench, it stays where the calls of the host may have brought it: every message is
handled, the clock runs, and the host waits for its calls one at a time or for several at once.
-/

namespace Shellwright.Bench

variable {host : Host}

variable {b b' : Bench} {es : List Workspace.Effect} {i c : Nat} {a : Activity}

theorem modify_eq_set {activities : List Activity} (found : activities[i]? = some a) (f : Activity → Activity) :
    activities.modify i f = activities.set i (f a) := by
  have hbound : i < activities.length := (List.getElem?_eq_some_iff.1 found).1
  refine List.ext_getElem? fun j => ?_
  rw [List.getElem?_modify, List.getElem?_set]
  by_cases hj : i = j
  · subst hj
    rw [if_pos rfl, if_pos hbound, found, Option.map_eq_map, Option.map_some, if_pos rfl]
  · simp [hj]

theorem outlook_answer (b : Bench) (i : Nat) (a : Activity) (reply : Answer) :
    (b.answer i a reply).outlook =
      Outlook.hold { b.outlook with activities := b.activities.modify i fun a => { a with ended := true } }
        (.workspace (registryEvent (.answered a.key a.part reply))) :=
  outlook_urge (b.close i a) _

theorem outlook_stop (b : Bench) (i : Nat) (a : Activity) :
    (b.stop i a).outlook =
      Outlook.hold { b.outlook with activities := b.activities.modify i fun a => { a with ended := true } }
        (.workspace (registryEvent (.stopped a.key a.part))) :=
  outlook_urge (b.close i a) _

namespace Outlook

theorem KeepsTo.aside (h : b.outlook.KeepsTo host c es) (same : b'.outlook = b.outlook) :
    b'.outlook.KeepsTo host c es := by
  rw [same]
  exact h

/-- An answer without edits, which is as good as that of a formatter that has not run its tool. -/
theorem KeepsTo.answer {asked : Activity} (h : b.outlook.KeepsTo host c es)
    (found : b.activities[i]? = some a) (active : a.ended = false) (key : asked.key = a.key)
    (part : asked.part = a.part) {reply : Answer}
    (quiet : ∀ document options, a.question = .format document options →
      ∀ p d, (Registry.formatShare p d reply).edits = []) :
    (b.answer i asked reply).outlook.KeepsTo host c es := by
  have hsound := h.activities a (List.mem_of_getElem? found)
  have hrewrites : a.rewrites? = none := by rw [Activity.rewrites?, hsound.fresh active]; rfl
  rw [outlook_answer, key, part, modify_eq_set found]
  refine h.settle found active a.execution (.answer reply fun n document hhost errand p => ?_)
  obtain ⟨options, hquestion⟩ := hsound.formats n document hhost errand
  change (Registry.formatShare p (host.buffers.find document) reply).Offers a.text a.rewrites?
  rw [hrewrites]
  exact FormatVerdict.offers_none (quiet document options hquestion p _)

theorem KeepsTo.stop (h : b.outlook.KeepsTo host c es) (found : b.activities[i]? = some a)
    (active : a.ended = false) : (b.stop i a).outlook.KeepsTo host c es := by
  rw [outlook_stop, modify_eq_set found]
  exact h.settle found active a.execution .stop

/-- The tool of a plugin has ended. -/
theorem KeepsTo.conclude (h : b.outlook.KeepsTo host c es) (i : Nat)
    (result : Except Supervisor.Stop Execution) : (b.conclude i result).outlook.KeepsTo host c es := by
  unfold Bench.conclude withActivity
  split
  · rename_i a found
    split
    · exact h
    · rename_i hactive
      have active : a.ended = false := Bool.eq_false_iff.2 hactive
      have hsound := h.activities a (List.mem_of_getElem? found)
      dsimp only
      split
      · rename_i e tool reportFailures hbackend
        rw [outlook_answer]
        change (Outlook.hold { b.outlook with activities := (b.activities.modify i _).modify i _ } _).KeepsTo _ _ _
        rw [List.modify_modify_eq, modify_eq_set found]
        refine h.settle found active (some e) (.answer _ fun n document hhost errand p => ?_)
        obtain ⟨options, hquestion⟩ := hsound.formats n document hhost errand
        obtain ⟨formatter, reports, hformatter⟩ := hsound.formatter document options hquestion
        rw [hbackend] at hformatter
        cases hformatter
        rw [hquestion]
        exact a.plugin.offers_answerOf p formatter reportFailures a.text e _
      · exact h.answer found active rfl rfl fun _ _ _ _ _ => rfl
      · exact h.stop found active
  · exact h

theorem KeepsTo.interrupt {asked : Activity} (h : b.outlook.KeepsTo host c es)
    (found : b.activities[i]? = some a) (active : a.ended = false) (key : asked.key = a.key)
    (part : asked.part = a.part) : (b.interrupt i asked).outlook.KeepsTo host c es := by
  refine KeepsTo.answer (b := b.see _) h found active key part fun _ _ _ _ _ => ?_
  cases asked.question <;> rfl

/-! ### Children -/

theorem KeepsTo.attend (h : b.outlook.KeepsTo host c es) (p : Nat) (e : Supervisor.Effect) :
    (attend Bench.conclude p b e).outlook.KeepsTo host c es := by
  unfold Bench.attend withProcess
  split
  · rename_i process _
    have hends (result : Except Supervisor.Stop Execution) :
        (b.endExecution p result process Bench.conclude).outlook.KeepsTo host c es := by
      unfold endExecution
      dsimp only
      split <;> split
      · exact h.aside rfl
      · exact h.aside rfl
      · exact (h.aside (outlook_clock b _ _)).conclude _ _
      · exact h.conclude _ _
    cases e with
    | launch => exact h.aside (outlook_prepareLaunch b p process)
    | listen => exact h.aside (outlook_listen b _ _)
    | unlisten => exact h.aside (outlook_unlisten b _ _)
    | timer delay event => exact h.aside (outlook_after_aside rfl delay)
    | later event => exact h.aside (outlook_post_aside rfl)
    | kill => exact h.aside (outlook_killChild b p process)
    | log entry => exact h.aside rfl
    | finish result => exact hends _
    | stop stop => exact hends _
  · exact h

theorem KeepsTo.adopt (h : b.outlook.KeepsTo host c es) (p : Nat) (s : Supervisor Token) :
    (b.adopt Bench.conclude p s).outlook.KeepsTo host c es := by
  have hattended (effects : List Supervisor.Effect) (b : Bench) (h : b.outlook.KeepsTo host c es) :
      (effects.foldl (Bench.attend Bench.conclude p) b).outlook.KeepsTo host c es := by
    induction effects generalizing b with
    | nil => exact h
    | cons e rest ih => exact ih _ (h.attend p e)
  exact hattended _ _ (h.aside (outlook_modifyProcess b p _))

theorem KeepsTo.execute (h : b.outlook.KeepsTo host c es) (invocation : Invocation Token)
    (waiter : Waiter) (metric : Option Metric) :
    (execute Bench.conclude b invocation waiter metric).outlook.KeepsTo host c es :=
  KeepsTo.adopt (b := { b with processes := b.processes ++ _ }) h _ _

/-! ### Plugins -/

theorem KeepsTo.perform {asked : Activity} (h : b.outlook.KeepsTo host c es)
    (found : b.activities[i]? = some a) (active : a.ended = false) (key : asked.key = a.key)
    (part : asked.part = a.part) (other : ∀ document options, a.question ≠ .format document options)
    (rule : ScriptRule) : (b.perform i asked rule).outlook.KeepsTo host c es := by
  have hseen : (b.see (questionWords asked.plugin.name asked.text asked.question)).outlook.KeepsTo host c es :=
    h.aside (outlook_see b _)
  unfold Bench.perform
  dsimp only
  generalize (if rule.deaf then none else asked.question.options.token) = token
  split
  · exact hseen.answer found active key part fun document options heq => absurd heq (other document options)
  · split
    · exact hseen.interrupt found active key part
    · exact hseen.aside ((outlook_after_aside rfl _).trans (outlook_listen _ _ _))

theorem KeepsTo.askPlugin {key : CallKey} {part : Nat} {p : Plugin} {question : Question}
    (h : b.outlook.KeepsTo host c (.ask key part p question :: es)) :
    (b.ask key part p question).outlook.KeepsTo host c es := by
  have hbuffers : b.buffers = host.buffers := h.workspace.reviewer.buffers
  have htext : ∀ document options, question = .format document options →
      ((question.document?.map fun name => (b.buffers.find name).text).getD "") =
        (host.buffers.find document).text := by
    rintro document options rfl
    rw [hbuffers]
    rfl
  have hlast (a : Activity) : (b.activities ++ [a])[b.activities.length]? = some a := by simp
  unfold Bench.ask
  dsimp only
  split
  · rename_i number hbackend
    -- Formatters work with a tool.
    have hother : ∀ document options, question ≠ .format document options := by
      rintro document options rfl
      have hallowed := h.effects _ List.mem_cons_self
      cases hallowed with
      | ask allowed =>
          cases allowed with
          | format _ _ formatter =>
              obtain ⟨tool, reports, htool⟩ := formatter
              rw [hbackend] at htool
              cases htool
    refine KeepsTo.perform (b := { b with activities := b.activities ++ [_] }) (h.ask rfl rfl rfl htext
      (fun document options heq => absurd heq (hother document options)) rfl) (hlast _) rfl rfl rfl hother _
  · rename_i tool reports hbackend
    have hasked := h.ask (a := { key := key, part := part, plugin := p, question := question, since := b.now
                                 text := (question.document?.map fun name => (b.buffers.find name).text).getD ""
                                 process := some b.processes.length, answer := silence question })
      rfl rfl rfl htext (fun document options heq => by rw [heq]; rfl) rfl
    split
    · exact KeepsTo.answer (b := { b with activities := b.activities ++ [_] }) hasked (hlast _) rfl rfl rfl
        fun _ _ _ _ _ => rfl
    · exact KeepsTo.execute (b := { b with activities := b.activities ++ [_] }) hasked _ _ _

theorem KeepsTo.serve {e : Workspace.Effect} (h : b.outlook.KeepsTo host c (e :: es)) :
    (b.serve e).outlook.KeepsTo host c es := by
  have hallowed := h.effects e List.mem_cons_self
  cases hallowed with
  | later allowed =>
      refine Eq.symm (outlook_post b (.workspace (.review _))) ▸ h.later
  | cancel run => exact h.pass.aside (outlook_cancel b _)
  | ask allowed => exact h.askPlugin
  | started run => exact h.pass.aside rfl
  | stopped run =>
      unfold Bench.serve
      dsimp only
      split
      · exact h.pass.aside (outlook_clock b _ _)
      · exact h.pass
  | log record => exact h.pass.aside rfl
  | formatted errand verdict => exact h.finish b.buffers
  | settled errand reply => exact h.finish b.buffers
  | raised errand trouble => exact h.finish b.buffers

theorem KeepsTo.serveAll (h : b.outlook.KeepsTo host c es) :
    (es.foldl Bench.serve b).outlook.KeepsTo host c [] := by
  induction es generalizing b with
  | nil => exact h
  | cons e rest ih => exact ih h.serve

/-! ### Turns -/

theorem KeepsTo.handle {m : Message} (h : (b.outlook.hold m).KeepsTo host c []) :
    (b.handle m).outlook.KeepsTo host c [] := by
  have haside (hnone : m.event? = none) : b.outlook.KeepsTo host c [] := by
    rwa [hold_of_none hnone] at h
  have hactivity (hnone : m.event? = none) (n : Nat) {f : Activity → Bench}
      (goes : ∀ a, b.activities[n]? = some a → a.ended = false → (f a).outlook.KeepsTo host c []) :
      (b.withActivity n f).outlook.KeepsTo host c [] := by
    unfold withActivity
    split
    · rename_i a found
      split
      · exact haside hnone
      · rename_i hactive
        exact goes a found (Bool.eq_false_iff.2 hactive)
    · exact haside hnone
  have found' {b' : Bench} (hsame : b'.outlook = b.outlook) {n : Nat} {a : Activity}
      (found : b.activities[n]? = some a) : b'.activities[n]? = some a := by
    have hactivities : b'.activities = b.activities := congrArg Outlook.activities hsame
    rw [hactivities, found]
  have hprocess (hnone : m.event? = none) (p : Nat) {f : Process → Bench}
      (goes : ∀ process, (f process).outlook.KeepsTo host c []) :
      (b.withProcess p f).outlook.KeepsTo host c [] := by
    unfold withProcess
    split
    · exact goes _
    · exact haside hnone
  cases m with
  | workspace e => exact KeepsTo.serveAll (b := { b with workspace := _ }) h.react
  | supervisor p e => exact hprocess rfl p fun process => (haside rfl).adopt p _
  | launched p =>
      refine hprocess rfl p fun process => ?_
      split
      · exact haside rfl
      · exact (haside rfl).aside (outlook_launchChild b p process)
  | feed p => exact hprocess rfl p fun process => (haside rfl).aside (outlook_feedChild b p process)
  | write p stream bytes =>
      refine hprocess rfl p fun process => ?_
      split
      · exact (haside rfl).aside (outlook_urge_aside rfl)
      · exact haside rfl
  | exit p status => exact hprocess rfl p fun process => (haside rfl).aside (outlook_exitChild b p status process)
  | ready n =>
      refine hactivity rfl n fun a found active => ?_
      have hsame := outlook_unlisten b a.question.options.token (.activity n)
      refine ((haside rfl).aside hsame).answer (found' hsame found) active rfl rfl
        fun document options heq p d => ?_
      have hsound := (haside rfl).activities a (List.mem_of_getElem? found)
      rw [hsound.answer document options heq]
      rfl
  | interrupt n => exact hactivity rfl n fun a found active => (haside rfl).interrupt found active rfl rfl
  | quit n =>
      refine hactivity rfl n fun a found active => ?_
      have hsame := outlook_unlisten b a.question.options.token (.activity n)
      exact ((haside rfl).aside hsame).stop (found' hsame found) active
  | cancel token => exact (haside rfl).aside (outlook_cancel b token)
  | delayed turns m =>
      cases turns with
      | zero => exact Eq.symm (outlook_urge b m) ▸ h
      | succ turns => exact Eq.symm (outlook_post b (.delayed turns m)) ▸ h

theorem KeepsTo.next (h : b.outlook.KeepsTo host c []) (next : b.next? = some b') :
    b'.outlook.KeepsTo host c [] := by
  obtain ⟨b₁, m, rfl, hsame⟩ := next?_eq next
  rw [hsame] at h
  exact h.handle

theorem KeepsTo.runUntil (h : b.outlook.KeepsTo host c []) (stop : Bench → Bool) (fuel : Nat) :
    (runUntil stop fuel b).outlook.KeepsTo host c [] := by
  induction fuel generalizing b with
  | zero => exact h
  | succ fuel ih =>
      unfold Bench.runUntil
      split
      · exact h
      · split
        · rename_i b₁ hnext
          exact ih (h.next hnext)
        · split
          · exact ih (h.aside (outlook_jump b _))
          · exact h

end Outlook

/-! ## Calls of the host -/

theorem finish?_eq_some {n : Nat} {f : Finish} (h : b.finish? n = some f) : f ∈ b.finished ∧ f.call = n :=
  ⟨List.mem_of_find?_eq_some h, beq_iff_eq.1 (List.find?_some (p := fun f : Finish => f.call == n) h)⟩

namespace Outlook

theorem KeepsTo.await (h : b.outlook.KeepsTo host c []) (request : Workspace.Request)
    (planned : ∀ a : Agenda, a.errand = host.plan → a.ExpectsWork (.call c request)) :
    (b.await fun n => .call n request).1.outlook.KeepsTo host (c + 1) [] := by
  have hcounted : b.calls = c := h.counted
  have hissued := h.issue planned
  rw [← hcounted] at hissued ⊢
  refine KeepsTo.runUntil ?_ _ _
  exact Eq.symm (outlook_urge { b with calls := b.calls + 1 } _) ▸ hissued

theorem KeepsTo.start (h : b.outlook.KeepsTo host c []) {request : Workspace.Request}
    (planned : ∀ a : Agenda, a.errand = host.plan → a.ExpectsWork (.call c request)) :
    (b.start fun n => .call n request).1.outlook.KeepsTo host (c + 1) [] ∧
      (b.start fun n => .call n request).2 = c := by
  have hcounted : b.calls = c := h.counted
  have hissued := h.issue planned
  rw [← hcounted] at hissued ⊢
  exact ⟨Eq.symm (outlook_post { b with calls := b.calls + 1 } _) ▸ hissued, rfl⟩

/-- One more call is made, and its number is kept. -/
def startNext (started : Bench × List Nat) (event : Nat → Workspace.Event) : Bench × List Nat :=
  ((started.1.start event).1, started.2 ++ [(started.1.start event).2])

theorem awaitAll_eq (b : Bench) (events : List (Nat → Workspace.Event)) :
    b.awaitAll events =
      let started := events.foldl startNext (b, [])
      let b' := runUntil (fun b => started.2.all (fun n => (b.finish? n).isSome) ||
        started.2.any fun n => (b.finish? n).any Finish.isRaised) patience started.1
      (b', started.2.map b'.finish?) :=
  rfl

/-- Calls at the same time are numbered one after another. -/
theorem KeepsTo.awaitAll (h : b.outlook.KeepsTo host c []) (requests : List Workspace.Request)
    (planned : ∀ (j : Nat) request, requests[j]? = some request →
      ∀ a : Agenda, a.errand = host.plan → a.ExpectsWork (.call (c + j) request)) :
    ∃ b', (b.awaitAll (requests.map fun r n => .call n r)) =
        (b', (List.range requests.length).map fun j => b'.finish? (c + j)) ∧
      b'.outlook.KeepsTo host (c + requests.length) [] := by
  have hstarted (ns : List Nat) :
      ∃ b', (requests.map fun r n => Workspace.Event.call n r).foldl startNext (b, ns) =
          (b', ns ++ (List.range requests.length).map (c + ·)) ∧
        b'.outlook.KeepsTo host (c + requests.length) [] := by
    induction requests generalizing b c ns with
    | nil => exact ⟨b, by simp, h⟩
    | cons request rest ih =>
        obtain ⟨hkeeps, hnumber⟩ := h.start (planned 0 request rfl)
        obtain ⟨b', hrest, hend⟩ := ih hkeeps (fun j r hj => by
          rw [Nat.add_assoc, Nat.add_comm 1 j]
          exact planned (j + 1) r hj) (ns ++ [c])
        refine ⟨b', ?_, ?_⟩
        · rw [List.map_cons, List.foldl_cons, startNext, hnumber, hrest, List.length_cons, List.range_succ_eq_map]
          simp [Nat.add_assoc, Nat.add_comm 1]
        · rw [List.length_cons, Nat.add_comm rest.length 1, ← Nat.add_assoc]
          exact hend
  obtain ⟨b₁, hfold, hkeeps⟩ := hstarted []
  rw [awaitAll_eq, hfold, List.nil_append]
  have hrun := hkeeps.runUntil (fun b => ((List.range requests.length).map (c + ·)).all
    (fun n => (b.finish? n).isSome) || ((List.range requests.length).map (c + ·)).any
      fun n => (b.finish? n).any Finish.isRaised) patience
  refine ⟨_, ?_, hrun⟩
  dsimp only
  rw [List.map_map]
  rfl

end Outlook

/-! ## From the beginning to the end -/

/-- Nothing is under way and nothing has been asked of anybody. -/
structure IsIdle (b : Bench) : Prop where
  messages : b.messages = []
  activities : b.activities = []
  finished : b.finished = []

/-- A workspace that has not been started keeps to every agenda. -/
theorem keepsTo_create {a : Agenda} {loader : FactoryLoader} (modest : loader.IsModest) (settings : Settings) :
    (Workspace.create settings loader a.buffers).KeepsTo a := by
  have hsole : Plugin.Sole [] := ⟨Nat.zero_le 1, nofun, nofun⟩
  have hregistry : Registry.KeepsTo a {} :=
    { plugins := hsole
      calls := fun key c call => by cases call
      outbox := fun e he => by cases he }
  have hreviewer : (Workspace.create settings loader a.buffers).reviewer.KeepsTo a :=
    { registry := hregistry
      calm := rfl
      buffers := rfl
      runs := fun run hrun => by cases hrun
      calls := fun n c call => by cases call
      linked := fun n document _ hbusy => absurd rfl hbusy
      outbox := fun e he => by cases he }
  exact { reviewer := hreviewer
          calm := rfl
          calls := fun n stage call => by cases call
          modest := modest
          outbox := fun e he => by cases he }

/-- A bench where nothing is under way, with a workspace that has not been started. -/
theorem Outlook.keepsTo_opened (idle : b.IsIdle) {loader : FactoryLoader} (modest : loader.IsModest)
    (settings : Settings) (known : host.known = []) :
    Outlook.KeepsTo host b.calls { b.outlook with workspace := .create settings loader host.buffers } [] := by
  have hupcoming : b.outlook.upcoming = 0 := by simp [outlook, idle.messages]
  have hactivities : b.outlook.activities = [] := idle.activities
  have hfinished : b.outlook.finished = [] := idle.finished
  generalize ho : ({ b.outlook with workspace := .create settings loader host.buffers } : Outlook) = o
  have ho' : o.upcoming = 0 ∧ o.activities = [] ∧ o.finished = [] := by
    rw [← ho]
    exact ⟨hupcoming, hactivities, hfinished⟩
  obtain ⟨hupcoming, hactivities, hfinished⟩ := ho'
  have hworkspace : o.workspace = .create settings loader host.buffers := by rw [← ho]
  exact {
    counted := by rw [← ho]; rfl
    workspace := hworkspace ▸ keepsTo_create (a := o.agenda host []) modest settings
    calm := by rw [hworkspace]; rfl
    upcoming := by simp [hupcoming]
    answered := by simp [hupcoming]
    effects := by simp
    activities := by simp [hactivities]
    once := by simp [Outlook.tally, hupcoming, hactivities]
    known := by simp [known]
    replied := by simp [hfinished]
    formatted := by simp [hfinished] }

/-- The host learns that calls have ended. -/
theorem Outlook.KeepsTo.receive (h : b.outlook.KeepsTo host c []) (known : List Finish)
    (finished : ∀ f ∈ known, f ∈ b.finished) :
    b.outlook.KeepsTo { host with known := known } c [] where
  counted := h.counted
  workspace := h.workspace
  calm := h.calm
  upcoming := h.upcoming
  answered := h.answered
  effects e he := by cases he
  activities a ha :=
    have hsound := h.activities a ha
    ⟨hsound.formats, hsound.planned, hsound.formatter, hsound.text, hsound.answer, hsound.fresh⟩
  once := h.once
  known := finished
  replied := h.replied
  formatted := h.formatted

/-- The question asks for the format of a document. -/
def isFormatOf (document : String) : Question → Bool
  | .format d _ => d == document
  | _ => false

theorem eq_of_isFormatOf {document : String} {q : Question} (h : isFormatOf document q = true) :
    ∃ options, q = .format document options := by
  unfold isFormatOf at h
  split at h
  · rename_i d options
    exact ⟨options, by rw [beq_iff_eq.1 h]⟩
  · cases h

/-- The activity in which a formatter was asked for the format of a document. -/
def formatting? (b : Bench) (document : String) : Option Activity :=
  b.activities.find? fun a => isFormatOf document a.question

/-- What the formatter's run on a document has come to, when there was one. -/
def formatRun? (b : Bench) (document : String) : Option Execution :=
  (b.formatting? document).bind Activity.execution

theorem eq_of_countP_le_one {α : Type} {p : α → Bool} {xs : List α} (h : xs.countP p ≤ 1) {x y : α}
    (hx : x ∈ xs) (hy : y ∈ xs) (px : p x = true) (py : p y = true) : x = y := by
  rw [List.countP_eq_length_filter] at h
  have hx' := List.mem_filter.2 ⟨hx, px⟩
  have hy' := List.mem_filter.2 ⟨hy, py⟩
  match hfilter : xs.filter p with
  | [] => rw [hfilter] at hx'; cases hx'
  | [z] =>
      rw [hfilter] at hx' hy'
      rw [List.mem_singleton.1 hx', List.mem_singleton.1 hy']
  | _ :: _ :: _ => simp [hfilter] at h

/-- What a format has ended with is what the one run on its document has brought. -/
theorem Outlook.KeepsTo.offers {n : Nat} {document : String} {v : FormatVerdict}
    (h : b.outlook.KeepsTo host c []) (errand : host.plan n = some (.format document))
    (single : ∀ m, host.plan m = some (.format document) → m = n) (settles : b.outlook.Settles [] n v) :
    v.Offers (host.buffers.find document).text
      ((b.formatRun? document).bind (·.rewrites? (host.buffers.find document).text)) := by
  have hfor : ∀ a ∈ b.activities, isFormatOf document a.question = true → a.isFor n = true := by
    intro a ha hquestion
    obtain ⟨options, hquestion⟩ := eq_of_isFormatOf hquestion
    have hsound := h.activities a ha
    obtain ⟨m, hkey, hplan⟩ := hsound.planned document options hquestion
    obtain rfl := single m hplan
    exact hsound.isFor hkey hplan
  have honce : b.activities.countP (Activity.isFor n) ≤ 1 := by
    have honce := h.once n
    have hle : (if n < b.outlook.calls then 1 else 0) ≤ 1 := by split <;> omega
    exact Nat.le_trans (Nat.le_add_left _ _) (Nat.le_trans honce hle)
  cases settles with
  | run mem isFor ended offers =>
      rename_i a
      have hsound := h.activities a mem
      obtain ⟨hkey, d, options, hquestion⟩ := Activity.eq_of_isFor isFor
      obtain ⟨m, hkey', hplan⟩ := hsound.planned d options hquestion
      obtain rfl : n = m := by
        rw [hkey] at hkey'
        exact CallKey.host.inj hkey'
      obtain rfl : document = d := by
        rw [errand] at hplan
        exact Errand.format.inj (Option.some.inj hplan)
      have hfound : b.formatting? document = some a := by
        have hasked : isFormatOf document a.question = true := by
          rw [hquestion]
          exact beq_self_eq_true document
        cases hfind : b.formatting? document with
        | none => exact absurd hasked (List.find?_eq_none.1 hfind a mem)
        | some a' =>
            have hmem : a' ∈ b.activities := List.mem_of_find?_eq_some hfind
            have hasked' := List.find?_some (p := fun a : Activity => isFormatOf document a.question) hfind
            rw [eq_of_countP_le_one honce hmem mem (hfor a' hmem hasked') isFor]
      rw [formatRun?, hfound, ← hsound.text document options hquestion]
      exact offers
  | unasked edits called never =>
      have hnone : b.formatting? document = none := by
        refine List.find?_eq_none.2 fun a ha hquestion => ?_
        have hpos := List.countP_pos_iff.2 ⟨a, ha, hfor a ha hquestion⟩
        have hzero : b.activities.countP (Activity.isFor n) = 0 :=
          Nat.le_zero.1 (never ▸ Nat.le_add_left _ _)
        omega
      rw [formatRun?, hnone]
      exact FormatVerdict.offers_none edits

end Shellwright.Bench
