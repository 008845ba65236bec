import Shellwright.Proofs.Review.Alarms
import Shellwright.Proofs.Review.Inspecting
import Shellwright.Proofs.Review.Waiting
/-!
# A review by the clock

A review with the timers that it has set. All that happens to it happens at some time, a timer rings
when its time has come, and time goes on while no timer is due.
-/

namespace Shellwright.Review

/-- How a review by the clock begins. A document has to be quiet for `delay` milliseconds. -/
structure Opening where
  plugins : Keyed String Plugin := []
  active : List String := []
  buffers : Buffers := []
  sink : DiagnosticSink := {}
  delay : Nat
  timeout : Option Execution.Limit := none

structure Clocked where
  reviewer : Reviewer
  /-- Milliseconds since the beginning. -/
  now : Nat := 0
  /-- The timers that have not rung yet, and when each of them is to. -/
  timers : List (Nat × Nat) := []
  /-- When every run was dispatched. -/
  times : List Nat := []

theorem Later.length_le {d d' : Desk} (h : Later d d') : d.runs.length ≤ d'.runs.length := by
  apply Nat.le_of_not_lt
  intro hlt
  obtain ⟨run, hrun, _⟩ := h.runs d'.runs.length _ (List.getElem?_eq_getElem hlt)
  rw [List.getElem?_eq_none (Nat.le_refl _)] at hrun
  cases hrun

/-- The event leaves it at a quiet time of `delay` milliseconds after every edit. -/
def Event.Keeps (delay : Nat) : Event → Prop
  | .configure debounce _ onChange => debounce = some (delay : Int) ∧ onChange = true
  | e => Reviewer.Hosted e = true

theorem Event.Keeps.hosted {delay : Nat} {e : Event} (h : e.Keeps delay) : Reviewer.Hosted e = true := by
  cases e with
  | configure debounce timeout onChange => rfl
  | _ => exact h

def Opening.start (o : Opening) : Clocked where
  reviewer :=
    { registry := { plugins := o.plugins, active := o.active }
      buffers := o.buffers
      sink := o.sink
      debounce := some o.delay
      timeout := o.timeout }

namespace Clocked

inductive Move
  | happens (event : Event)
  | rings (timer : Nat)
  /-- Time goes on until then. -/
  | passes (time : Nat)

/-- The review takes a step, and the timers that it wants are set. -/
def react (c : Clocked) (e : Event) : Clocked :=
  let r := c.reviewer.step e
  { c with
    reviewer := { r with outbox := [] }
    timers := c.timers ++ r.alarms.map fun alarm => (alarm.1, c.now + alarm.2.toNat)
    times := c.times ++ List.replicate (r.runs.length - c.reviewer.runs.length) c.now }

theorem now_react (c : Clocked) (e : Event) : (c.react e).now = c.now := rfl

def move (c : Clocked) : Move → Clocked
  | .happens e => c.react e
  | .rings timer => { c with timers := c.timers.filter (·.1 != timer) }.react (.elapsed timer)
  | .passes time => { c with now := time }

theorem timers_passes (c : Clocked) (time : Nat) : (c.move (.passes time)).timers = c.timers := rfl

/-- What may come next: a timer rings at its time, and no timer is passed over. -/
def Admits (delay : Nat) (c : Clocked) : Move → Prop
  | .happens e => e.Keeps delay ∧ ∀ timer, e ≠ .elapsed timer
  | .rings timer => ∃ time, (timer, time) ∈ c.timers ∧ time ≤ c.now
  | .passes time => c.now ≤ time ∧ ∀ alarm ∈ c.timers, time ≤ alarm.2

/-- What plugins are asked with a move. -/
def asked (c : Clocked) : Move → List Registry.Inquiry
  | .happens e => (c.reviewer.step e).asked
  | .rings timer => (c.reviewer.step (.elapsed timer)).asked
  | .passes _ => []

/-! ## What holds at any time -/

structure Regular (delay : Nat) (c : Clocked) : Prop where
  orderly : c.reviewer.Orderly
  flagged : Flagged c.reviewer.desk
  outbox : c.reviewer.outbox = []
  debounce : c.reviewer.debounce = some (delay : Int)
  onChange : c.reviewer.onChange = true
  inspects : c.reviewer.registry.Inspects c.reviewer.docs
  times : c.times.length = c.reviewer.runs.length
  past : ∀ time ∈ c.times, time ≤ c.now
  ahead : ∀ alarm ∈ c.timers, c.now ≤ alarm.2
  set : ∀ alarm ∈ c.timers, alarm.1 < c.reviewer.timers
  once : (c.timers.map Prod.fst).Nodup
  numbered : c.reviewer.sessions.Numbered c.reviewer.timers

theorem Regular.start (o : Opening) : Regular o.delay o.start where
  orderly := ⟨Sound.start, rfl⟩
  flagged := ⟨rfl, fun _ _ _ h => nomatch h⟩
  outbox := rfl
  debounce := rfl
  onChange := rfl
  inspects := fun _ _ h => nomatch h
  times := rfl
  past := nofun
  ahead := nofun
  set := nofun
  once := .nil
  numbered := by
    constructor
    · intro n session debounce hsession
      cases hsession
    · intro m n session session' debounce debounce' hsession
      cases hsession

variable {delay : Nat} {c : Clocked} {e : Event}

/-- The timers that a step sets. -/
structure Timekeeping (delay : Nat) (r r' : Reviewer) : Prop where
  debounce : r'.debounce = some (delay : Int)
  onChange : r'.onChange = true
  alarms : r'.alarms = [] ∧ r'.timers = r.timers ∨ Execution.isMeasurable delay = true ∧
    r'.alarms = [(r.timers, (delay : Int))] ∧ r'.timers = r.timers + 1

theorem Timekeeping.of_untimed {r r' : Reviewer} (untimed : r.Untimed r') (calm : r.alarms = [])
    (debounce : r.debounce = some (delay : Int)) (onChange : r.onChange = true) :
    Timekeeping delay r r' where
  debounce := untimed.debounce.trans debounce
  onChange := untimed.onChange.trans onChange
  alarms := .inl ⟨untimed.alarms.trans calm, untimed.timers⟩

theorem Regular.alarms (h : Regular delay c) : c.reviewer.alarms = [] := by
  unfold Reviewer.alarms
  rw [h.outbox]
  rfl

theorem Regular.change (h : Regular delay c) (document : String) :
    Timekeeping delay c.reviewer (c.reviewer.step (.change document)) := by
  obtain ⟨hdebounce, honChange⟩ := Reviewer.change_settings c.reviewer document
  change Timekeeping delay c.reviewer (c.reviewer.change document)
  cases hshell : (c.reviewer.document document).isShell with
  | false => exact .of_untimed (Reviewer.change_untimed hshell) h.alarms h.debounce h.onChange
  | true =>
      obtain ⟨htimers, halarms⟩ := Reviewer.change_alarms h.onChange hshell
      refine ⟨hdebounce.trans h.debounce, honChange.trans h.onChange, ?_⟩
      rw [halarms, htimers, h.alarms, List.nil_append, Reviewer.armed]
      cases hdelay : c.reviewer.debounce.filter Execution.isMeasurable with
      | none => exact .inl ⟨rfl, rfl⟩
      | some delay' =>
          obtain ⟨hsome, hmeasurable⟩ := Option.filter_eq_some_iff.1 hdelay
          obtain rfl := Option.some.inj (h.debounce.symm.trans hsome)
          exact .inr ⟨hmeasurable, rfl, rfl⟩

theorem Regular.timekeeping (h : Regular delay c) (keeps : e.Keeps delay) :
    Timekeeping delay c.reviewer (c.reviewer.step e) := by
  cases htimes : Reviewer.Times e with
  | false => exact .of_untimed (Reviewer.step_untimed htimes) h.alarms h.debounce h.onChange
  | true =>
      cases e with
      | change document => exact h.change document
      | configure debounce timeout onChange =>
          obtain ⟨rfl, rfl⟩ := keeps
          exact ⟨rfl, rfl, .inl ⟨h.alarms, rfl⟩⟩
      | _ => cases htimes

theorem Regular.react (h : Regular delay c) (keeps : e.Keeps delay) : Regular delay (c.react e) := by
  have hacts := Reviewer.step_acts h.orderly.calm e
  have horderly := h.orderly.step e
  obtain ⟨hdebounce, honChange, halarms⟩ := h.timekeeping keeps
  have hgrow : c.reviewer.runs.length ≤ (c.reviewer.step e).runs.length :=
    hacts.desk.later.length_le
  refine ⟨⟨horderly.sound, horderly.calm⟩, hacts.desk.flagged h.orderly.sound h.flagged, rfl, hdebounce,
    honChange, ?_, ?_, ?_, ?_, ?_, ?_, Reviewer.step_numbered h.orderly.calm h.numbered e⟩
  · exact (Reviewer.step_inspected h.orderly.calm h.outbox (Event.Keeps.hosted keeps) h.inspects).1
  · change (c.times ++ List.replicate _ c.now).length = (c.reviewer.step e).runs.length
    rw [List.length_append, List.length_replicate, h.times]
    omega
  · intro time htime
    rcases List.mem_append.1 htime with hold | hnew
    · exact h.past time hold
    · exact Nat.le_of_eq (List.eq_of_mem_replicate hnew)
  · intro alarm halarm
    rcases List.mem_append.1 halarm with hold | hnew
    · exact h.ahead alarm hold
    · obtain ⟨x, _, rfl⟩ := List.mem_map.1 hnew
      exact Nat.le_add_right c.now _
  · change ∀ alarm ∈ c.timers ++ _, alarm.1 < (c.reviewer.step e).timers
    rcases halarms with ⟨hnone, htimers⟩ | ⟨_, hone, htimers⟩
    · rw [hnone, htimers, List.map_nil, List.append_nil]
      exact h.set
    · rw [hone, htimers]
      intro alarm halarm
      rcases List.mem_append.1 halarm with hold | hnew
      · exact Nat.lt_succ_of_lt (h.set alarm hold)
      · obtain rfl := List.mem_singleton.1 hnew
        exact Nat.lt_succ_self _
  · change ((c.timers ++ _).map Prod.fst).Nodup
    rcases halarms with ⟨hnone, _⟩ | ⟨_, hone, _⟩
    · rw [hnone, List.map_nil, List.append_nil]
      exact h.once
    · rw [hone, List.map_append]
      refine List.nodup_append.2 ⟨h.once, List.pairwise_singleton _ _, ?_⟩
      intro number hnumber other hother
      obtain ⟨alarm, halarm, rfl⟩ := List.mem_map.1 hnumber
      obtain rfl := List.mem_singleton.1 hother
      exact Nat.ne_of_lt (h.set alarm halarm)

theorem Regular.ring (h : Regular delay c) (timer : Nat) :
    Regular delay { c with timers := c.timers.filter (·.1 != timer) } :=
  { h with
    ahead := fun alarm halarm => h.ahead alarm (List.mem_filter.1 halarm).1
    set := fun alarm halarm => h.set alarm (List.mem_filter.1 halarm).1
    once := h.once.sublist (List.filter_sublist.map _) }

/-- Every move that may come next keeps order. -/
theorem Regular.move (h : Regular delay c) {m : Move} (admits : c.Admits delay m) :
    Regular delay (c.move m) := by
  cases m with
  | happens e => exact h.react admits.1
  | rings timer => exact (h.ring timer).react rfl
  | passes time =>
      exact { h with
        past := fun t ht => Nat.le_trans (h.past t ht) admits.1
        ahead := admits.2 }

end Clocked

end Shellwright.Review
