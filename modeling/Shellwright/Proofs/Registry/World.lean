import Shellwright.Proofs.Keyed
import Shellwright.Registry.Step
/-!
# Registries at work

A registry among its host and its plugins. What the registry wants done later and what its plugins
have been asked happens in any order, and the host may act at any time. A schedule says which move
comes next; every interleaving is a schedule. The outbox of a registry is seen as the events to come, the
questions to plugins and the ends of calls; records for the log are passed over.
-/

namespace Shellwright.Registry

/-- A question that a plugin has not answered yet. -/
structure Inquiry where
  key : CallKey
  part : Nat
  plugin : Plugin
  question : Question

def Effect.event? : Effect → Option Event
  | .later e => some e
  | _ => none

def Effect.inquiry? : Effect → Option Inquiry
  | .ask key part plugin question => some ⟨key, part, plugin, question⟩
  | _ => none

def laters (r : Registry) : List Event :=
  r.outbox.filterMap Effect.event?

def asks (r : Registry) : List Inquiry :=
  r.outbox.filterMap Effect.inquiry?

structure World where
  registry : Registry := {}
  buffers : Buffers := []
  due : List Event := []
  inquiries : List Inquiry := []
  /-- The keys of all calls so far. -/
  known : List CallKey := []

inductive Move
  | host (event : Event)
  /-- The host has changed its documents. -/
  | edit (buffers : Buffers)
  /-- One of the things happens that are due. -/
  | next (n : Nat)
  | answer (n : Nat) (answer : Answer)
  /-- A plugin stops without an answer. -/
  | stop (n : Nat)

namespace World

/-- What the host may do: change the registry, make a call under a new key, or call one off. -/
def admits (w : World) : Event → Bool
  | .register _ => true
  | .unregister _ => true
  | .clear => true
  | .deactivate _ => true
  | .deactivateAll => true
  | .call key _ => !w.known.contains key
  | .abort _ => true
  | _ => false

/-- What a move is to the registry. -/
def event? (w : World) : Move → Option Event
  | .host e => if w.admits e then some e else none
  | .edit _ => none
  | .next n => w.due[n]?
  | .answer n a => w.inquiries[n]?.map fun q => .answered q.key q.part a
  | .stop n => w.inquiries[n]?.map fun q => .stopped q.key q.part

/-- What a move takes away from the world. -/
def spend (w : World) : Move → World
  | .host (.call key _) => { w with known := key :: w.known }
  | .host _ => w
  | .edit b => { w with buffers := b }
  | .next n => { w with due := w.due.eraseIdx n }
  | .answer n _ => { w with inquiries := w.inquiries.eraseIdx n }
  | .stop n => { w with inquiries := w.inquiries.eraseIdx n }

/-- The registry takes its step, and what it wants done is added to the world. -/
def react (w : World) (e : Event) : World :=
  let r := w.registry.step w.buffers e
  { w with
    registry := { r with outbox := [] }
    due := w.due ++ r.laters
    inquiries := w.inquiries ++ r.asks }

/-- A move that is not possible changes nothing of the registry. -/
def step (w : World) (m : Move) : World :=
  match w.event? m with
  | some e => (w.spend m).react e
  | none => w.spend m

end World

/-- What has held up to a moment and still holds a moment later has held up to then. -/
theorem throughout_succ {since holds : Nat → Prop} {t : Nat}
    (h : ∀ u, since u → u ≤ t → holds u) (still : holds (t + 1)) :
    ∀ u, since u → u ≤ t + 1 → holds u := by
  intro u hsince hle
  rcases Nat.lt_or_eq_of_le hle with hlt | rfl
  · exact h u hsince (Nat.le_of_lt_succ hlt)
  · exact still

/-- The moves of a run; no run is too long to be the beginning of a schedule. -/
abbrev Schedule := Nat → Move

namespace Schedule

/-- The world after the first `t` moves of a schedule. -/
def world (s : Schedule) : Nat → World
  | 0 => {}
  | t + 1 => (s.world t).step (s t)

/-- These moves one after another, and then nothing more. -/
def ofMoves (moves : List Move) : Schedule := fun t => moves.getD t (.edit [])

def registry (s : Schedule) (t : Nat) : Registry :=
  (s.world t).registry

def event? (s : Schedule) (t : Nat) : Option Event :=
  (s.world t).event? (s t)

end Schedule

def Effect.finish? : Effect → Option (CallKey × Outcome Reply)
  | .finish key outcome => some (key, outcome)
  | _ => none

/-- The calls that have ended. -/
def finishes (r : Registry) : List (CallKey × Outcome Reply) :=
  r.outbox.filterMap Effect.finish?

/-- The registry is `core` but for its outbox, which holds these wishes among records for the log. -/
structure Leaves (r core : Registry) (laters : List Event) (asks : List Inquiry)
    (finishes : List (CallKey × Outcome Reply)) : Prop where
  plugins : r.plugins = core.plugins
  active : r.active = core.active
  lock : r.lock = core.lock
  calls : r.calls = core.calls
  laters : r.laters = laters
  asks : r.asks = asks
  finishes : r.finishes = finishes

/-! ## Wishes -/

theorem laters_emit (r : Registry) (e : Effect) :
    (r.emit e).laters = r.laters ++ e.event?.toList := by
  unfold laters emit
  rw [List.filterMap_append]
  cases e <;> rfl

theorem asks_emit (r : Registry) (e : Effect) :
    (r.emit e).asks = r.asks ++ e.inquiry?.toList := by
  unfold asks emit
  rw [List.filterMap_append]
  cases e <;> rfl

theorem finishes_emit (r : Registry) (e : Effect) :
    (r.emit e).finishes = r.finishes ++ e.finish?.toList := by
  unfold finishes emit
  rw [List.filterMap_append]
  cases e <;> rfl

section Wishes

variable {r core : Registry} {ls : List Event} {as : List Inquiry}
  {fs : List (CallKey × Outcome Reply)}

theorem Leaves.start (h : r.outbox = []) : Leaves r r [] [] [] :=
  ⟨rfl, rfl, rfl, rfl, by rw [Registry.laters, h]; rfl, by rw [Registry.asks, h]; rfl,
    by rw [Registry.finishes, h]; rfl⟩

theorem Leaves.emit (h : Leaves r core ls as fs) (e : Effect) :
    Leaves (r.emit e) core (ls ++ e.event?.toList) (as ++ e.inquiry?.toList)
      (fs ++ e.finish?.toList) :=
  ⟨h.plugins, h.active, h.lock, h.calls, by rw [laters_emit, h.laters],
    by rw [asks_emit, h.asks], by rw [finishes_emit, h.finishes]⟩

theorem Leaves.log (h : Leaves r core ls as fs) (level : LogLevel) (text : String) :
    Leaves (r.log level text) core ls as fs := by
  simpa [Registry.log, Effect.event?, Effect.inquiry?, Effect.finish?] using
    h.emit (.log ⟨level, .registry, text⟩)

theorem Leaves.quit (h : Leaves r core ls as fs) (key : CallKey) (part : Nat) :
    Leaves (r.emit (.quit key part)) core ls as fs := by
  simpa [Effect.event?, Effect.inquiry?, Effect.finish?] using h.emit (.quit key part)

theorem Leaves.later (h : Leaves r core ls as fs) (e : Event) :
    Leaves (r.emit (.later e)) core (ls ++ [e]) as fs := by
  simpa [Effect.event?, Effect.inquiry?, Effect.finish?] using h.emit (.later e)

theorem Leaves.ask (h : Leaves r core ls as fs) (key : CallKey) (part : Nat) (p : Plugin)
    (question : Question) :
    Leaves (r.emit (.ask key part p question)) core ls (as ++ [⟨key, part, p, question⟩]) fs := by
  simpa [Effect.event?, Effect.inquiry?, Effect.finish?] using h.emit (.ask key part p question)

theorem Leaves.setCall (h : Leaves r core ls as fs) (key : CallKey) (c : Call) :
    Leaves (r.setCall key c) (core.setCall key c) ls as fs := by
  refine ⟨h.plugins, h.active, h.lock, ?_, h.laters, h.asks, h.finishes⟩
  exact congrArg (Keyed.put · key c) h.calls

theorem Leaves.begins (h : Leaves r core ls as fs) (key : CallKey) (parts : List Nat) :
    Leaves (parts.foldl (fun r i => r.emit (.later (.begin key i))) r) core
      (ls ++ parts.map (.begin key ·)) as fs := by
  induction parts generalizing r ls with
  | nil => simpa using h
  | cons i rest ih => simpa using ih (h.later (.begin key i))

theorem Leaves.quits (h : Leaves r core ls as fs) (key : CallKey) (parts : List Nat) :
    Leaves (parts.foldl (fun r i => r.emit (.quit key i)) r) core ls as fs := by
  induction parts generalizing r with
  | nil => exact h
  | cons i rest ih => exact ih (h.quit key i)

end Wishes

/-! ## The end of a call -/

/-- The lock when the call has ended. -/
def Lock.leave (l : Lock) (key : CallKey) : Lock :=
  if l.holder = some key then
    match l.waiting with
    | [] => ⟨none, []⟩
    | next :: rest => ⟨some next, rest⟩
  else l

/-- What the end of the call sets off. -/
def Lock.grants (l : Lock) (key : CallKey) : List Event :=
  if l.holder = some key then
    match l.waiting with
    | [] => []
    | next :: _ => [.granted next]
  else []

/-- The registry without the call. -/
def without (r : Registry) (key : CallKey) : Registry :=
  { r with calls := r.calls.drop key, lock := r.lock.leave key }

theorem Leaves.finish {r core : Registry} {ls : List Event} {as : List Inquiry}
    {fs : List (CallKey × Outcome Reply)} (h : Leaves r core ls as fs) (key : CallKey)
    (outcome : Outcome Reply) :
    Leaves (r.finish key outcome) (core.without key) (ls ++ core.lock.grants key) as
      (fs ++ [(key, outcome)]) := by
  have hended : Leaves ({ r with calls := r.calls.drop key }.emit (.finish key outcome))
      { core with calls := core.calls.drop key } ls as (fs ++ [(key, outcome)]) := by
    have hdropped : Leaves { r with calls := r.calls.drop key }
        { core with calls := core.calls.drop key } ls as fs :=
      ⟨h.plugins, h.active, h.lock, congrArg (Keyed.drop · key) h.calls, h.laters, h.asks,
        h.finishes⟩
    simpa [Effect.event?, Effect.inquiry?, Effect.finish?] using
      hdropped.emit (.finish key outcome)
  unfold Registry.finish
  generalize { r with calls := r.calls.drop key }.emit (.finish key outcome) = x at hended ⊢
  have hlock : x.lock = core.lock := hended.lock
  simp only [hlock, without, Lock.leave, Lock.grants]
  by_cases hholder : core.lock.holder = some key
  · rw [if_pos hholder, if_pos hholder, if_pos hholder]
    unfold release
    rw [hlock]
    cases hwaiting : core.lock.waiting with
    | nil =>
        rw [List.append_nil]
        exact ⟨hended.plugins, hended.active, rfl, hended.calls, hended.laters, hended.asks,
          hended.finishes⟩
    | cons next rest =>
        refine Leaves.later ?_ (.granted next)
        exact ⟨hended.plugins, hended.active, rfl, hended.calls, hended.laters, hended.asks,
          hended.finishes⟩
  · rw [if_neg hholder, if_neg hholder, if_neg hholder, List.append_nil]
    exact ⟨hended.plugins, hended.active, hlock, hended.calls, hended.laters, hended.asks,
      hended.finishes⟩

end Shellwright.Registry
