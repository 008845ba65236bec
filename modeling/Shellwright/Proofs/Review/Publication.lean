import Shellwright.Proofs.Review.Sessions
/-!
# What is published

Whatever happens to a review and in whatever order, only the newest run of an open session publishes,
and the runs of a session publish in the order of their numbers, each once at most.
-/

namespace Shellwright

namespace Reviewer

open Review

/-- From one moment to the next run `n` has its verdict published, as the newest run of a session that
is open and registered. -/
structure Publishes (r r' : Reviewer) (n : Nat) (run : Run) (session : Session)
    (verdict : Verdict) : Prop where
  run_eq : r.runs[n]? = some run
  session_eq : r.sessions.at? run.session = some session
  is_open : session.closed = false
  registered : r.sessions.get? session.uri = some run.session
  newest : run.sequence = session.dispatched
  first : session.published < run.sequence
  outcome : r'.runs[n]? = some { run with outcome := some (.done verdict) }
  marked : r'.sessions.at? run.session = some { session with published := run.sequence }
  sink : r'.sink = r.sink.publish session.uri verdict.diagnostics

structure Orderly (r : Reviewer) : Prop where
  sound : Sound r.desk
  calm : r.registry.outbox = []

variable {r r' : Reviewer}

theorem Orderly.step (h : r.Orderly) (e : Event) : (r.step e).Orderly where
  sound := (step_acts h.calm e).desk.sound h.sound
  calm := (step_acts h.calm e).calm h.calm

theorem Publishes.of_desk (sound : Sound r.desk) {n : Nat} {run : Run} {session : Session}
    {verdict : Verdict} (run_eq : r.runs[n]? = some run)
    (session_eq : r.sessions.at? run.session = some session)
    (newest : session.mayPublish run.sequence = true)
    (desk : r'.desk = r.desk.publish n run session verdict) :
    Publishes r r' n run session verdict := by
  obtain ⟨hopen, hlast, hfirst⟩ := Session.newest newest
  have hsessions : r'.sessions = _ := congrArg Desk.sessions desk
  have hruns : r'.runs = _ := congrArg Desk.runs desk
  refine ⟨run_eq, session_eq, hopen, ?_, ?_, hfirst, ?_, ?_, ?_⟩
  · exact sound.listed _ session session_eq hopen
  · exact Int.ofNat.inj hlast
  · have hrun : r.desk.runs[n]? = some run := run_eq
    rw [hruns, Desk.publish, List.getElem?_modify, hrun]
    simp
  · have hsession : r.desk.sessions.at? run.session = some session := session_eq
    rw [hsessions, Desk.publish, Sessions.markPublished, Sessions.at?_modify, if_pos rfl, hsession]
    rfl
  · exact congrArg Desk.sink desk

/-- A step leaves what is published as it is, clears an address, or publishes the verdict of a run that
may publish. -/
theorem sink_of_does {may : String → Prop} {b : Buffers} {e : Event} (sound : Sound r.desk)
    (does : Does may b e r.desk r'.desk) :
    r'.sink = r.sink ∨ (∃ uri, r'.sink = r.sink.clear uri) ∨
      ∃ n run session verdict, Publishes r r' n run session verdict := by
  cases does with
  | rests sessions runs sink => exact .inl sink
  | publishes n run session verdict run_eq session_eq conclusive newest desk =>
      exact .inr (.inr ⟨n, run, session, verdict, .of_desk sound run_eq session_eq newest desk⟩)
  | diagnoses document allowed shell desk => exact .inl (congrArg Desk.sink desk)
  | elapses number session debounce event session_eq pending desk =>
      exact .inl (congrArg Desk.sink desk)
  | arms document debounce event own desk => exact .inl (congrArg Desk.sink desk)
  | closes document event desk => exact .inr (.inl ⟨_, congrArg Desk.sink desk⟩)
  | shuts n event desk => exact .inl (congrArg Desk.sink desk)

theorem Orderly.publishes (h : r.Orderly) (e : Event) :
    (r.step e).sink.history = r.sink.history ∨
      ∃ n run session verdict, Publishes r (r.step e) n run session verdict := by
  rcases sink_of_does h.sound (step_acts h.calm e).desk with hsink | ⟨uri, hsink⟩ | hpublishes
  · exact .inl (congrArg DiagnosticSink.history hsink)
  · rw [hsink]
    exact .inl rfl
  · exact .inr hpublishes

end Reviewer

namespace Review

/-- How a review begins, and all that happens to it. -/
structure Course where
  registry : Registry
  buffers : Buffers
  sink : DiagnosticSink
  debounce : Option Int
  timeout : Option Execution.Limit
  onChange : Bool
  event : Nat → Event

namespace Course

/-- The review after the first `t` events; what it wants done is seen to each time. -/
def reviewer (c : Course) : Nat → Reviewer
  | 0 =>
    { registry := { c.registry with outbox := [] }
      buffers := c.buffers
      sink := c.sink
      debounce := c.debounce
      timeout := c.timeout
      onChange := c.onChange }
  | t + 1 => { (c.reviewer t).step (c.event t) with outbox := [] }

/-- With event `t` run `n` has its verdict published. -/
def Publishes (c : Course) (t n : Nat) (run : Run) (session : Session) (verdict : Verdict) : Prop :=
  Reviewer.Publishes (c.reviewer t) (c.reviewer (t + 1)) n run session verdict

theorem orderly (c : Course) (t : Nat) : (c.reviewer t).Orderly := by
  induction t with
  | zero => exact ⟨Sound.start, rfl⟩
  | succ t ih =>
      have hstep := ih.step (c.event t)
      exact ⟨hstep.sound, hstep.calm⟩

theorem later (c : Course) {t₁ t₂ : Nat} (h : t₁ ≤ t₂) :
    Later (c.reviewer t₁).desk (c.reviewer t₂).desk := by
  induction h with
  | refl => exact .refl _
  | @step t _ ih =>
      exact ih.trans (Reviewer.step_acts (c.orderly t).calm (c.event t)).desk.later

theorem published_or_not (c : Course) (t : Nat) :
    (c.reviewer (t + 1)).sink.history = (c.reviewer t).sink.history ∨
      ∃ n run session verdict, c.Publishes t n run session verdict := by
  rcases (c.orderly t).publishes (c.event t) with hquiet | ⟨n, run, session, verdict, h⟩
  · exact .inl hquiet
  · exact .inr ⟨n, run, session, verdict, h.run_eq, h.session_eq, h.is_open, h.registered,
      h.newest, h.first, h.outcome, h.marked, h.sink⟩

section TwoPublications

variable {c : Course} {t₁ t₂ n₁ n₂ : Nat} {run₁ run₂ : Run} {session₁ session₂ : Session}
  {verdict₁ verdict₂ : Verdict}

/-- What is published later for the same session has a higher number. -/
theorem Publishes.in_order (first : c.Publishes t₁ n₁ run₁ session₁ verdict₁)
    (second : c.Publishes t₂ n₂ run₂ session₂ verdict₂) (hlt : t₁ < t₂)
    (same : run₁.session = run₂.session) : run₁.sequence < run₂.sequence := by
  obtain ⟨session, hsession, hgrows⟩ := (c.later hlt).sessions _ _ first.marked
  have hsecond := second.session_eq
  rw [← same] at hsecond
  obtain rfl : session = session₂ := Option.some.inj (hsession.symm.trans hsecond)
  have hle : (run₁.sequence : Int) ≤ session.published := hgrows.published
  have hfirst := second.first
  omega

theorem Publishes.once (first : c.Publishes t₁ n₁ run₁ session₁ verdict₁)
    (second : c.Publishes t₂ n₂ run₂ session₂ verdict₂) (hlt : t₁ < t₂) : n₁ ≠ n₂ := by
  rintro rfl
  obtain ⟨run, hrun, hticket⟩ := (c.later (Nat.le_of_lt hlt)).runs _ _ first.run_eq
  obtain rfl := Option.some.inj (hrun.symm.trans second.run_eq)
  obtain ⟨hsession, hsequence, _⟩ := Run.eq_of_ticket hticket
  have hless := first.in_order second hlt hsession.symm
  omega

end TwoPublications

/-- Whatever happens to a review: all that it publishes comes from the newest run of a session that is
open and registered, the numbers rise from one publication of a session to the next, and no run
publishes twice. -/
theorem publications_in_order (c : Course) :
    (∀ t, (c.reviewer (t + 1)).sink.history = (c.reviewer t).sink.history ∨
      ∃ n run session verdict, c.Publishes t n run session verdict) ∧
    ∀ t₁ t₂ n₁ n₂ run₁ run₂ session₁ session₂ verdict₁ verdict₂, t₁ < t₂ →
      c.Publishes t₁ n₁ run₁ session₁ verdict₁ → c.Publishes t₂ n₂ run₂ session₂ verdict₂ →
      n₁ ≠ n₂ ∧ (run₁.session = run₂.session → run₁.sequence < run₂.sequence) := by
  refine ⟨c.published_or_not, ?_⟩
  intro t₁ t₂ n₁ n₂ run₁ run₂ session₁ session₂ verdict₁ verdict₂ hlt first second
  exact ⟨first.once second hlt, first.in_order second hlt⟩

end Course

end Review

end Shellwright
