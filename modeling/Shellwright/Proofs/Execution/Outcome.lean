import Shellwright.Proofs.Execution.Launching
/-!
# The outcome of a run

A run of a command returns once. Of completion, cancellation and the end of the time limit the first
decides, and of what the child wrote nothing is lost that it had written when it was stopped. A run
whose child cannot be supervised returns nothing.
-/

namespace Shellwright.Supervisor

open Text.Utf8 (decodeLossy)

/-- A command that is run, with a token that may be cancelled already, and what happens then. -/
structure Run (τ : Type) where
  invocation : Invocation τ
  cancelled : Bool
  move : Nat → Move

namespace Run

variable {τ : Type}

/-- The world after the first `t` moves. -/
def world (r : Run τ) : Nat → World τ
  | 0 => .start r.invocation r.cancelled
  | t + 1 => (r.world t).step (r.move t)

/-- The command is cancelled before it is run. -/
def isSkipped (r : Run τ) : Bool :=
  r.invocation.options.token.isSome && r.cancelled

/-- Why the child of the run cannot be supervised, when it cannot. -/
def crash? (r : Run τ) : Option Crash :=
  Supervisor.crash? { invocation := r.invocation }

/-- The launch succeeds with move `t`. -/
def Launches (r : Run τ) (t : Nat) : Prop :=
  (r.world t).supervisor.stage = .launching ∧ ∃ pid, r.move t = .launched pid

/-- The launch is refused with move `t`. -/
def Refuses (r : Run τ) (t : Nat) (error : SystemError) : Prop :=
  (r.world t).supervisor.stage = .launching ∧ r.move t = .refused error

/-- The supervisor wakes with move `t`. -/
def Wakes (r : Run τ) (t : Nat) : Prop :=
  (r.world t).supervisor.stage = .supervising ∧
    ∃ n, r.move t = .next n ∧ (r.world t).due[n]? = some ((r.world t).now, .wake)

/-- By the time `n` something has come about. -/
def By (r : Run τ) (event : World τ → Bool) (n : Nat) : Prop :=
  ∃ t, (r.world t).now ≤ n ∧ event (r.world t) = true

/-- What a run returns by time `t` for which the supervisor woke with move `u`. -/
structure Outcome (r : Run τ) (u t : Nat) (e : Execution) : Prop where
  command : e.command = r.invocation.command.text
  exclusive : e.status?.isSome = e.failure?.isNone
  /-- The first of completion, cancellation and the end of the time limit decides. -/
  completion : ∀ n, r.By World.isComplete n → ¬r.By World.isCancelled n →
    ¬r.By World.isExpired n → (r.world t).status.map Ending.exited = some e.ending
  cancellation : ∀ n, r.By World.isCancelled n → ¬r.By World.isComplete n →
    ¬r.By World.isExpired n → e.ending = .failed (failure r.invocation true)
  timeout : ∀ n, r.By World.isExpired n → ¬r.By World.isComplete n →
    ¬r.By World.isCancelled n → e.ending = .failed (failure r.invocation false)
  wakes : r.Wakes u
  /-- Of what is recorded when the supervisor wakes completion comes first, and then cancellation. -/
  completed : (r.world u).supervisor.completed = true →
    (r.world t).status.map Ending.exited = some e.ending
  cancelled : (r.world u).supervisor.completed = false → (r.world u).supervisor.cancelled = true →
    e.ending = .failed (failure r.invocation true)
  expired : (r.world u).supervisor.completed = false → (r.world u).supervisor.cancelled = false →
    e.ending = .failed (failure r.invocation false)
  /-- The child is complete, or it is stopped now. -/
  stopped : (r.world u).killed = false ∧
    ((r.world u).isComplete = true ∨ (r.world (u + 1)).killed = true)
  output : ∃ bytes : OutputStream → List UInt8,
    e.stdout = decodeLossy (bytes .stdout) ∧ e.stderr = decodeLossy (bytes .stderr) ∧
      ∀ stream, ((r.world u).pipe stream).written <+: bytes stream ∧
        bytes stream <+: ((r.world t).pipe stream).written

variable {r : Run τ} {t u v n : Nat}

/-! ## Phases -/

/-- Whatever has come about that ends the supervision has come about just now. -/
def Fresh (r : Run τ) (t : Nat) : Prop :=
  ∀ v ≤ t, (r.world v).isDecided = true →
    (r.world t).isDecided = true ∧ (r.world v).now = (r.world t).now

/-- The supervisor wakes with move `u`, not later than anything that ends the supervision. -/
structure Woke (r : Run τ) (u : Nat) : Prop where
  supervising : (r.world u).Supervising
  fresh : r.Fresh u
  wakes : r.Wakes u
  stopped : (r.world u).isComplete = true ∨ (r.world (u + 1)).killed = true

/-- The child is there. -/
inductive Guarded (r : Run τ) (t : Nat) : Prop
  | supervising (supervising : (r.world t).Supervising) (fresh : r.Fresh t)
  | stopping (u : Nat) (before : u < t) (woke : r.Woke u)
      (stopping : World.Stopping (r.world u) (r.world t))
  | ended (u : Nat) (before : u < t) (woke : r.Woke u)
      (ended : World.Ended (r.world u) (r.world t))

inductive Phase (r : Run τ) (t : Nat) : Prop
  | launching (launching : (r.world t).Launching) (fresh : ∀ v ≤ t, (r.world v).isDecided = false)
  | guarded (guarded : r.Guarded t)
  | finished (stage : (r.world t).supervisor.stage = .ended)
      (calm : (r.world t).supervisor.outbox = []) (single : ∃ x, (r.world t).results = [x])

theorem Guarded.stage_ne (h : r.Guarded t) : (r.world t).supervisor.stage ≠ .launching := by
  intro hlaunching
  cases h with
  | supervising supervising fresh =>
      rw [supervising.stage] at hlaunching
      cases hlaunching
  | stopping u before woke stopping =>
      rcases stopping.stage with ⟨hstage, _⟩ | ⟨hstage, _⟩ <;> rw [hstage] at hlaunching <;> cases hlaunching
  | ended u before woke ended =>
      rw [ended.stage] at hlaunching
      cases hlaunching

theorem Phase.timed (h : r.Phase t) : (r.world t).Timed := by
  intro hlaunching
  cases h with
  | launching launching fresh => exact launching.since
  | guarded guarded => exact absurd hlaunching guarded.stage_ne
  | finished stage calm single =>
      rw [stage] at hlaunching
      cases hlaunching

theorem Phase.launching_of (h : r.Phase t) (stage : (r.world t).supervisor.stage = .launching) :
    (r.world t).Launching ∧ ∀ v ≤ t, (r.world v).isDecided = false := by
  cases h with
  | launching launching fresh => exact ⟨launching, fresh⟩
  | guarded guarded => exact absurd stage guarded.stage_ne
  | finished ended calm single =>
      rw [stage] at ended
      cases ended

theorem Phase.results (h : r.Phase t) : (r.world t).results.length ≤ 1 := by
  cases h with
  | launching launching fresh => simp [launching.results]
  | guarded guarded =>
      cases guarded with
      | supervising supervising fresh => simp [supervising.results]
      | stopping u before woke stopping => simp [stopping.results]
      | ended u before woke ended =>
          obtain ⟨bytes, hresults, _⟩ := ended.returned
          simp [hresults]
  | finished stage calm single =>
      obtain ⟨x, hresults⟩ := single
      simp [hresults]

theorem Fresh.succ (h : r.Fresh t) (later : (r.world t).Later (r.world (t + 1)))
    (time : (r.world (t + 1)).now = (r.world t).now ∨ (r.world t).isDecided = false)
    (cancelled : (r.world t).isCancelled = true → (r.world (t + 1)).isCancelled = true) :
    r.Fresh (t + 1) := by
  intro v hv hdecided
  rcases Nat.lt_or_eq_of_le hv with hlt | rfl
  · obtain ⟨hnow, hsame⟩ := h v (Nat.lt_succ_iff.1 hlt) hdecided
    rcases time with htime | hundecided
    · exact ⟨later.isDecided cancelled hnow, hsame.trans htime.symm⟩
    · rw [hundecided] at hnow
      cases hnow
  · exact ⟨hdecided, rfl⟩

theorem Guarded.succ (h : r.Guarded t) (later : (r.world t).Later (r.world (t + 1))) :
    r.Guarded (t + 1) := by
  cases h with
  | supervising supervising fresh =>
      have hsupervises : (r.world t).Supervises (r.move t) (r.world (t + 1)) :=
        supervising.supervises (r.move t)
      cases hsupervises with
      | supervising supervising time cancelled =>
          exact .supervising supervising (fresh.succ later time cancelled)
      | woken n move found eq =>
          have hwakes : r.Wakes t := ⟨supervising.stage, n, move, found⟩
          have hends := supervising.wakes n
          rw [← eq] at hends
          rcases hends with hstopping | hended
          · exact .stopping t (Nat.lt_succ_self t)
              ⟨supervising, fresh, hwakes, .inr hstopping.killed⟩ hstopping
          · exact .ended t (Nat.lt_succ_self t) ⟨supervising, fresh, hwakes, hended.stopped⟩ hended
  | stopping u before woke stopping =>
      rcases stopping.step (r.move t) with hstopping | hended
      · exact .stopping u (Nat.lt_succ_of_lt before) woke hstopping
      · exact .ended u (Nat.lt_succ_of_lt before) woke hended
  | ended u before woke ended => exact .ended u (Nat.lt_succ_of_lt before) woke (ended.step _)

/-- A child that can be supervised is, from its launch on. -/
theorem guarded_of_launched (launching : (r.world t).Launching)
    (fresh : ∀ v ≤ t, (r.world v).isDecided = false) {pid : Nat} (move : r.move t = .launched pid)
    (supervisable : (r.world t).supervisor.crash? = none) : r.Guarded (t + 1) := by
  have hsupervising : (r.world (t + 1)).Supervising := by
    rw [world, move]
    exact launching.launched supervisable pid
  refine .supervising hsupervising fun v hv hdecided => ?_
  rcases Nat.lt_or_eq_of_le hv with hlt | rfl
  · rw [fresh v (Nat.lt_succ_iff.1 hlt)] at hdecided
    cases hdecided
  · exact ⟨hdecided, rfl⟩

theorem Phase.succ (h : r.Phase t) : r.Phase (t + 1) := by
  cases h with
  | launching launching fresh =>
      cases hmove : r.move t with
      | launched pid =>
          cases hcrash : (r.world t).supervisor.crash? with
          | none => exact .guarded (guarded_of_launched launching fresh hmove hcrash)
          | some crash =>
              obtain ⟨hstage, hcalm, _, hresults⟩ := launching.crashed hcrash pid
              rw [← hmove] at hstage hcalm hresults
              exact .finished hstage hcalm ⟨_, hresults⟩
      | refused error =>
          obtain ⟨hstage, hcalm, _, hresults⟩ := launching.refused error
          rw [← hmove] at hstage hcalm hresults
          exact .finished hstage hcalm ⟨_, hresults⟩
      | _ =>
          have hlaunching : (r.world (t + 1)).Launching :=
            launching.step (by rw [hmove]; rintro _ ⟨⟩) (by rw [hmove]; rintro _ ⟨⟩)
          refine .launching hlaunching fun v hv => ?_
          rcases Nat.lt_or_eq_of_le hv with hlt | rfl
          · exact fresh v (Nat.lt_succ_iff.1 hlt)
          · exact hlaunching.undecided
  | guarded guarded => exact .guarded (guarded.succ (World.step_later (Phase.guarded guarded).timed _))
  | finished stage calm single =>
      obtain ⟨hsupervisor, hresults, _⟩ := World.step_of_ended stage calm (r.move t)
      refine .finished ?_ ?_ ?_
      · rw [world, hsupervisor, stage]
      · rw [world, hsupervisor, calm]
      · rw [world, hresults]
        exact single

theorem phase (r : Run τ) (t : Nat) : r.Phase t := by
  induction t with
  | zero =>
      cases hskipped : r.isSkipped with
      | false =>
          have hlaunching : (r.world 0).Launching := World.start_launching r.invocation hskipped
          refine .launching hlaunching fun v hv => ?_
          rw [Nat.le_zero.1 hv]
          exact hlaunching.undecided
      | true =>
          obtain ⟨hstage, hcalm, _, hresults⟩ := World.start_skipped r.invocation hskipped
          exact .finished hstage hcalm ⟨_, hresults⟩
  | succ t ih => exact ih.succ

/-! ## The course of a run -/

theorem later (r : Run τ) (le : u ≤ t) : (r.world u).Later (r.world t) := by
  induction le with
  | refl => exact .refl _
  | step le ih => exact ih.trans (World.step_later (r.phase _).timed _)

theorem invocation_eq (r : Run τ) (t : Nat) : (r.world t).supervisor.invocation = r.invocation :=
  (r.later (Nat.zero_le t)).invocation.trans (World.start_invocation _ _)

theorem crash?_world (r : Run τ) (t : Nat) : (r.world t).supervisor.crash? = r.crash? :=
  crash?_eq (r.invocation_eq t)

/-- Nothing is returned any more after the end. -/
theorem stays (stage : (r.world u).supervisor.stage = .ended)
    (calm : (r.world u).supervisor.outbox = []) (le : u ≤ t) :
    (r.world t).supervisor = (r.world u).supervisor ∧ (r.world t).results = (r.world u).results ∧
      (r.world t).launches = (r.world u).launches := by
  induction le with
  | refl => exact ⟨rfl, rfl, rfl⟩
  | @step t le ih =>
      obtain ⟨hsupervisor, hresults, hlaunches⟩ := ih
      obtain ⟨hsupervisor', hresults', hlaunches'⟩ :=
        World.step_of_ended (by rw [hsupervisor, stage]) (by rw [hsupervisor, calm]) (r.move t)
      exact ⟨hsupervisor'.trans hsupervisor, hresults'.trans hresults, hlaunches'.trans hlaunches⟩

theorem guarded (launches : r.Launches u) (supervisable : r.crash? = none) (lt : u < t) :
    r.Guarded t := by
  obtain ⟨hstage, pid, hmove⟩ := launches
  induction lt with
  | refl =>
      obtain ⟨hlaunching, hfresh⟩ := (r.phase u).launching_of hstage
      exact guarded_of_launched hlaunching hfresh hmove ((r.crash?_world u).trans supervisable)
  | step lt ih => exact ih.succ (r.later (Nat.le_succ _))

theorem By.mono {event event' : World τ → Bool} (h : r.By event n)
    (sub : ∀ w, event w = true → event' w = true) : r.By event' n := by
  obtain ⟨t, hle, hevent⟩ := h
  exact ⟨t, hle, sub _ hevent⟩

/-- The supervisor wakes by the time at which something has come about that ends the supervision. -/
theorem Fresh.now_le (h : r.Fresh t) (decided : r.By World.isDecided n) : (r.world t).now ≤ n := by
  obtain ⟨v, hle, hdecided⟩ := decided
  rcases Nat.le_total v t with hv | hv
  · rwa [← (h v hv hdecided).2]
  · exact Nat.le_trans (r.later hv).now hle

/-- Something was recorded for which the supervisor wakes. -/
theorem Woke.recorded (h : r.Woke u) :
    (r.world u).supervisor.completed = true ∨ (r.world u).supervisor.cancelled = true ∨
      (r.world u).isExpired = true := by
  obtain ⟨_, n, _, hfound⟩ := h.wakes
  have hexpected := h.supervising.expected _ (List.mem_of_getElem? hfound)
  generalize hx : ((r.world u).now, Event.wake) = x at hexpected
  cases hexpected with
  | wake recorded => exact recorded
  | _ => cases congrArg Prod.snd hx

/-- The supervisor wakes by the time at which the supervision is to end, for what has come about then. -/
theorem Woke.sound (h : r.Woke u) (decided : r.By World.isDecided n) :
    ((r.world u).supervisor.completed = true → r.By World.isComplete n) ∧
      ((r.world u).supervisor.cancelled = true → r.By World.isCancelled n) ∧
      ((r.world u).isExpired = true → r.By World.isExpired n) := by
  have hle := h.fresh.now_le decided
  refine ⟨fun hcompleted => ⟨u, hle, ?_⟩, fun hcancelled => ⟨u, hle, h.supervising.cancelled hcancelled⟩,
    fun hexpired => ⟨u, hle, hexpired⟩⟩
  obtain ⟨hdrained, hexited⟩ := h.supervising.completed hcompleted
  exact h.supervising.mirrors.complete hdrained hexited

theorem Woke.verdict_completed (h : r.Woke u) (later : (r.world u).Later (r.world t))
    (completed : (r.world u).supervisor.completed = true) :
    (r.world t).status.map Ending.exited = some (r.world u).verdict := by
  obtain ⟨status, hstatus⟩ := Option.isSome_iff_exists.1 (h.supervising.completed completed).2
  have hexited := h.supervising.mirrors.exited hstatus
  rw [later.status status hexited, World.verdict_of_completed completed hexited]
  rfl

/-- What is returned by the verdict of the world in which the supervisor woke. -/
theorem Woke.outcome (h : r.Woke u) (ended : World.Ended (r.world u) (r.world t)) :
    ∃ e, (r.world t).results = [.ok e] ∧ r.Outcome u t e := by
  obtain ⟨bytes, hresults, hbytes⟩ := ended.returned
  refine ⟨_, hresults, ?_⟩
  have hcompletes := h.verdict_completed ended.later
  have hfails (hincomplete : (r.world u).supervisor.completed = false) :
      (r.world u).verdict = .failed (failure r.invocation (r.world u).supervisor.cancelled) := by
    rw [World.verdict_of_incomplete hincomplete, r.invocation_eq]
  exact {
    command := by
      change (r.world u).supervisor.invocation.command.text = _
      rw [r.invocation_eq]
    exclusive := by
      unfold Execution.status? Execution.failure?
      cases (r.world u).verdict <;> rfl
    completion := fun n hcomplete huncancelled hunexpired => by
      obtain ⟨_, hcancelled, hexpired⟩ :=
        h.sound (hcomplete.mono fun _ hw => World.isDecided_iff.2 (.inl hw))
      rcases h.recorded with hflag | hflag | hflag
      · exact hcompletes hflag
      · exact absurd (hcancelled hflag) huncancelled
      · exact absurd (hexpired hflag) hunexpired
    cancellation := fun n hcancelled hincomplete hunexpired => by
      obtain ⟨hcompleted, _, hexpired⟩ :=
        h.sound (hcancelled.mono fun _ hw => World.isDecided_iff.2 (.inr (.inl hw)))
      rcases h.recorded with hflag | hflag | hflag
      · exact absurd (hcompleted hflag) hincomplete
      · have hunrecorded := Bool.eq_false_iff.2 fun hflag => hincomplete (hcompleted hflag)
        rw [hfails hunrecorded, hflag]
      · exact absurd (hexpired hflag) hunexpired
    timeout := fun n hexpired hincomplete huncancelled => by
      obtain ⟨hcompleted, hcancelled, _⟩ :=
        h.sound (hexpired.mono fun _ hw => World.isDecided_iff.2 (.inr (.inr hw)))
      have hunrecorded := Bool.eq_false_iff.2 fun hflag => hincomplete (hcompleted hflag)
      have hunrecorded' := Bool.eq_false_iff.2 fun hflag => huncancelled (hcancelled hflag)
      rw [hfails hunrecorded, hunrecorded']
    wakes := h.wakes
    completed := hcompletes
    cancelled := fun hincomplete hcancelled => by rw [hfails hincomplete, hcancelled]
    expired := fun hincomplete huncancelled => by rw [hfails hincomplete, huncancelled]
    stopped := ⟨h.supervising.unkilled, h.stopped⟩
    output := ⟨bytes, rfl, rfl, hbytes⟩ }

theorem Guarded.launches (h : r.Guarded t) : (r.world t).launches = 1 := by
  cases h with
  | supervising supervising fresh => exact supervising.launches
  | stopping u before woke stopping => exact stopping.launches
  | ended u before woke ended => exact ended.launches

/-- What decides does so within the grace times for the exit of the child and for its streams. -/
theorem Guarded.ended_of_decided (h : r.Guarded t) (decided : r.By World.isDecided n)
    (passed : n + 2 * grace.toNat < (r.world t).now) : (r.world t).supervisor.stage = .ended := by
  have hgrace : grace.toNat = 2000 := rfl
  cases h with
  | supervising supervising fresh =>
      have hnow := fresh.now_le decided
      omega
  | stopping u before woke stopping =>
      have hnow := woke.fresh.now_le decided
      have hwaited := stopping.now_le
      omega
  | ended u before woke ended => exact ended.stage

theorem Guarded.outcome (h : r.Guarded t) (stage : (r.world t).supervisor.stage = .ended) :
    ∃ e u, u < t ∧ (r.world t).results = [.ok e] ∧ r.Outcome u t e := by
  cases h with
  | supervising supervising fresh =>
      rw [supervising.stage] at stage
      cases stage
  | stopping u before woke stopping =>
      rcases stopping.stage with ⟨hstage, _⟩ | ⟨hstage, _⟩ <;> rw [hstage] at stage <;> cases stage
  | ended u before woke ended =>
      obtain ⟨e, hresults, houtcome⟩ := woke.outcome ended
      exact ⟨e, u, before, hresults, houtcome⟩

theorem skipped (skips : r.isSkipped = true) (t : Nat) :
    (r.world t).launches = 0 ∧ (r.world t).results =
      [.ok ⟨r.invocation.command.text,
        .failed (.cancelled s!"Execute {r.invocation.command.text} cancelled before start"), "", ""⟩] := by
  obtain ⟨hstage, hcalm, hlaunches, hresults⟩ := World.start_skipped r.invocation skips
  obtain ⟨_, hresults', hlaunches'⟩ := r.stays (u := 0) hstage hcalm (Nat.zero_le t)
  exact ⟨hlaunches'.trans hlaunches, hresults'.trans hresults⟩

theorem refused {error : SystemError} (refuses : r.Refuses u error) (lt : u < t) :
    (r.world t).launches = 1 ∧ (r.world t).results =
      [.ok ⟨r.invocation.command.text,
        .failed (Failure.ofSystemError r.invocation.command.program error), "", ""⟩] := by
  obtain ⟨hstage, hmove⟩ := refuses
  obtain ⟨hlaunching, _⟩ := (r.phase u).launching_of hstage
  obtain ⟨hended, hcalm, hlaunches, hresults⟩ := hlaunching.refused error
  rw [← hmove] at hended hcalm hlaunches hresults
  obtain ⟨_, hresults', hlaunches'⟩ := r.stays (u := u + 1) hended hcalm lt
  refine ⟨hlaunches'.trans hlaunches, hresults'.trans (hresults.trans ?_)⟩
  rw [command, r.invocation_eq]

theorem crashed {crash : Crash} (crashes : r.crash? = some crash) (launches : r.Launches u)
    (lt : u < t) : (r.world t).supervisor.stage = .ended ∧ (r.world t).launches = 1 ∧
      (r.world t).results = [.error (.crashed crash)] := by
  obtain ⟨hstage, pid, hmove⟩ := launches
  obtain ⟨hlaunching, _⟩ := (r.phase u).launching_of hstage
  obtain ⟨hended, hcalm, hlaunches, hresults⟩ :=
    hlaunching.crashed ((r.crash?_world u).trans crashes) pid
  rw [← hmove] at hended hcalm hlaunches hresults
  obtain ⟨hsupervisor, hresults', hlaunches'⟩ := r.stays (u := u + 1) hended hcalm lt
  exact ⟨(congrArg Supervisor.stage hsupervisor).trans hended, hlaunches'.trans hlaunches,
    hresults'.trans hresults⟩

/-! ## The outcome -/

/-- A run returns once at most. One that is cancelled before launches nothing, one whose launch is
refused fails with the error, and one whose child is launched ends soon after its first reason to end,
with the outcome that is due exactly if the child can be supervised. -/
theorem outcome_iff (r : Run τ) (t : Nat) :
    (r.world t).results.length ≤ 1 ∧
    (r.isSkipped = true → (r.world t).launches = 0 ∧ (r.world t).results =
      [.ok ⟨r.invocation.command.text,
        .failed (.cancelled s!"Execute {r.invocation.command.text} cancelled before start"), "", ""⟩]) ∧
    (∀ u < t, ∀ error, r.Refuses u error → (r.world t).launches = 1 ∧ (r.world t).results =
      [.ok ⟨r.invocation.command.text,
        .failed (Failure.ofSystemError r.invocation.command.program error), "", ""⟩]) ∧
    ∀ u < t, r.Launches u → (r.world t).launches = 1 ∧
      (∀ n, r.By World.isDecided n → n + 2 * grace.toNat < (r.world t).now →
        (r.world t).supervisor.stage = .ended) ∧
      ((r.world t).supervisor.stage = .ended →
        ((∃ e v, v < t ∧ (r.world t).results = [.ok e] ∧ r.Outcome v t e) ↔ r.crash? = none)) := by
  refine ⟨(r.phase t).results, fun hskips => r.skipped hskips t,
    fun u hlt error hrefuses => r.refused hrefuses hlt, fun u hlt hlaunches => ?_⟩
  cases hcrash : r.crash? with
  | none =>
      have hguarded := r.guarded hlaunches hcrash hlt
      exact ⟨hguarded.launches, fun n => hguarded.ended_of_decided,
        fun hstage => iff_of_true (hguarded.outcome hstage) rfl⟩
  | some crash =>
      obtain ⟨hstage, hlaunched, hresults⟩ := r.crashed hcrash hlaunches hlt
      refine ⟨hlaunched, fun _ _ _ => hstage, fun _ => iff_of_false ?_ (by rintro ⟨⟩)⟩
      rintro ⟨e, v, _, hreturned, _⟩
      rw [hresults] at hreturned
      cases hreturned

/-- A run whose token is cancelled while the child is being launched, which has written something. -/
def hasty : Run Unit where
  invocation := { command := ⟨"tool", []⟩, options := { token := some () } }
  cancelled := false
  move t := [Move.cancel, .launched 1, .write .stdout [120], .next 0, .next 1, .exit (-9),
    .close .stdout, .close .stderr, .read .stdout 1, .exhaust .stdout, .exhaust .stderr, .feed,
    .notice].getD t .tick

theorem hasty_cancelled :
    ∃ e v, v < 13 ∧ (hasty.world 13).results = [.ok e] ∧ hasty.Outcome v 13 e := by
  have hlaunches : hasty.Launches 1 := ⟨by decide +kernel, 1, rfl⟩
  have hended : (hasty.world 13).supervisor.stage = .ended := by decide +kernel
  have hsupervisable : hasty.crash? = none := by decide +kernel
  exact (((outcome_iff hasty 13).2.2.2 1 (by decide) hlaunches).2.2 hended).2 hsupervisable

/-- A run whose time limit no clock can measure. -/
def endless : Run Unit where
  invocation := { command := ⟨"tool", []⟩, options := { timeout := some (Nat.pow 10 400) } }
  cancelled := false
  move _ := .launched 1

/-- The child of such a run is launched and left to itself. -/
theorem exists_unreturned : ∃ (r : Run Unit) (u t : Nat), u < t ∧ r.Launches u ∧
    (r.world t).supervisor.stage = .ended ∧ (r.world t).results = [.error (.crashed .immeasurable)] ∧
      (r.world t).status = none ∧ (r.world t).killed = false := by
  have hlaunches : endless.Launches 0 := ⟨by decide +kernel, 1, rfl⟩
  have hcrash : endless.crash? = some .immeasurable := by decide +kernel
  obtain ⟨hstage, _, hresults⟩ := endless.crashed hcrash hlaunches Nat.one_pos
  exact ⟨endless, 0, 1, Nat.one_pos, hlaunches, hstage, hresults, by decide +kernel, by decide +kernel⟩

end Run

end Shellwright.Supervisor
