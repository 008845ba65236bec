import Shellwright.Proofs.Execution.Stopping
/-!
# Launches

Until a launch is over nothing can end the supervision that is to follow. A launch that is refused is a
failure, and a child that cannot be supervised is left to itself.
-/

namespace Shellwright.Supervisor

variable {τ : Type}

theorem crash?_eq {s s' : Supervisor τ} (same : s.invocation = s'.invocation) :
    s.crash? = s'.crash? := by
  unfold crash?
  rw [same]

theorem step_launched {s : Supervisor τ} (h : s.stage = .launching) (pid : Nat) :
    s.step (.launched pid) = s.launched pid := by
  unfold step
  rw [h]

theorem step_refused {s : Supervisor τ} (h : s.stage = .launching) (error : SystemError) :
    s.step (.refused error) = s.refused error := by
  unfold step
  rw [h]

theorem launched_unlimited {s : Supervisor τ} (supervisable : s.crash? = none)
    (unlimited : s.invocation.options.timeout = none) (pid : Nat) :
    s.launched pid = { s with stage := .supervising, pid := pid }.emit .listen := by
  have hcrash : ({ s with stage := .supervising, pid := pid }.emit .listen).crash? = none :=
    (crash?_eq rfl).trans supervisable
  unfold launched
  simp only [hcrash, emit_invocation, unlimited]

theorem launched_limited {s : Supervisor τ} (supervisable : s.crash? = none) {limit : Int}
    (limited : s.invocation.options.timeout = some limit) (pid : Nat) :
    s.launched pid =
      ({ s with stage := .supervising, pid := pid }.emit .listen).emit (.timer limit .expired) := by
  have hcrash : ({ s with stage := .supervising, pid := pid }.emit .listen).crash? = none :=
    (crash?_eq rfl).trans supervisable
  unfold launched
  simp only [hcrash, emit_invocation, limited]

theorem launched_crashed {s : Supervisor τ} {crash : Crash} (crashes : s.crash? = some crash)
    (pid : Nat) : s.launched pid =
      ({ s with stage := .supervising, pid := pid }.emit .listen).crash crash := by
  have hcrash : ({ s with stage := .supervising, pid := pid }.emit .listen).crash? = some crash :=
    (crash?_eq rfl).trans crashes
  unfold launched
  simp only [hcrash]

namespace World

variable {w w' : World τ}

/-- The launch is under way. -/
structure Launching (w : World τ) : Prop where
  stage : w.supervisor.stage = .launching
  outbox : w.supervisor.outbox = []
  mirrors : w.Mirrors
  completed : w.supervisor.completed = false
  cancelled : w.supervisor.cancelled = false
  stdout : w.supervisor.stdout = []
  stderr : w.supervisor.stderr = []
  unfed : w.fed = false
  since : w.since = none
  tokens : ∃ cancelled, w.tokens = source cancelled false
  due : w.due = []
  launches : w.launches = 1
  unkilled : w.killed = false
  results : w.results = []

theorem Launching.undecided (h : w.Launching) : w.isDecided = false := by
  unfold isDecided isComplete isCancelled isExpired
  rw [h.unfed, h.since, Bool.and_false]
  rfl

theorem Launching.inattentive (h : w.Launching) : w.isAttentive = false := by
  unfold isAttentive
  rw [h.stage]
  rfl

/-- The child may go on while its launch is not known to be over. -/
theorem Launching.informed (h : w.Launching) (informed : w.Informed w')
    (same : w'.supervisor = w.supervisor) (fed : w'.fed = w.fed) : w'.Launching where
  stage := by rw [same, h.stage]
  outbox := by rw [same, h.outbox]
  mirrors := informed.mirrors
  completed := by rw [same, h.completed]
  cancelled := by rw [same, h.cancelled]
  stdout := by rw [same, h.stdout]
  stderr := by rw [same, h.stderr]
  unfed := fed.trans h.unfed
  since := informed.since.trans h.since
  tokens := by rw [informed.tokens]; exact h.tokens
  due := informed.due.trans h.due
  launches := informed.launches.trans h.launches
  unkilled := informed.killed.trans h.unkilled
  results := informed.results.trans h.results

theorem Launching.cancel (h : w.Launching) : w.cancel.Launching := by
  obtain ⟨cancelled, htokens⟩ := h.tokens
  have hcancel : w.cancel = { w with tokens := source true false } := by
    unfold World.cancel
    rw [htokens, cancel_source, Bool.and_false, Bool.and_false]
    simp only [Bool.false_eq_true, if_false, List.map_nil, List.append_nil]
  rw [hcancel]
  exact { h with mirrors := { h.mirrors with }, tokens := ⟨true, rfl⟩ }

/-- A move that does not end the launch. -/
theorem Launching.step (h : w.Launching) {m : Move} (launched : ∀ pid, m ≠ .launched pid)
    (refused : ∀ error, m ≠ .refused error) : (w.step m).Launching := by
  cases m with
  | launched pid => exact absurd rfl (launched pid)
  | refused error => exact absurd rfl (refused error)
  | write stream bytes =>
      simp only [World.step]
      split
      · exact h
      · rename_i hopen
        exact h.informed (h.mirrors.write (Bool.eq_false_iff.2 hopen) bytes) rfl rfl
  | close stream => exact h.informed (h.mirrors.close stream) rfl rfl
  | exit status =>
      simp only [World.step]
      split
      · exact h
      · rename_i hrunning
        exact h.informed (h.mirrors.exit (by simpa using hrunning) status) rfl rfl
  | feed => simpa [World.step, h.inattentive] using h
  | spurn => simpa [World.step, h.inattentive] using h
  | read stream count => simpa [World.step, h.inattentive] using h
  | exhaust stream => simpa [World.step, h.inattentive] using h
  | notice =>
      simp only [World.step, h.inattentive]
      split <;> exact h
  | cancel => exact h.cancel
  | next n => simpa [World.step, h.due] using h
  | tick =>
      simp only [World.step]
      split
      · exact { h with mirrors := { h.mirrors with } }
      · exact h

/-- The child is there. -/
def begun (w : World τ) (pid : Nat) : World τ :=
  { w with
    since := some w.now
    supervisor := { w.supervisor with stage := .supervising, pid := pid } }

theorem Launching.step_launched (h : w.Launching) (pid : Nat) :
    w.step (.launched pid) = (w.begun pid).adopt (w.supervisor.launched pid) := by
  simp only [World.step, if_pos h.stage, tell, Supervisor.step_launched h.stage]
  rfl

theorem Launching.adopt_listen (h : w.Launching) (pid : Nat) :
    (w.begun pid).adopt ({ w.supervisor with stage := .supervising, pid := pid }.emit .listen) =
      (w.begun pid).listen := by
  have hcalm : { w.supervisor with stage := .supervising, pid := pid }.outbox = [] := h.outbox
  rw [adopt_emit, adopt_of_calm _ hcalm]
  rfl

/-- A token that was cancelled during the launch is heard of at once. -/
theorem Launching.listen_eq (h : w.Launching) (pid : Nat) {cancelled : Bool}
    (tokens : w.tokens = source cancelled false) :
    (w.begun pid).listen =
      { w.begun pid with
        tokens := source cancelled (w.supervisor.invocation.options.token.isSome && !cancelled)
        due :=
          if w.supervisor.invocation.options.token.isSome && cancelled then [(w.now, .cancelled)]
          else [] } := by
  have htokens : (w.begun pid).tokens = source cancelled false := tokens
  have hdue : (w.begun pid).due = [] := h.due
  unfold listen schedule
  rw [htokens, isCancelled_source, hdue]
  change (if w.supervisor.invocation.options.token.isNone then _ else _) = _
  cases w.supervisor.invocation.options.token with
  | none =>
      simp only [Option.isNone_none, if_true, Option.isSome_none, Bool.false_and,
        Bool.false_eq_true, if_false, ← htokens, ← hdue]
  | some token =>
      cases cancelled with
      | true => rfl
      | false => rfl

/-- The supervision begins. -/
theorem Launching.supervises (h : w.Launching) (pid : Nat) (limits : List (Nat × Event))
    (limited : limits = (w.supervisor.invocation.options.timeout.map fun limit =>
      (w.now + limit.toNat, .expired)).toList) :
    Supervising { (w.begun pid).listen with due := (w.begun pid).listen.due ++ limits } := by
  obtain ⟨cancelled, htokens⟩ := h.tokens
  rw [h.listen_eq pid htokens]
  have hlimits (x : Nat × Event) (hx : x ∈ limits) : ∃ limit,
      w.supervisor.invocation.options.timeout = some limit ∧ x = (w.now + limit.toNat, .expired) := by
    rw [limited, Option.mem_toList, Option.map_eq_some_iff] at hx
    obtain ⟨limit, hlimit, rfl⟩ := hx
    exact ⟨limit, hlimit, rfl⟩
  have hheard (x : Nat × Event)
      (hx : x ∈ if w.supervisor.invocation.options.token.isSome && cancelled then
        [(w.now, Event.cancelled)] else []) :
      x = (w.now, .cancelled) ∧
        (w.supervisor.invocation.options.token.isSome && cancelled) = true := by
    split at hx
    · rename_i hboth
      exact ⟨List.mem_singleton.1 hx, hboth⟩
    · cases hx
  exact {
    stage := rfl
    outbox := h.outbox
    mirrors := { h.mirrors with }
    since := rfl
    tokens := ⟨cancelled, _, rfl, fun hfalse => by rw [hfalse, Bool.not_false, Bool.and_true]; rfl⟩
    timely := fun x hx => by
      rcases List.mem_append.1 hx with hx | hx
      · rw [(hheard x hx).1]
        exact Nat.le_refl _
      · obtain ⟨limit, _, rfl⟩ := hlimits x hx
        exact Nat.le_add_right _ _
    expected := fun x hx => by
      rcases List.mem_append.1 hx with hx | hx
      · obtain ⟨rfl, hboth⟩ := hheard x hx
        exact .cancelled hboth
      · obtain ⟨limit, hlimit, rfl⟩ := hlimits x hx
        exact .expired w.now limit rfl hlimit
    heard := fun hcancelled => by
      have hboth : (w.supervisor.invocation.options.token.isSome && cancelled) = true := hcancelled
      refine .inr (List.mem_append_left _ ?_)
      rw [hboth]
      exact List.mem_cons_self
    woken := fun hflags => by
      rcases hflags with hflag | hflag
      · exact absurd (h.completed.symm.trans hflag) Bool.false_ne_true
      · exact absurd (h.cancelled.symm.trans hflag) Bool.false_ne_true
    limit := fun since limit hsince hlimit => by
      obtain rfl : w.now = since := Option.some.inj hsince
      refine .inl (List.mem_append_right _ ?_)
      rw [limited, Option.mem_toList, Option.map_eq_some_iff]
      exact ⟨limit, hlimit, rfl⟩
    completed := fun hflag => absurd (h.completed.symm.trans hflag) Bool.false_ne_true
    cancelled := fun hflag => absurd (h.cancelled.symm.trans hflag) Bool.false_ne_true
    launches := h.launches
    unkilled := h.unkilled
    results := h.results
    noted := fun hdrained _ => by
      have hfed : w.supervisor.fed = true := ((isDrained_iff _).1 hdrained).2
      rw [h.mirrors.fed, h.unfed] at hfed
      cases hfed }

theorem Launching.launched (h : w.Launching) (supervisable : w.supervisor.crash? = none) (pid : Nat) :
    (w.step (.launched pid)).Supervising := by
  rw [h.step_launched]
  cases htimeout : w.supervisor.invocation.options.timeout with
  | none =>
      have hbegins := h.supervises pid [] (by rw [htimeout]; rfl)
      rw [List.append_nil] at hbegins
      rw [launched_unlimited supervisable htimeout, h.adopt_listen]
      exact hbegins
  | some limit =>
      have hbegins := h.supervises pid [(w.now + limit.toNat, .expired)]
        (by rw [htimeout]; rfl)
      rw [launched_limited supervisable htimeout, adopt_emit, h.adopt_listen]
      have hnow : (w.begun pid).listen.now = w.now := by
        obtain ⟨cancelled, htokens⟩ := h.tokens
        rw [h.listen_eq pid htokens]
        rfl
      rw [← hnow] at hbegins
      exact hbegins

theorem listen_frame (w : World τ) : w.listen.supervisor = w.supervisor ∧
    w.listen.results = w.results ∧ w.listen.launches = w.launches := by
  unfold listen
  split
  · exact ⟨rfl, rfl, rfl⟩
  · split <;> exact ⟨rfl, rfl, rfl⟩

/-- A child that cannot be supervised is left to itself. -/
theorem Launching.crashed (h : w.Launching) {crash : Crash} (crashes : w.supervisor.crash? = some crash)
    (pid : Nat) :
    (w.step (.launched pid)).supervisor.stage = .ended ∧
      (w.step (.launched pid)).supervisor.outbox = [] ∧
      (w.step (.launched pid)).launches = 1 ∧
      (w.step (.launched pid)).results = [.error (.crashed crash)] := by
  obtain ⟨hsupervisor, hresults, hlaunches⟩ := listen_frame { w.begun pid with
    supervisor := { w.supervisor with stage := .ended, pid := pid, outbox := [] } }
  have hended : (w.step (.launched pid)).supervisor =
        { w.supervisor with stage := .ended, pid := pid, outbox := [] } ∧
      (w.step (.launched pid)).launches = w.launches ∧
      (w.step (.launched pid)).results = w.results ++ [.error (.crashed crash)] := by
    rw [h.step_launched, launched_crashed crashes]
    cases crash <;>
      simp only [crash, halt, adopt, emit, h.outbox, List.nil_append, List.cons_append,
        List.foldl_cons, List.foldl_nil, serve] <;>
      exact ⟨hsupervisor, hlaunches, congrArg (· ++ [_]) hresults⟩
  obtain ⟨hsupervisor, hlaunches, hresults⟩ := hended
  refine ⟨?_, ?_, hlaunches.trans h.launches, ?_⟩
  · rw [hsupervisor]
  · rw [hsupervisor]
  · rw [hresults, h.results]
    rfl

theorem Launching.refused (h : w.Launching) (error : SystemError) :
    (w.step (.refused error)).supervisor.stage = .ended ∧
      (w.step (.refused error)).supervisor.outbox = [] ∧
      (w.step (.refused error)).launches = 1 ∧
      (w.step (.refused error)).results =
        [.ok ⟨w.supervisor.command,
          .failed (Failure.ofSystemError w.supervisor.invocation.command.program error), "", ""⟩] := by
  have hstep : w.step (.refused error) = w.adopt (w.supervisor.refused error) := by
    simp only [World.step, if_pos h.stage, tell, step_refused h.stage]
  rw [hstep]
  unfold Supervisor.refused
  simp only [adopt, finish, log, emit, h.outbox, h.results, h.stdout, h.stderr, List.nil_append,
    List.cons_append, List.foldl_cons, List.foldl_nil, serve]
  exact ⟨trivial, trivial, h.launches, rfl⟩

theorem start_invocation (invocation : Invocation τ) (cancelled : Bool) :
    (start invocation cancelled).supervisor.invocation = invocation := by
  unfold start
  refine (adopt_later _ rfl).invocation.trans ?_
  unfold Supervisor.start
  simp only
  split <;> simp

/-- The beginning of a run. -/
theorem start_launching (invocation : Invocation τ) {cancelled : Bool}
    (unskipped : (invocation.options.token.isSome && cancelled) = false) :
    (start invocation cancelled).Launching := by
  unfold start
  simp only [unskipped]
  exact {
    stage := rfl
    outbox := rfl
    mirrors := {
      pipes := fun _ => ⟨Nat.le_refl _, by rintro ⟨⟩⟩
      output := fun stream => by cases stream <;> rfl
      closed := fun stream => by cases stream <;> rfl
      fed := rfl
      status := rfl
      noticed := by rintro ⟨⟩ }
    completed := rfl
    cancelled := rfl
    stdout := rfl
    stderr := rfl
    unfed := rfl
    since := rfl
    tokens := ⟨cancelled, rfl⟩
    due := rfl
    launches := rfl
    unkilled := rfl
    results := rfl }

theorem start_skipped (invocation : Invocation τ) {cancelled : Bool}
    (skipped : (invocation.options.token.isSome && cancelled) = true) :
    (start invocation cancelled).supervisor.stage = .ended ∧
      (start invocation cancelled).supervisor.outbox = [] ∧
      (start invocation cancelled).launches = 0 ∧
      (start invocation cancelled).results =
        [.ok ⟨invocation.command.text,
          .failed (.cancelled s!"Execute {invocation.command.text} cancelled before start"), "", ""⟩] := by
  unfold start
  simp only [skipped]
  exact ⟨rfl, rfl, rfl, rfl⟩

end World

end Shellwright.Supervisor
