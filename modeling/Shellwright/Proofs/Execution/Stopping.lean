import Shellwright.Proofs.Execution.Supervising
/-!
# The end of a supervision

When the supervisor wakes, what was recorded decides. A child that has not completed is killed, and what
it wrote before that is read within the grace times.
-/

namespace Shellwright.Supervisor

open Text.Utf8 (decodeLossy)

variable {τ : Type}

/-- Why a child is killed for whom somebody waits. -/
def cause (cancelled : Bool) : Cause :=
  if cancelled then .cancelled else .timedOut

/-- What is returned about a child that was killed. -/
def failure (invocation : Invocation τ) (cancelled : Bool) : Failure :=
  let command := invocation.command.text
  let limit := invocation.options.timeout.getD 0
  if cancelled then .cancelled s!"Execute {command} cancelled"
  else .timeout s!"Execute {command} timed out after {limit}ms" limit

/-- Once a child was killed it does not matter any more what is recorded. -/
theorem step_recorded {s : Supervisor τ} {cause : Cause}
    (h : s.stage = .killing cause ∨ s.stage = .draining cause) {e : Event}
    (recorded : e = .wake ∨ e = .completed ∨ e = .cancelled ∨ e = .expired) : s.step e = s := by
  unfold step
  rcases h with h | h <;> rcases recorded with rfl | rfl | rfl | rfl <;> rw [h]

theorem step_ended {s : Supervisor τ} (h : s.stage = .ended) (e : Event) : s.step e = s := by
  unfold step
  rw [h]

theorem step_killing {s : Supervisor τ} {cause : Cause} (h : s.stage = .killing cause)
    (stage : Stage) : s.step (.graceOver stage) =
      if stage = .killing cause then
        (s.log .warning s!"process {s.pid} did not exit after kill").drain cause
      else s := by
  unfold step
  rw [h]
  cases stage with
  | killing cause' =>
      simp only [Stage.killing.injEq]
      by_cases heq : cause = cause'
      · rw [if_pos heq, if_pos heq.symm, heq]
      · rw [if_neg heq, if_neg (Ne.symm heq)]
  | draining cause' => simp
  | _ => rfl

theorem step_draining {s : Supervisor τ} {cause : Cause} (h : s.stage = .draining cause)
    (stage : Stage) : s.step (.graceOver stage) =
      if stage = .draining cause then s.conclude cause else s := by
  unfold step
  rw [h]
  cases stage with
  | killing cause' => simp
  | draining cause' =>
      simp only [Stage.draining.injEq]
      by_cases heq : cause = cause'
      · rw [if_pos heq, if_pos heq.symm, heq]
      · rw [if_neg heq, if_neg (Ne.symm heq)]
  | _ => rfl

namespace World

variable {w w' w₀ : World τ} {s : Supervisor τ}

/-! ## Effects in order -/

theorem serve_supervisor (w : World τ) (s : Supervisor τ) {e : Effect} (ne : e ≠ .listen) :
    { w with supervisor := s }.serve e = { w.serve e with supervisor := s } := by
  cases e with
  | listen => exact absurd rfl ne
  | _ => rfl

theorem foldl_serve_supervisor (s : Supervisor τ) {effects : List Effect} (deaf : .listen ∉ effects)
    (w : World τ) : effects.foldl serve { w with supervisor := s } =
      { effects.foldl serve w with supervisor := s } := by
  induction effects generalizing w with
  | nil => rfl
  | cons e rest ih =>
      have hne : e ≠ .listen := fun heq => deaf (heq ▸ List.mem_cons_self)
      rw [List.foldl_cons, List.foldl_cons, serve_supervisor w s hne]
      exact ih (fun hmem => deaf (List.mem_cons_of_mem _ hmem)) (w.serve e)

theorem adopt_emit (w : World τ) (s : Supervisor τ) (e : Effect) :
    w.adopt (s.emit e) = (w.adopt s).serve e := by
  unfold adopt emit
  rw [List.foldl_append]
  rfl

theorem adopt_stage (w : World τ) (deaf : .listen ∉ s.outbox) (stage : Stage) :
    w.adopt { s with stage := stage } =
      { w.adopt s with supervisor := { s with stage := stage, outbox := [] } } := by
  unfold adopt
  rw [← foldl_serve_supervisor _ deaf]

/-- The supervisor is done with a child that was killed. -/
theorem adopt_conclude (w : World τ) (deaf : .listen ∉ s.outbox) (cancelled : Bool) :
    w.adopt (s.conclude (cause cancelled)) =
      { w.adopt s with
        supervisor := { s with stage := .ended, outbox := [] }
        results := (w.adopt s).results ++ [.ok ⟨s.command, .failed (failure s.invocation cancelled),
          decodeLossy s.stdout, decodeLossy s.stderr⟩] } := by
  have hlog (level : LogLevel) (text : String) :
      w.adopt { s.log level text with stage := .ended } =
        { w.adopt s with supervisor := { s with stage := .ended, outbox := [] } } := by
    have hdeaf : .listen ∉ (s.log level text).outbox := by
      simp [log, emit, deaf]
    rw [adopt_stage w hdeaf, log, adopt_emit]
    rfl
  cases cancelled with
  | true =>
      change w.adopt (Supervisor.emit { s.log _ _ with stage := .ended } _) = _
      rw [adopt_emit, hlog]
      rfl
  | false =>
      change w.adopt (Supervisor.emit { s.log _ _ with stage := .ended } _) = _
      rw [adopt_emit, hlog]
      rfl

/-- The supervisor gives the streams of the child their time. -/
theorem adopt_drain (w : World τ) (deaf : .listen ∉ s.outbox) {cause : Cause}
    (undrained : s.isDrained = false) :
    w.adopt (s.drain cause) =
      { w.adopt s with supervisor := { s with stage := .draining cause, outbox := [] } }.schedule 2000
        (.graceOver (.draining cause)) := by
  unfold drain
  rw [undrained, if_neg Bool.false_ne_true, adopt_emit, adopt_stage w deaf]
  rfl

/-- What the supervisor wanted done before is done before. -/
theorem adopt_drain_after (w : World τ) (calm : s.outbox = []) {effects : List Effect}
    (deaf : .listen ∉ effects) (cancelled : Bool) :
    w.adopt ({ s with outbox := effects }.drain (cause cancelled)) =
      (w.adopt { s with outbox := effects }).adopt (s.drain (cause cancelled)) := by
  have hdeaf : .listen ∉ s.outbox := by
    rw [calm]
    exact List.not_mem_nil
  cases hdrained : s.isDrained with
  | true =>
      have hdrains (s : Supervisor τ) (h : s.isDrained = true) :
          s.drain (cause cancelled) = s.conclude (cause cancelled) := if_pos h
      rw [hdrains s hdrained, hdrains { s with outbox := effects } hdrained, adopt_conclude w deaf,
        adopt_conclude _ hdeaf, adopt_of_calm _ calm]
      rfl
  | false =>
      rw [adopt_drain w (s := { s with outbox := effects }) deaf hdrained,
        adopt_drain _ hdeaf hdrained, adopt_of_calm _ calm]

theorem adopt_log_drain (w : World τ) (calm : s.outbox = []) (level : LogLevel) (text : String)
    (cancelled : Bool) :
    w.adopt ((s.log level text).drain (cause cancelled)) = w.adopt (s.drain (cause cancelled)) := by
  have hlog : s.log level text = { s with outbox := [.log ⟨level, .execution, text⟩] } := by
    unfold log emit
    rw [calm]
    rfl
  rw [hlog, adopt_drain_after w calm (by simp)]
  rfl

/-! ## The verdict -/

/-- How the run ends when the supervisor wakes now: of what was recorded completion comes first, then
cancellation, and then the end of the time limit. -/
def verdict (w : World τ) : Ending :=
  match w.supervisor.completed, w.status with
  | true, some status => .exited status
  | _, _ => .failed (failure w.supervisor.invocation w.supervisor.cancelled)

theorem verdict_of_completed (completed : w.supervisor.completed = true) {status : Int}
    (exited : w.status = some status) : w.verdict = .exited status := by
  unfold verdict
  rw [completed, exited]

theorem verdict_of_incomplete (incomplete : w.supervisor.completed = false) :
    w.verdict = .failed (failure w.supervisor.invocation w.supervisor.cancelled) := by
  unfold verdict
  rw [incomplete]

/-- The run has ended by the verdict of the world `w₀` in which the supervisor woke, and everything was
read that had been written then. -/
structure Ended (w₀ w : World τ) : Prop where
  stage : w.supervisor.stage = .ended
  outbox : w.supervisor.outbox = []
  later : w₀.Later w
  stopped : w₀.isComplete = true ∨ w.killed = true
  launches : w.launches = 1
  returned : ∃ bytes : OutputStream → List UInt8,
    w.results = [.ok ⟨w₀.supervisor.command, w₀.verdict, decodeLossy (bytes .stdout),
      decodeLossy (bytes .stderr)⟩] ∧
    ∀ stream, (w₀.pipe stream).written <+: bytes stream ∧ bytes stream <+: (w.pipe stream).written

/-- The child was killed that had not completed when the supervisor woke. -/
structure Stopped (w₀ w : World τ) : Prop where
  incomplete : w₀.supervisor.completed = false
  outbox : w.supervisor.outbox = []
  mirrors : w.Mirrors
  later : w₀.Later w
  killed : w.killed = true
  launches : w.launches = 1
  results : w.results = []
  timely : ∀ x ∈ w.due, w.now ≤ x.1
  known : ∀ x ∈ w.due, x.2 = .wake ∨ x.2 = .completed ∨ x.2 = .cancelled ∨ x.2 = .expired ∨
    ∃ stage, x.2 = .graceOver stage
  patient : ∀ time, (time, .graceOver (.draining (cause w₀.supervisor.cancelled))) ∈ w.due →
    w₀.now < time
  read : w₀.now < w.now → ∀ stream, (w₀.pipe stream).written.length ≤ (w.pipe stream).read

/-- The supervisor waits for the exit of the child, or for the ends of its streams. -/
structure Stopping (w₀ w : World τ) : Prop extends Stopped w₀ w where
  stage :
    (w.supervisor.stage = .killing (cause w₀.supervisor.cancelled) ∧
      ∃ time ≤ w₀.now + 2000,
        (time, .graceOver (.killing (cause w₀.supervisor.cancelled))) ∈ w.due) ∨
    (w.supervisor.stage = .draining (cause w₀.supervisor.cancelled) ∧
      ∃ time ≤ w₀.now + 4000,
        (time, .graceOver (.draining (cause w₀.supervisor.cancelled))) ∈ w.due)

theorem Stopping.attentive (h : Stopping w₀ w) : w.isAttentive = true := by
  unfold isAttentive
  rcases h.stage with ⟨hstage, _⟩ | ⟨hstage, _⟩ <;> rw [hstage] <;> rfl

/-- The supervisor waits no longer than twice the grace time. -/
theorem Stopping.now_le (h : Stopping w₀ w) : w.now ≤ w₀.now + 4000 := by
  rcases h.stage with ⟨_, time, hle, hmem⟩ | ⟨_, time, hle, hmem⟩
  · have htimely := h.timely _ hmem
    change w.now ≤ time at htimely
    omega
  · have htimely := h.timely _ hmem
    change w.now ≤ time at htimely
    omega

/-- Who has come to the ends of the streams has read all that was written. -/
theorem Stopped.read_of_drained (h : Stopped w₀ w) (drained : w.supervisor.isDrained = true)
    (stream : OutputStream) : (w₀.pipe stream).written.length ≤ (w.pipe stream).read := by
  have hended := ((isDrained_iff _).1 drained).1 stream
  rw [h.mirrors.closed] at hended
  rw [((h.mirrors.pipes stream).ended hended).2]
  exact (h.later.written stream).length_le

theorem Stopped.concludes (h : Stopped w₀ w)
    (read : ∀ stream, (w₀.pipe stream).written.length ≤ (w.pipe stream).read) :
    Ended w₀ (w.adopt (w.supervisor.conclude (cause w₀.supervisor.cancelled))) := by
  have hdeaf : .listen ∉ w.supervisor.outbox := by
    rw [h.outbox]
    exact List.not_mem_nil
  have hverdict := verdict_of_incomplete h.incomplete
  have hcommand : w.supervisor.command = w₀.supervisor.command := by
    unfold command
    rw [h.later.invocation]
  rw [adopt_conclude w hdeaf, adopt_of_calm w h.outbox]
  refine ⟨rfl, rfl, ?_, .inr h.killed, h.launches, ?_⟩
  · exact h.later.trans (.of_eq rfl rfl rfl rfl rfl rfl id)
  · refine ⟨w.supervisor.output, ?_, fun stream => ?_⟩
    · change w.results ++ _ = _
      rw [h.results, hverdict, hcommand, h.later.invocation]
      rfl
    · rw [h.mirrors.output]
      exact ⟨List.prefix_take_iff.2 ⟨h.later.written stream, read stream⟩, List.take_prefix _ _⟩

/-- A grace time begins. -/
theorem Stopped.grace (h : Stopped w₀ w) (stage : Stage) :
    Stopped w₀ ({ w with supervisor := { w.supervisor with stage := stage, outbox := [] } }.schedule
      2000 (.graceOver stage)) := by
  have hnow := h.later.now
  exact { h with
    outbox := rfl
    mirrors := { h.mirrors with }
    later := h.later.trans (.of_eq rfl rfl rfl rfl rfl rfl id)
    timely := forall_schedule h.timely (Nat.le_add_right _ _)
    known := forall_schedule h.known (.inr (.inr (.inr (.inr ⟨_, rfl⟩))))
    patient := fun time hmem => by
      rcases List.mem_append.1 hmem with hmem | hmem
      · exact h.patient time hmem
      · have htime : time = w.now + 2000 := congrArg Prod.fst (List.mem_singleton.1 hmem)
        omega }

theorem Stopped.drains (h : Stopped w₀ w) (time : w.now ≤ w₀.now + 2000) :
    Stopping w₀ (w.adopt (w.supervisor.drain (cause w₀.supervisor.cancelled))) ∨
      Ended w₀ (w.adopt (w.supervisor.drain (cause w₀.supervisor.cancelled))) := by
  have hdeaf : .listen ∉ w.supervisor.outbox := by
    rw [h.outbox]
    exact List.not_mem_nil
  cases hdrained : w.supervisor.isDrained with
  | true =>
      refine .inr ?_
      unfold drain
      rw [if_pos hdrained]
      exact h.concludes (h.read_of_drained hdrained)
  | false =>
      refine .inl ?_
      rw [adopt_drain w hdeaf hdrained, adopt_of_calm w h.outbox]
      exact ⟨h.grace _, .inr ⟨rfl, w.now + 2000, by omega,
        mem_schedule _ _ _⟩⟩

/-! ## While the child is being stopped -/

theorem Stopped.informed (h : Stopped w₀ w) (informed : w.Informed w') : Stopped w₀ w' where
  incomplete := h.incomplete
  outbox := informed.learned.outbox.trans h.outbox
  mirrors := informed.mirrors
  later := h.later.trans informed.later
  killed := informed.killed.trans h.killed
  launches := informed.launches.trans h.launches
  results := informed.results.trans h.results
  timely := by rw [informed.due, informed.now]; exact h.timely
  known := by rw [informed.due]; exact h.known
  patient := by rw [informed.due]; exact h.patient
  read hlt stream := by
    rw [informed.now] at hlt
    exact Nat.le_trans (h.read hlt stream) (informed.read stream)

theorem Stopping.informed (h : Stopping w₀ w) (informed : w.Informed w') : Stopping w₀ w' where
  toStopped := h.toStopped.informed informed
  stage := by
    rw [informed.learned.stage, informed.due]
    exact h.stage

/-- Something that is due has been taken out. -/
theorem Stopped.spend (h : Stopped w₀ w) (n : Nat) :
    Stopped w₀ { w with due := w.due.eraseIdx n } :=
  { h with
    mirrors := { h.mirrors with }
    later := h.later.trans (.of_eq rfl rfl rfl rfl rfl rfl id)
    timely := fun x hx => h.timely x (List.mem_of_mem_eraseIdx hx)
    known := fun x hx => h.known x (List.mem_of_mem_eraseIdx hx)
    patient := fun time hmem => h.patient time (List.mem_of_mem_eraseIdx hmem) }

theorem Stopping.progressed (h : Stopping w₀ w) :
    Stopping w₀ w.progressed ∨ Ended w₀ w.progressed := by
  unfold World.progressed progress
  rcases h.stage with ⟨hstage, time, hle, hmem⟩ | ⟨hstage, time, hle, hmem⟩
  · rw [hstage]
    simp only
    split
    · exact h.toStopped.drains (Nat.le_trans (h.timely _ hmem) hle)
    · rw [adopt_of_calm w h.outbox]
      exact .inl h
  · rw [hstage]
    simp only
    split
    · rename_i hdrained
      exact .inr (h.toStopped.concludes (h.toStopped.read_of_drained hdrained))
    · rw [adopt_of_calm w h.outbox]
      exact .inl h

theorem Stopping.next (h : Stopping w₀ w) {n : Nat} {x : Nat × Event} (found : w.due[n]? = some x)
    (reached : x.1 ≤ w.now) :
    Stopping w₀ ({ w with due := w.due.eraseIdx n }.tell x.2) ∨
      Ended w₀ ({ w with due := w.due.eraseIdx n }.tell x.2) := by
  obtain ⟨time, e⟩ := x
  have hspent := h.toStopped.spend n
  -- The supervisor goes on waiting unless its own grace time is over.
  have hstays (hstep : w.supervisor.step e = w.supervisor)
      (hkilling : w.supervisor.stage = .killing (cause w₀.supervisor.cancelled) →
        e ≠ .graceOver (.killing (cause w₀.supervisor.cancelled)))
      (hdraining : w.supervisor.stage = .draining (cause w₀.supervisor.cancelled) →
        e ≠ .graceOver (.draining (cause w₀.supervisor.cancelled))) :
      Stopping w₀ ({ w with due := w.due.eraseIdx n }.tell e) := by
    have htell : { w with due := w.due.eraseIdx n }.tell e = { w with due := w.due.eraseIdx n } := by
      unfold tell
      rw [hstep, adopt_of_calm _ h.outbox]
    rw [htell]
    refine ⟨hspent, h.stage.imp ?_ ?_⟩
    · rintro ⟨hstage, time', hle, hmem⟩
      refine ⟨hstage, time', hle, mem_eraseIdx_of_ne found hmem fun heq => ?_⟩
      exact hkilling hstage (congrArg Prod.snd heq).symm
    · rintro ⟨hstage, time', hle, hmem⟩
      refine ⟨hstage, time', hle, mem_eraseIdx_of_ne found hmem fun heq => ?_⟩
      exact hdraining hstage (congrArg Prod.snd heq).symm
  have hrecorded (hevent : e = .wake ∨ e = .completed ∨ e = .cancelled ∨ e = .expired) :
      Stopping w₀ ({ w with due := w.due.eraseIdx n }.tell e) := by
    refine hstays (step_recorded (h.stage.imp And.left And.left) hevent) ?_ ?_ <;>
      rcases hevent with rfl | rfl | rfl | rfl <;> exact fun _ heq => by cases heq
  rcases h.known (time, e) (List.mem_of_getElem? found) with hevent | hevent | hevent | hevent | hgrace
  · exact .inl (hrecorded (.inl hevent))
  · exact .inl (hrecorded (.inr (.inl hevent)))
  · exact .inl (hrecorded (.inr (.inr (.inl hevent))))
  · exact .inl (hrecorded (.inr (.inr (.inr hevent))))
  · obtain ⟨stage, rfl⟩ := hgrace
    rcases h.stage with ⟨hstage, time', hle, hmem⟩ | ⟨hstage, time', hle, hmem⟩
    · by_cases heq : stage = .killing (cause w₀.supervisor.cancelled)
      · have hstep := step_killing hstage stage
        rw [if_pos heq] at hstep
        unfold tell
        rw [hstep, adopt_log_drain _ h.outbox]
        exact hspent.drains (Nat.le_trans (h.timely _ hmem) hle)
      · refine .inl (hstays ?_ ?_ ?_)
        · rw [step_killing hstage, if_neg heq]
        · exact fun _ hsame => heq (Event.graceOver.inj hsame)
        · intro hdraining
          rw [hstage] at hdraining
          cases hdraining
    · by_cases heq : stage = .draining (cause w₀.supervisor.cancelled)
      · have hstep := step_draining hstage stage
        rw [if_pos heq] at hstep
        unfold tell
        rw [hstep]
        have hpassed := h.patient time (heq ▸ List.mem_of_getElem? found)
        exact .inr (hspent.concludes (h.read (Nat.lt_of_lt_of_le hpassed reached)))
      · refine .inl (hstays ?_ ?_ ?_)
        · rw [step_draining hstage, if_neg heq]
        · intro hkilling
          rw [hstage] at hkilling
          cases hkilling
        · exact fun _ hsame => heq (Event.graceOver.inj hsame)

theorem Stopping.cancel (h : Stopping w₀ w) : Stopping w₀ w.cancel := by
  have htold (x : Nat × Event)
      (hx : x ∈ (w.tokens.cancel (fun _ => ()) ()).2.map fun _ => (w.now, Event.cancelled)) :
      x = (w.now, .cancelled) := by
    obtain ⟨_, _, rfl⟩ := List.mem_map.1 hx
    rfl
  exact { h with
    mirrors := { h.mirrors with }
    later := h.later.trans (.of_eq rfl rfl rfl rfl rfl rfl id)
    timely := fun x hx => by
      rcases List.mem_append.1 hx with hx | hx
      · exact h.timely x hx
      · rw [htold x hx]
        exact Nat.le_refl _
    known := fun x hx => by
      rcases List.mem_append.1 hx with hx | hx
      · exact h.known x hx
      · rw [htold x hx]
        exact .inr (.inr (.inl rfl))
    patient := fun time hmem => by
      rcases List.mem_append.1 hmem with hmem | hmem
      · exact h.patient time hmem
      · cases htold _ hmem
    stage := by
      refine h.stage.imp ?_ ?_
      · rintro ⟨hstage, time, hle, hmem⟩
        exact ⟨hstage, time, hle, List.mem_append_left _ hmem⟩
      · rintro ⟨hstage, time, hle, hmem⟩
        exact ⟨hstage, time, hle, List.mem_append_left _ hmem⟩ }

theorem Stopping.tick (h : Stopping w₀ w) (settled : w.isSettled = true) :
    Stopping w₀ { w with now := w.now + 1 } := by
  obtain ⟨hlater, hquiet, _⟩ := isSettled_of_attentive h.attentive settled
  exact { h with
    mirrors := { h.mirrors with }
    later := h.later.trans { Later.refl w with now := Nat.le_succ _ }
    timely := hlater
    read := fun _ stream => by
      change _ ≤ (w.pipe stream).read
      rw [(Pipe.isQuiet_iff.1 (hquiet stream)).1]
      exact (h.later.written stream).length_le }

theorem Stopping.step (h : Stopping w₀ w) (m : Move) :
    Stopping w₀ (w.step m) ∨ Ended w₀ (w.step m) := by
  have hsteps := step_steps h.attentive h.outbox h.mirrors m
  generalize w.step m = w' at hsteps ⊢
  cases hsteps with
  | informed _ _ informed _ _ => exact .inl (h.informed informed)
  | progressed _ w' informed => exact (h.informed informed).progressed
  | cancel => exact .inl h.cancel
  | next n x found reached => exact h.next found reached
  | tick settled => exact .inl (h.tick settled)

/-! ## The end -/

/-- After the end the supervisor does nothing. -/
theorem step_of_ended (stage : w.supervisor.stage = .ended) (calm : w.supervisor.outbox = [])
    (m : Move) : (w.step m).supervisor = w.supervisor ∧ (w.step m).results = w.results ∧
      (w.step m).launches = w.launches := by
  have hattentive : w.isAttentive = false := by
    unfold isAttentive
    rw [stage]
    rfl
  cases m with
  | next n =>
      simp only [step]
      split
      · split
        · unfold tell
          rw [step_ended stage, adopt_of_calm _ calm]
          exact ⟨rfl, rfl, rfl⟩
        · exact ⟨rfl, rfl, rfl⟩
      · exact ⟨rfl, rfl, rfl⟩
  | launched pid => simp [step, stage]
  | refused error => simp [step, stage]
  | feed => simp [step, hattentive]
  | spurn => simp [step, hattentive]
  | read stream count => simp [step, hattentive]
  | exhaust stream => simp [step, hattentive]
  | notice =>
      simp only [step, hattentive]
      split <;> exact ⟨rfl, rfl, rfl⟩
  | write stream bytes =>
      simp only [step]
      split <;> exact ⟨rfl, rfl, rfl⟩
  | exit status =>
      simp only [step]
      split <;> exact ⟨rfl, rfl, rfl⟩
  | tick =>
      simp only [step]
      split <;> exact ⟨rfl, rfl, rfl⟩
  | close stream => exact ⟨rfl, rfl, rfl⟩
  | cancel => exact ⟨rfl, rfl, rfl⟩

theorem Ended.step (h : Ended w₀ w) (m : Move) : Ended w₀ (w.step m) := by
  obtain ⟨hsupervisor, hresults, hlaunches⟩ := step_of_ended h.stage h.outbox m
  have hlater : w.Later (w.step m) := step_later (fun heq => by rw [h.stage] at heq; cases heq) m
  obtain ⟨bytes, hreturned, hbytes⟩ := h.returned
  refine ⟨?_, ?_, h.later.trans hlater, h.stopped.imp_right hlater.killed, ?_, bytes, ?_, ?_⟩
  · rw [hsupervisor, h.stage]
  · rw [hsupervisor, h.outbox]
  · rw [hlaunches, h.launches]
  · rw [hresults, hreturned]
  · exact fun stream => ⟨(hbytes stream).1, (hbytes stream).2.trans (hlater.written stream)⟩

/-- The supervisor knows the status with which the child has exited. -/
theorem Mirrors.exited (h : w.Mirrors) {status : Int} (exited : w.supervisor.status = some status) :
    w.status = some status := by
  rw [h.status] at exited
  split at exited
  · exact exited
  · cases exited

/-- A child whose exit was noted and whose streams have come to their ends has completed. -/
theorem Mirrors.complete (h : w.Mirrors) (drained : w.supervisor.isDrained = true)
    (exited : w.supervisor.status.isSome = true) : w.isComplete = true := by
  obtain ⟨hclosed, hfed⟩ := (isDrained_iff _).1 drained
  obtain ⟨status, hstatus⟩ := Option.isSome_iff_exists.1 exited
  refine isComplete_iff.2 ⟨?_, fun stream => ?_, h.fed.symm.trans hfed⟩
  · rw [h.exited hstatus]
    rfl
  · have hended := hclosed stream
    rw [h.closed] at hended
    exact ((h.pipes stream).ended hended).1

/-- The supervisor wakes. -/
theorem Supervising.wakes (h : w.Supervising) (n : Nat) :
    Stopping w ({ w with due := w.due.eraseIdx n }.tell .wake) ∨
      Ended w ({ w with due := w.due.eraseIdx n }.tell .wake) := by
  have htell : { w with due := w.due.eraseIdx n }.tell .wake =
      { w with due := w.due.eraseIdx n }.adopt w.supervisor.wake := by
    unfold tell
    rw [step_wake h.stage]
  rw [htell]
  cases hcompleted : w.supervisor.completed with
  | true =>
      obtain ⟨hdrained, hexited⟩ := h.completed hcompleted
      obtain ⟨status, hstatus⟩ := Option.isSome_iff_exists.1 hexited
      refine .inr ?_
      have hverdict : w.verdict = .exited status :=
        verdict_of_completed hcompleted (h.mirrors.exited hstatus)
      have hwake : w.supervisor.wake =
          { (w.supervisor.emit .unlisten).log .debug
              s!"{w.supervisor.command} exited with {status}" with stage := .ended }.emit
            (.finish ⟨w.supervisor.command, .exited status, decodeLossy w.supervisor.stdout,
              decodeLossy w.supervisor.stderr⟩) := by
        unfold wake emit
        simp only [hcompleted, hstatus]
        rfl
      have hlater : w.Later ({ w with due := w.due.eraseIdx n }.adopt w.supervisor.wake) := by
        have hspent : w.Later { w with due := w.due.eraseIdx n } :=
          .of_eq rfl rfl rfl rfl rfl rfl id
        exact hspent.trans (adopt_later _ (wake_invocation _))
      rw [hwake] at hlater ⊢
      simp only [adopt, emit, log, h.outbox, List.nil_append, List.cons_append, List.foldl_cons,
        List.foldl_nil, serve] at hlater ⊢
      refine ⟨rfl, rfl, hlater, .inl (h.mirrors.complete hdrained hexited), h.launches,
        w.supervisor.output, ?_, fun stream => ?_⟩
      · rw [h.results, hverdict]
        rfl
      · have hended := ((isDrained_iff _).1 hdrained).1 stream
        rw [h.mirrors.closed] at hended
        rw [h.mirrors.output, ((h.mirrors.pipes stream).ended hended).2, List.take_length]
        exact ⟨List.prefix_refl _, List.prefix_refl _⟩
  | false =>
      have hwake : w.supervisor.wake =
          (w.supervisor.emit .unlisten).terminate (cause w.supervisor.cancelled) := by
        unfold wake emit
        simp only [hcompleted]
        rfl
      have heffects : (w.supervisor.emit .unlisten).emit .kill =
          { w.supervisor with outbox := [.unlisten, .kill] } := by
        unfold emit
        rw [h.outbox]
        rfl
      -- The child is killed, and nobody listens to the token any more.
      have hadopt : { w with due := w.due.eraseIdx n }.adopt
            { w.supervisor with outbox := [.unlisten, .kill] } =
          { w with
            due := w.due.eraseIdx n
            tokens := w.tokens.removeListener () (.callback ())
            killed := true } := by
        simp only [adopt, List.foldl_cons, List.foldl_nil, serve]
        rw [← h.outbox]
      have hstopped : Stopped w
          { w with
            due := w.due.eraseIdx n
            tokens := w.tokens.removeListener () (.callback ())
            killed := true } :=
        { incomplete := hcompleted
          outbox := h.outbox
          mirrors := { h.mirrors with }
          later := .of_eq rfl rfl rfl rfl rfl rfl fun _ => rfl
          killed := rfl
          launches := h.launches
          results := h.results
          timely := fun x hx => h.timely x (List.mem_of_mem_eraseIdx hx)
          known := fun x hx => by
            cases h.expected x (List.mem_of_mem_eraseIdx hx) with
            | wake recorded => exact .inl rfl
            | completed drained exited => exact .inr (.inl rfl)
            | cancelled cancelled => exact .inr (.inr (.inl rfl))
            | expired since limit launched limited => exact .inr (.inr (.inr (.inl rfl)))
          patient := fun time hmem => by cases h.expected _ (List.mem_of_mem_eraseIdx hmem)
          read := fun hlt => absurd hlt (Nat.lt_irrefl _) }
      rw [hwake]
      unfold terminate
      simp only [heffects]
      split
      · rw [adopt_drain_after _ h.outbox (by simp), hadopt]
        exact hstopped.drains (Nat.le_add_right _ _)
      · refine .inl ?_
        have hstage := adopt_stage { w with due := w.due.eraseIdx n }
          (s := { w.supervisor with outbox := [.unlisten, .kill] }) (by simp)
          (.killing (cause w.supervisor.cancelled))
        rw [hadopt] at hstage
        rw [adopt_emit, hstage]
        exact ⟨hstopped.grace _, .inl ⟨rfl, w.now + 2000, Nat.le_refl _,
          mem_schedule _ _ _⟩⟩

end World

end Shellwright.Supervisor
