import Shellwright.Proofs.Execution.World
/-!
# Steps of a supervisor and its child

What a move can do while the child is looked after: the child goes on or something is learned about it,
the token is cancelled, something that is due happens, or time passes.
-/

namespace Shellwright.Supervisor

open Cancellation (Tokens)

variable {τ : Type}

/-! ## Tokens -/

theorem isCancelled_source (cancelled listening : Bool) :
    (source cancelled listening).isCancelled () = cancelled := rfl

/-- Who listens is told, once. -/
theorem cancel_source (cancelled listening : Bool) :
    (source cancelled listening).cancel (fun _ => ()) () =
      (source true (cancelled && listening), if !cancelled && listening then [()] else []) := by
  cases cancelled <;> cases listening <;> rfl

/-! ## Streams -/

def output (s : Supervisor τ) : OutputStream → List UInt8
  | .stdout => s.stdout
  | .stderr => s.stderr

def isClosed (s : Supervisor τ) : OutputStream → Bool
  | .stdout => s.stdoutClosed
  | .stderr => s.stderrClosed

theorem isDrained_iff (s : Supervisor τ) :
    s.isDrained = true ↔ (∀ stream, s.isClosed stream = true) ∧ s.fed = true := by
  unfold isDrained
  rw [Bool.and_eq_true, Bool.and_eq_true]
  refine and_congr_left fun _ => ⟨fun h stream => ?_, fun h => ⟨h .stdout, h .stderr⟩⟩
  cases stream
  · exact h.1
  · exact h.2

theorem output_wrote (s : Supervisor τ) (stream other : OutputStream) (bytes : List UInt8) :
    (s.wrote stream bytes).output other =
      if other = stream then s.output other ++ bytes else s.output other := by
  cases stream <;> cases other <;> rfl

/-- The end of a stream was read. -/
def shut (s : Supervisor τ) : OutputStream → Supervisor τ
  | .stdout => { s with stdoutClosed := true }
  | .stderr => { s with stderrClosed := true }

theorem isClosed_shut (s : Supervisor τ) (stream other : OutputStream) :
    (s.shut stream).isClosed other = if other = stream then true else s.isClosed other := by
  cases stream <;> cases other <;> rfl

theorem step_wrote {s : Supervisor τ} (h : s.stage.isAttentive = true) (stream : OutputStream)
    (bytes : List UInt8) : s.step (.wrote stream bytes) = s.wrote stream bytes := by
  unfold step
  cases hstage : s.stage <;> first | rfl | (rw [hstage] at h; cases h)

theorem step_closed {s : Supervisor τ} (h : s.stage.isAttentive = true) (stream : OutputStream) :
    s.step (.closed stream) = (s.shut stream).progress := by
  unfold step
  cases hstage : s.stage <;> first | (cases stream <;> rfl) | (rw [hstage] at h; cases h)

theorem step_fed {s : Supervisor τ} (h : s.stage.isAttentive = true) :
    s.step .fed = { s with fed := true }.progress := by
  unfold step
  cases hstage : s.stage <;> first | rfl | (rw [hstage] at h; cases h)

theorem step_exited {s : Supervisor τ} (h : s.stage.isAttentive = true) (status : Int) :
    s.step (.exited status) = { s with status := some status }.progress := by
  unfold step
  cases hstage : s.stage <;> first | rfl | (rw [hstage] at h; cases h)

theorem step_spurned {s : Supervisor τ} (h : s.stage.isAttentive = true) :
    s.step .spurned = s.log .debug s!"process {s.pid} closed stdin early" := by
  unfold step
  cases hstage : s.stage <;> first | rfl | (rw [hstage] at h; cases h)

/-- More is known of the child, and nothing else has changed. -/
structure Learned (s s' : Supervisor τ) : Prop where
  invocation : s'.invocation = s.invocation
  stage : s'.stage = s.stage
  completed : s'.completed = s.completed
  cancelled : s'.cancelled = s.cancelled
  outbox : s'.outbox = s.outbox
  exited : s.status.isSome = true → s'.status.isSome = true
  drained : s.isDrained = true → s'.isDrained = true

theorem Learned.refl (s : Supervisor τ) : Learned s s :=
  ⟨rfl, rfl, rfl, rfl, rfl, id, id⟩

theorem wrote_learned (s : Supervisor τ) (stream : OutputStream) (bytes : List UInt8) :
    Learned s (s.wrote stream bytes) := by
  cases stream <;> exact ⟨rfl, rfl, rfl, rfl, rfl, id, id⟩

theorem shut_learned (s : Supervisor τ) (stream : OutputStream) : Learned s (s.shut stream) := by
  have hdrained (h : s.isDrained = true) : (s.shut stream).isDrained = true := by
    rw [isDrained_iff] at h ⊢
    refine ⟨fun other => ?_, by cases stream <;> exact h.2⟩
    rw [isClosed_shut]
    split
    · rfl
    · exact h.1 other
  cases stream <;> exact ⟨rfl, rfl, rfl, rfl, rfl, id, hdrained⟩

theorem fed_learned (s : Supervisor τ) : Learned s { s with fed := true } :=
  ⟨rfl, rfl, rfl, rfl, rfl, id, fun h => (isDrained_iff _).2 ⟨((isDrained_iff s).1 h).1, rfl⟩⟩

theorem exited_learned (s : Supervisor τ) (status : Int) :
    Learned s { s with status := some status } :=
  ⟨rfl, rfl, rfl, rfl, rfl, fun _ => rfl, id⟩

/-! ## Invocations -/

@[simp] theorem emit_invocation (s : Supervisor τ) (e : Effect) :
    (s.emit e).invocation = s.invocation := rfl

@[simp] theorem log_invocation (s : Supervisor τ) (level : LogLevel) (text : String) :
    (s.log level text).invocation = s.invocation := rfl

@[simp] theorem finish_invocation (s : Supervisor τ) (ending : Ending) :
    (s.finish ending).invocation = s.invocation := rfl

@[simp] theorem halt_invocation (s : Supervisor τ) (stop : Stop) :
    (s.halt stop).invocation = s.invocation := rfl

@[simp] theorem conclude_invocation (s : Supervisor τ) (cause : Cause) :
    (s.conclude cause).invocation = s.invocation := by
  cases cause <;> rfl

@[simp] theorem drain_invocation (s : Supervisor τ) (cause : Cause) :
    (s.drain cause).invocation = s.invocation := by
  unfold drain
  split <;> simp

@[simp] theorem terminate_invocation (s : Supervisor τ) (cause : Cause) :
    (s.terminate cause).invocation = s.invocation := by
  unfold terminate
  simp only
  split <;> simp

@[simp] theorem wake_invocation (s : Supervisor τ) : s.wake.invocation = s.invocation := by
  unfold wake
  simp only
  split <;> simp

@[simp] theorem progress_invocation (s : Supervisor τ) : s.progress.invocation = s.invocation := by
  unfold progress
  split
  · split <;> simp
  · split <;> simp
  · split <;> simp
  · rfl

@[simp] theorem crash_invocation (s : Supervisor τ) (crash : Crash) :
    (s.crash crash).invocation = s.invocation := by
  cases crash <;> rfl

@[simp] theorem launched_invocation (s : Supervisor τ) (pid : Nat) :
    (s.launched pid).invocation = s.invocation := by
  unfold launched
  simp only
  split <;> simp

@[simp] theorem wrote_invocation (s : Supervisor τ) (stream : OutputStream) (bytes : List UInt8) :
    (s.wrote stream bytes).invocation = s.invocation := by
  cases stream <;> rfl

@[simp] theorem closed_invocation (s : Supervisor τ) (stream : OutputStream) :
    (s.closed stream).invocation = s.invocation := by
  cases stream <;> simp [closed]

@[simp] theorem abort_invocation (s : Supervisor τ) : s.abort.invocation = s.invocation := by
  unfold abort
  split <;> simp

theorem step_invocation (s : Supervisor τ) (e : Event) : (s.step e).invocation = s.invocation := by
  unfold step
  repeat' split
  all_goals simp [refused]

/-- What was read lies within what was written, and the end of a closed stream comes after all of it. -/
structure Pipe.Sound (p : Pipe) : Prop where
  read : p.read ≤ p.written.length
  ended : p.ended = true → p.closed = true ∧ p.read = p.written.length

namespace World

variable {w w' w'' : World τ}

/-- The supervisor knows what was noticed of the child. -/
structure Mirrors (w : World τ) : Prop where
  pipes : ∀ stream, (w.pipe stream).Sound
  output : ∀ stream,
    w.supervisor.output stream = (w.pipe stream).written.take (w.pipe stream).read
  closed : ∀ stream, w.supervisor.isClosed stream = (w.pipe stream).ended
  fed : w.supervisor.fed = w.fed
  status : w.supervisor.status = if w.noticed then w.status else none
  noticed : w.noticed = true → w.status.isSome = true

/-- What has come about stays. -/
structure Later (w w' : World τ) : Prop where
  invocation : w'.supervisor.invocation = w.supervisor.invocation
  now : w.now ≤ w'.now
  since : ∀ since, w.since = some since → w'.since = some since
  written : ∀ stream, (w.pipe stream).written <+: (w'.pipe stream).written
  closed : ∀ stream, (w.pipe stream).closed = true → (w'.pipe stream).closed = true
  status : ∀ status, w.status = some status → w'.status = some status
  fed : w.fed = true → w'.fed = true
  killed : w.killed = true → w'.killed = true

theorem Later.of_eq (invocation : w'.supervisor.invocation = w.supervisor.invocation)
    (now : w'.now = w.now) (since : w'.since = w.since) (pipe : w'.pipe = w.pipe)
    (status : w'.status = w.status) (fed : w'.fed = w.fed)
    (killed : w.killed = true → w'.killed = true) : w.Later w' where
  invocation := invocation
  now := Nat.le_of_eq now.symm
  since _ h := since.trans h
  written stream := pipe ▸ List.prefix_refl _
  closed stream h := by rw [pipe]; exact h
  status _ h := status.trans h
  fed h := fed.trans h
  killed := killed

theorem Later.refl (w : World τ) : w.Later w :=
  .of_eq rfl rfl rfl rfl rfl rfl id

theorem Later.trans (h : w.Later w') (h' : w'.Later w'') : w.Later w'' where
  invocation := h'.invocation.trans h.invocation
  now := Nat.le_trans h.now h'.now
  since since hsince := h'.since since (h.since since hsince)
  written stream := (h.written stream).trans (h'.written stream)
  closed stream hclosed := h'.closed stream (h.closed stream hclosed)
  status status hstatus := h'.status status (h.status status hstatus)
  fed hfed := h'.fed (h.fed hfed)
  killed hkilled := h'.killed (h.killed hkilled)

/-! ## What is due -/

theorem mem_schedule (w : World τ) (delay : Nat) (e : Event) :
    (w.now + delay, e) ∈ (w.schedule delay e).due :=
  List.mem_append_right _ List.mem_cons_self

/-- What holds of all that was due and of what is due now holds of all that is due. -/
theorem forall_schedule {p : Nat × Event → Prop} {delay : Nat} {e : Event} (old : ∀ x ∈ w.due, p x)
    (new : p (w.now + delay, e)) : ∀ x ∈ (w.schedule delay e).due, p x :=
  List.forall_mem_append.2 ⟨old, List.forall_mem_singleton.2 new⟩

/-! ## Effects -/

theorem serve_later (w : World τ) (e : Effect) : w.Later (w.serve e) := by
  cases e with
  | listen =>
      change w.Later w.listen
      unfold listen
      split
      · exact .refl w
      · split
        · exact .of_eq rfl rfl rfl rfl rfl rfl id
        · exact .of_eq rfl rfl rfl rfl rfl rfl id
  | kill => exact .of_eq rfl rfl rfl rfl rfl rfl fun _ => rfl
  | _ => exact .of_eq rfl rfl rfl rfl rfl rfl id

theorem foldl_serve_later (effects : List Effect) (w : World τ) :
    w.Later (effects.foldl serve w) := by
  induction effects generalizing w with
  | nil => exact Later.refl w
  | cons e rest ih => exact (w.serve_later e).trans (ih (w.serve e))

theorem adopt_later (w : World τ) {s : Supervisor τ}
    (same : s.invocation = w.supervisor.invocation) : w.Later (w.adopt s) := by
  have hfirst : w.Later { w with supervisor := { s with outbox := [] } } :=
    .of_eq same rfl rfl rfl rfl rfl id
  exact hfirst.trans (foldl_serve_later _ _)

theorem tell_later (w : World τ) (e : Event) : w.Later (w.tell e) :=
  adopt_later w (step_invocation w.supervisor e)

/-! ## Pipes -/

theorem changePipe_pipe (w : World τ) (stream : OutputStream) (f : Pipe → Pipe)
    (other : OutputStream) : (w.changePipe stream f).pipe other =
      if other = stream then f (w.pipe other) else w.pipe other := rfl

@[simp] theorem changePipe_supervisor (w : World τ) (stream : OutputStream) (f : Pipe → Pipe) :
    (w.changePipe stream f).supervisor = w.supervisor := rfl

theorem changePipe_later (w : World τ) (stream : OutputStream) {f : Pipe → Pipe}
    (written : (w.pipe stream).written <+: (f (w.pipe stream)).written)
    (closed : (w.pipe stream).closed = true → (f (w.pipe stream)).closed = true) :
    w.Later (w.changePipe stream f) := by
  refine ⟨rfl, Nat.le_refl _, fun _ h => h, fun other => ?_, fun other h => ?_, fun _ h => h, id, id⟩
  · rw [changePipe_pipe]
    split
    · rename_i heq
      exact heq ▸ written
    · exact List.prefix_refl _
  · rw [changePipe_pipe]
    split
    · rename_i heq
      subst heq
      exact closed h
    · exact h

theorem changePipe_read (w : World τ) (stream : OutputStream) {f : Pipe → Pipe}
    (le : (w.pipe stream).read ≤ (f (w.pipe stream)).read) (other : OutputStream) :
    (w.pipe other).read ≤ ((w.changePipe stream f).pipe other).read := by
  rw [changePipe_pipe]
  split
  · rename_i heq
    exact heq ▸ le
  · exact Nat.le_refl _

/-! ## Moves -/

/-- The child is there only when the launch has succeeded. -/
def Timed (w : World τ) : Prop :=
  w.supervisor.stage = .launching → w.since = none

theorem step_later (timed : w.Timed) (m : Move) : w.Later (w.step m) := by
  have hsame : w.Later w := .refl w
  cases m with
  | launched pid =>
      simp only [step]
      split
      · rename_i hlaunching
        have hsince : w.Later { w with since := some w.now } :=
          { Later.refl w with since := fun _ h => by rw [timed hlaunching] at h; cases h }
        exact hsince.trans (tell_later _ _)
      · exact hsame
  | refused error =>
      simp only [step]
      split
      · exact tell_later w _
      · exact hsame
  | write stream bytes =>
      simp only [step]
      split
      · exact hsame
      · exact changePipe_later w stream (List.prefix_append _ _) id
  | close stream =>
      exact changePipe_later w stream (f := fun p => { p with closed := true }) (List.prefix_refl _)
        fun _ => rfl
  | exit status =>
      simp only [step]
      split
      · exact hsame
      · rename_i hnone
        have hstatus : w.status = none := by simpa using hnone
        exact { hsame with status := fun _ h => by rw [hstatus] at h; cases h }
  | feed =>
      simp only [step]
      split
      · have hfed : w.Later { w with fed := true } := { hsame with fed := fun _ => rfl }
        exact hfed.trans (tell_later _ _)
      · exact hsame
  | spurn =>
      simp only [step]
      split
      · exact tell_later w _
      · exact hsame
  | read stream count =>
      simp only [step]
      split
      · exact (changePipe_later w stream (List.prefix_refl _) id).trans (tell_later _ _)
      · exact hsame
  | exhaust stream =>
      simp only [step]
      split
      · exact (changePipe_later w stream (List.prefix_refl _) id).trans (tell_later _ _)
      · exact hsame
  | notice =>
      simp only [step]
      split
      · split
        · have hnoticed : w.Later { w with noticed := true } :=
            .of_eq rfl rfl rfl rfl rfl rfl id
          exact hnoticed.trans (tell_later _ _)
        · exact hsame
      · exact hsame
  | cancel => exact .of_eq rfl rfl rfl rfl rfl rfl id
  | next n =>
      simp only [step]
      split
      · split
        · have hspent : w.Later { w with due := w.due.eraseIdx n } :=
            .of_eq rfl rfl rfl rfl rfl rfl id
          exact hspent.trans (tell_later _ _)
        · exact hsame
      · exact hsame
  | tick =>
      simp only [step]
      split
      · exact { hsame with now := Nat.le_succ _ }
      · exact hsame

/-! ## What is learned -/

/-- The child has gone on, or the supervisor has learned more about it. -/
structure Informed (w w' : World τ) : Prop where
  learned : Learned w.supervisor w'.supervisor
  now : w'.now = w.now
  due : w'.due = w.due
  tokens : w'.tokens = w.tokens
  launches : w'.launches = w.launches
  since : w'.since = w.since
  killed : w'.killed = w.killed
  results : w'.results = w.results
  read : ∀ stream, (w.pipe stream).read ≤ (w'.pipe stream).read
  later : w.Later w'
  mirrors : w'.Mirrors

/-- The supervisor takes account of what it has learned. -/
def progressed (w : World τ) : World τ :=
  w.adopt w.supervisor.progress

/-- What a move can do while the child is looked after. -/
inductive Steps (w : World τ) : Move → World τ → Prop
  | informed (m : Move) (w' : World τ) (informed : w.Informed w')
    (drained : w'.supervisor.isDrained = w.supervisor.isDrained)
    (status : w'.supervisor.status = w.supervisor.status) : Steps w m w'
  | progressed (m : Move) (w' : World τ) (informed : w.Informed w') : Steps w m w'.progressed
  | cancel : Steps w .cancel w.cancel
  | next (n : Nat) (x : Nat × Event) (found : w.due[n]? = some x) (reached : x.1 ≤ w.now) :
    Steps w (.next n) ({ w with due := w.due.eraseIdx n }.tell x.2)
  | tick (settled : w.isSettled = true) : Steps w .tick { w with now := w.now + 1 }

theorem Mirrors.informed (h : w.Mirrors) : w.Informed w :=
  ⟨.refl _, rfl, rfl, rfl, rfl, rfl, rfl, rfl, fun _ => Nat.le_refl _, .refl w, h⟩

/-- One pipe has changed, and what the supervisor knows of it. -/
theorem Mirrors.change (h : w.Mirrors) (stream : OutputStream) {f : Pipe → Pipe} {s : Supervisor τ}
    (learned : Learned w.supervisor s) (fed : s.fed = w.supervisor.fed)
    (status : s.status = w.supervisor.status)
    (output : ∀ other, s.output other =
      if other = stream then (f (w.pipe stream)).written.take (f (w.pipe stream)).read
      else w.supervisor.output other)
    (closed : ∀ other, s.isClosed other =
      if other = stream then (f (w.pipe stream)).ended else w.supervisor.isClosed other)
    (sound : (f (w.pipe stream)).Sound) (read : (w.pipe stream).read ≤ (f (w.pipe stream)).read)
    (later : w.Later (w.changePipe stream f)) :
    w.Informed { w.changePipe stream f with supervisor := s } where
  learned := learned
  now := rfl
  due := rfl
  tokens := rfl
  launches := rfl
  since := rfl
  killed := rfl
  results := rfl
  read := changePipe_read w stream read
  later := later.trans (.of_eq learned.invocation rfl rfl rfl rfl rfl id)
  mirrors := {
    pipes other := by
      rw [changePipe_pipe]
      split
      · rename_i heq
        exact heq ▸ sound
      · exact h.pipes other
    output other := by
      rw [output, changePipe_pipe]
      split
      · rename_i heq
        rw [heq]
      · exact h.output other
    closed other := by
      rw [closed, changePipe_pipe]
      split
      · rename_i heq
        rw [heq]
      · exact h.closed other
    fed := fed.trans h.fed
    status := status.trans h.status
    noticed := h.noticed }

/-! ## The child -/

theorem Mirrors.write (h : w.Mirrors) {stream : OutputStream} (writable : (w.pipe stream).closed = false)
    (bytes : List UInt8) :
    w.Informed (w.changePipe stream fun p => { p with written := p.written ++ bytes }) := by
  have hpipe := h.pipes stream
  have hlater : w.Later (w.changePipe stream fun p => { p with written := p.written ++ bytes }) :=
    changePipe_later w stream (List.prefix_append _ _) id
  refine h.change stream (.refl _) rfl rfl (fun other => ?_) (fun other => ?_) ⟨?_, fun hended => ?_⟩
    (Nat.le_refl _) hlater
  · split
    · rename_i heq
      rw [heq, h.output, List.take_append_of_le_length hpipe.read]
    · rfl
  · split
    · rename_i heq
      rw [heq, h.closed]
    · rfl
  · rw [List.length_append]
    exact Nat.le_add_right_of_le hpipe.read
  · have hclosed := (hpipe.ended hended).1
    rw [writable] at hclosed
    cases hclosed

theorem Mirrors.close (h : w.Mirrors) (stream : OutputStream) :
    w.Informed (w.changePipe stream fun p => { p with closed := true }) := by
  have hpipe := h.pipes stream
  have hlater : w.Later (w.changePipe stream fun p => { p with closed := true }) :=
    changePipe_later w stream (List.prefix_refl _) fun _ => rfl
  refine h.change stream (.refl _) rfl rfl (fun other => ?_) (fun other => ?_)
    ⟨hpipe.read, fun hended => ⟨rfl, (hpipe.ended hended).2⟩⟩ (Nat.le_refl _) hlater
  · split
    · rename_i heq
      rw [heq, h.output]
    · rfl
  · split
    · rename_i heq
      rw [heq, h.closed]
    · rfl

theorem Mirrors.exit (h : w.Mirrors) (running : w.status = none) (status : Int) :
    w.Informed { w with status := some status } := by
  have hnoticed : w.noticed = false := Bool.eq_false_iff.2 fun hnoticed => by
    have hstatus := h.noticed hnoticed
    rw [running] at hstatus
    cases hstatus
  have hlater : w.Later { w with status := some status } :=
    { Later.refl w with status := fun _ h => by rw [running] at h; cases h }
  refine { h.informed with later := hlater, mirrors := { h with status := ?_, noticed := fun _ => rfl } }
  rw [h.status, hnoticed]
  rfl

/-! ## Its supervisor -/

theorem Mirrors.read (h : w.Mirrors) {stream : OutputStream} {bytes : List UInt8}
    (found : bytes <+: (w.pipe stream).written.drop (w.pipe stream).read) :
    w.Informed { w.changePipe stream fun p => { p with read := p.read + bytes.length } with
      supervisor := w.supervisor.wrote stream bytes } := by
  have hpipe := h.pipes stream
  have hread := hpipe.read
  have hlength := found.length_le
  rw [List.length_drop] at hlength
  have hlater : w.Later (w.changePipe stream fun p => { p with read := p.read + bytes.length }) :=
    changePipe_later w stream (List.prefix_refl _) id
  refine h.change stream (wrote_learned _ _ _) ?_ ?_ (fun other => ?_) (fun other => ?_)
    ⟨?_, fun hended => ?_⟩ (Nat.le_add_right _ _) hlater
  · cases stream <;> rfl
  · cases stream <;> rfl
  · rw [output_wrote]
    split
    · rename_i heq
      rw [heq, h.output, List.take_add, ← List.prefix_iff_eq_take.1 found]
    · rfl
  · split
    · rename_i heq
      rw [heq, ← h.closed]
      cases stream <;> rfl
    · cases stream <;> rfl
  · change (w.pipe stream).read + bytes.length ≤ (w.pipe stream).written.length
    omega
  · have hall := (hpipe.ended hended).2
    refine ⟨(hpipe.ended hended).1, ?_⟩
    change (w.pipe stream).read + bytes.length = (w.pipe stream).written.length
    omega

theorem Mirrors.exhaust (h : w.Mirrors) {stream : OutputStream} (closed : (w.pipe stream).closed = true)
    (read : (w.pipe stream).read = (w.pipe stream).written.length) :
    w.Informed { w.changePipe stream fun p => { p with ended := true } with
      supervisor := w.supervisor.shut stream } := by
  have hpipe := h.pipes stream
  have hlater : w.Later (w.changePipe stream fun p => { p with ended := true }) :=
    changePipe_later w stream (List.prefix_refl _) id
  refine h.change stream (shut_learned _ _) ?_ ?_ (fun other => ?_) (isClosed_shut _ _)
    ⟨hpipe.read, fun _ => ⟨closed, read⟩⟩ (Nat.le_refl _) hlater
  · cases stream <;> rfl
  · cases stream <;> rfl
  · split
    · rename_i heq
      rw [← h.output, heq]
      cases stream <;> rfl
    · cases stream <;> rfl

theorem Mirrors.feed (h : w.Mirrors) :
    w.Informed { w with fed := true, supervisor := { w.supervisor with fed := true } } where
  learned := fed_learned _
  now := rfl
  due := rfl
  tokens := rfl
  launches := rfl
  since := rfl
  killed := rfl
  results := rfl
  read _ := Nat.le_refl _
  later := { Later.refl w with fed := fun _ => rfl }
  mirrors := { h with fed := rfl }

theorem Mirrors.notice (h : w.Mirrors) {status : Int} (exited : w.status = some status) :
    w.Informed { w with noticed := true, supervisor := { w.supervisor with status := some status } } where
  learned := exited_learned _ _
  now := rfl
  due := rfl
  tokens := rfl
  launches := rfl
  since := rfl
  killed := rfl
  results := rfl
  read _ := Nat.le_refl _
  later := .of_eq rfl rfl rfl rfl rfl rfl id
  mirrors := { h with status := exited.symm, noticed := fun _ => by rw [exited]; rfl }

theorem adopt_of_calm (w : World τ) {s : Supervisor τ} (calm : s.outbox = []) :
    w.adopt s = { w with supervisor := s } := by
  unfold adopt
  rw [calm, List.foldl_nil, ← calm]

theorem step_steps (attentive : w.isAttentive = true) (calm : w.supervisor.outbox = [])
    (h : w.Mirrors) (m : Move) : w.Steps m (w.step m) := by
  have hsame : w.Steps m w := .informed m w h.informed rfl rfl
  have hnot : w.supervisor.stage ≠ .launching := by
    intro heq
    rw [isAttentive, heq] at attentive
    cases attentive
  cases m with
  | launched pid =>
      simp only [step, if_neg hnot]
      exact hsame
  | refused error =>
      simp only [step, if_neg hnot]
      exact hsame
  | write stream bytes =>
      simp only [step]
      split
      · exact hsame
      · rename_i hopen
        exact .informed _ _ (h.write (Bool.eq_false_iff.2 hopen) bytes) rfl rfl
  | close stream => exact .informed _ _ (h.close stream) rfl rfl
  | exit status =>
      simp only [step]
      split
      · exact hsame
      · rename_i hrunning
        exact .informed _ _ (h.exit (by simpa using hrunning) status) rfl rfl
  | feed =>
      simp only [step]
      split
      · simp only [tell, step_fed attentive]
        exact .progressed _ _ h.feed
      · exact hsame
  | spurn =>
      simp only [step]
      split
      · have hlogged : w.tell .spurned = w := by
          unfold tell adopt
          rw [step_spurned attentive]
          simp only [log, emit, calm, List.nil_append, List.foldl_cons, List.foldl_nil, serve]
          rw [← calm]
        rw [hlogged]
        exact hsame
      · exact hsame
  | read stream count =>
      simp only [step, if_pos attentive]
      have hread := h.read (List.take_prefix count ((w.pipe stream).written.drop (w.pipe stream).read))
      unfold tell
      rw [changePipe_supervisor, step_wrote attentive, adopt_of_calm _ (hread.learned.outbox.trans calm)]
      exact .informed _ _ hread (by cases stream <;> rfl) (by cases stream <;> rfl)
  | exhaust stream =>
      simp only [step]
      split
      · rename_i hguard
        simp only [Bool.and_eq_true, beq_iff_eq] at hguard
        unfold tell
        rw [changePipe_supervisor, step_closed attentive]
        exact .progressed _ _ (h.exhaust hguard.1.1.2 hguard.1.2)
      · exact hsame
  | notice =>
      simp only [step]
      split
      · rename_i status hstatus
        split
        · unfold tell
          rw [step_exited attentive]
          exact .progressed _ _ (h.notice hstatus)
        · exact hsame
      · exact hsame
  | cancel => exact .cancel
  | next n =>
      simp only [step]
      split
      · rename_i time e hfound
        split
        · rename_i hreached
          exact .next n (time, e) hfound hreached
        · exact hsame
      · exact hsame
  | tick =>
      simp only [step]
      split
      · rename_i hsettled
        exact .tick hsettled
      · exact hsame

end World

end Shellwright.Supervisor
