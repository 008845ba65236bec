import Shellwright.Proofs.Cancellation.Apart
import Shellwright.Proofs.Execution.Launching
/-!
# Listening to a shared token

A supervisor listens to a token that others use as well: they cancel it, follow it, listen to it and stop
listening while the child runs. Whatever they do, and however the run ends, the listener of the supervisor
is gone in the end and theirs are as if it had never been there.
-/

namespace Shellwright.Supervisor

open Cancellation

/-! ## What a step can do -/

/-- It concerns the token, the life of the child or the end of the run. -/
def Effect.isGrave : Effect → Bool
  | .listen | .unlisten | .kill | .finish _ | .stop _ => true
  | _ => false

/-- The run ends with it. -/
def Effect.isLast : Effect → Bool
  | .finish _ | .stop _ => true
  | _ => false

theorem Effect.isGrave_of_isLast {e : Effect} (h : e.isLast = true) : e.isGrave = true := by
  cases e <;> first | rfl | cases h

/-- What becomes of a child that is being killed, or has been killed. -/
inductive Ends : Cause → List Effect → Stage → Prop
  | killing (cause : Cause) : Ends cause [] (.killing cause)
  | draining (cause : Cause) : Ends cause [] (.draining cause)
  | finished {cause : Cause} (awaited : cause ≠ .aborted) (result : Execution) :
      Ends cause [.finish result] .ended
  | aborted : Ends .aborted [.unlisten, .stop .aborted] .ended

/-- The grave effects of a step, and the stage that it leads to. -/
inductive Passage : Stage → List Effect → Stage → Prop
  | rests (stage : Stage) : Passage stage [] stage
  | refused (result : Execution) : Passage .launching [.finish result] .ended
  | abandoned : Passage .launching [.stop .aborted] .ended
  | begins : Passage .launching [.listen] .supervising
  | immeasurable : Passage .launching [.listen, .stop (.crashed .immeasurable)] .ended
  | unwritable : Passage .launching [.listen, .unlisten, .stop (.crashed .unwritable)] .ended
  | completes (result : Execution) : Passage .supervising [.unlisten, .finish result] .ended
  | stopped {cause : Cause} {effects : List Effect} {stage : Stage} (awaited : cause ≠ .aborted)
      (ends : Ends cause effects stage) : Passage .supervising (.unlisten :: .kill :: effects) stage
  | aborts {effects : List Effect} {stage : Stage} (ends : Ends .aborted effects stage) :
      Passage .supervising (.kill :: effects) stage
  | goesOn {cause : Cause} {before stage : Stage} {effects : List Effect}
      (stopping : before = .killing cause ∨ before = .draining cause)
      (ends : Ends cause effects stage) : Passage before effects stage
  | leaves {cause : Cause} {before : Stage} (awaited : cause ≠ .aborted)
      (stopping : before = .killing cause ∨ before = .draining cause) :
      Passage before [.stop .aborted] .ended

variable {τ : Type} {s : Supervisor τ} {cause : Cause}

/-- The grave effects that are still to be seen to. -/
def graves (s : Supervisor τ) : List Effect :=
  s.outbox.filter Effect.isGrave

theorem mem_graves {e : Effect} : e ∈ s.graves ↔ e ∈ s.outbox ∧ e.isGrave = true :=
  List.mem_filter

theorem graves_emit (s : Supervisor τ) {e : Effect} (grave : e.isGrave = true) :
    (s.emit e).graves = s.graves ++ [e] := by
  unfold graves emit
  rw [List.filter_append, List.filter_cons_of_pos grave, List.filter_nil]

theorem graves_emit_light (s : Supervisor τ) {e : Effect} (light : e.isGrave = false) :
    (s.emit e).graves = s.graves := by
  unfold graves emit
  rw [List.filter_append, List.filter_cons_of_neg (by rw [light]; exact Bool.false_ne_true),
    List.filter_nil, List.append_nil]

@[simp] theorem graves_stage (s : Supervisor τ) (stage : Stage) :
    ({ s with stage := stage } : Supervisor τ).graves = s.graves := rfl

@[simp] theorem graves_log (s : Supervisor τ) (level : LogLevel) (text : String) :
    (s.log level text).graves = s.graves :=
  graves_emit_light s rfl

@[simp] theorem stage_emit (s : Supervisor τ) (e : Effect) : (s.emit e).stage = s.stage := rfl

@[simp] theorem stage_log (s : Supervisor τ) (level : LogLevel) (text : String) :
    (s.log level text).stage = s.stage := rfl

theorem graves_halt (s : Supervisor τ) (stop : Stop) :
    (s.halt stop).graves = s.graves ++ [.stop stop] :=
  graves_emit _ rfl

theorem graves_finish (s : Supervisor τ) (ending : Ending) :
    ∃ result, (s.finish ending).graves = s.graves ++ [.finish result] :=
  ⟨_, graves_emit _ rfl⟩

theorem finish_ends (awaited : cause ≠ .aborted) (s : Supervisor τ) (level : LogLevel) (text : String)
    (ending : Ending) : ∃ effects, ((s.log level text).finish ending).graves = s.graves ++ effects ∧
      Ends cause effects ((s.log level text).finish ending).stage := by
  obtain ⟨result, hresult⟩ := graves_finish (s.log level text) ending
  exact ⟨_, hresult.trans (congrArg (· ++ _) (graves_log s level text)), .finished awaited result⟩

theorem conclude_ends (s : Supervisor τ) (cause : Cause) :
    ∃ effects, (s.conclude cause).graves = s.graves ++ effects ∧
      Ends cause effects (s.conclude cause).stage := by
  cases cause with
  | aborted =>
      refine ⟨_, ?_, .aborted⟩
      change ((s.emit .unlisten).halt .aborted).graves = _
      rw [graves_halt, graves_emit s rfl, List.append_assoc]
      rfl
  | cancelled => exact finish_ends (by decide) s _ _ _
  | timedOut => exact finish_ends (by decide) s _ _ _

theorem drain_ends (s : Supervisor τ) (cause : Cause) :
    ∃ effects, (s.drain cause).graves = s.graves ++ effects ∧ Ends cause effects (s.drain cause).stage := by
  unfold drain
  split
  · exact conclude_ends s cause
  · refine ⟨[], ?_, .draining cause⟩
    rw [graves_emit_light _ rfl, List.append_nil]
    rfl

/-- The child is killed before anything else. -/
theorem terminate_ends (s : Supervisor τ) (cause : Cause) :
    ∃ effects, (s.terminate cause).graves = s.graves ++ .kill :: effects ∧
      Ends cause effects (s.terminate cause).stage := by
  have hkill : (s.emit .kill).graves = s.graves ++ [.kill] := graves_emit s rfl
  unfold terminate
  simp only
  split
  · obtain ⟨effects, hgraves, hends⟩ := drain_ends (s.emit .kill) cause
    refine ⟨effects, ?_, hends⟩
    rw [hgraves, hkill, List.append_assoc]
    rfl
  · refine ⟨[], ?_, .killing cause⟩
    rw [graves_emit_light _ rfl]
    exact hkill

theorem progress_passage (calm : s.graves = []) : Passage s.stage s.progress.graves s.progress.stage := by
  have hrests : Passage s.stage s.graves s.stage := by
    rw [calm]
    exact .rests _
  unfold progress
  split
  · split
    · rw [graves_emit_light _ rfl]
      exact hrests
    · exact hrests
  · rename_i cause hstage
    split
    · obtain ⟨effects, hgraves, hends⟩ := drain_ends s cause
      rw [hgraves, calm]
      exact .goesOn (.inl hstage) hends
    · exact hrests
  · rename_i cause hstage
    split
    · obtain ⟨effects, hgraves, hends⟩ := conclude_ends s cause
      rw [hgraves, calm]
      exact .goesOn (.inr hstage) hends
    · exact hrests
  · exact hrests

theorem launched_passage (calm : s.graves = []) (pid : Nat) :
    Passage .launching (s.launched pid).graves (s.launched pid).stage := by
  have hlisten : ({ s with stage := .supervising, pid := pid }.emit .listen).graves = [.listen] := by
    rw [graves_emit _ rfl]
    exact congrArg (· ++ [_]) calm
  cases hcrash : s.crash? with
  | some crash =>
      rw [launched_crashed hcrash]
      cases crash with
      | immeasurable =>
          rw [Supervisor.crash, graves_halt, hlisten]
          exact .immeasurable
      | unwritable =>
          rw [Supervisor.crash, graves_halt, graves_emit _ rfl, hlisten]
          exact .unwritable
  | none =>
      cases htimeout : s.invocation.options.timeout with
      | none =>
          rw [launched_unlimited hcrash htimeout, hlisten]
          exact .begins
      | some limit =>
          rw [launched_limited hcrash htimeout, graves_emit_light _ rfl, hlisten]
          exact .begins

theorem refused_passage (calm : s.graves = []) (error : SystemError) :
    Passage .launching (s.refused error).graves (s.refused error).stage := by
  obtain ⟨result, hresult⟩ := graves_finish (s.log .debug _)
    (.failed (Failure.ofSystemError s.invocation.command.program error))
  unfold refused
  simp only
  rw [hresult, graves_log, calm]
  exact .refused result

theorem wake_passage (calm : s.graves = []) : Passage .supervising s.wake.graves s.wake.stage := by
  have hunlisten : (s.emit .unlisten).graves = [.unlisten] := by
    rw [graves_emit s rfl, calm]
    rfl
  unfold wake
  simp only
  split
  · rename_i status _ _
    obtain ⟨result, hresult⟩ := graves_finish ((s.emit .unlisten).log .debug _) (.exited status)
    rw [hresult, graves_log, hunlisten]
    exact .completes result
  · obtain ⟨effects, hgraves, hends⟩ := terminate_ends (s.emit .unlisten)
      (if (s.emit .unlisten).cancelled then .cancelled else .timedOut)
    rw [hgraves, hunlisten]
    refine .stopped ?_ hends
    split <;> exact nofun

theorem abort_passage (calm : s.graves = []) (alive : s.stage ≠ .ended) :
    Passage s.stage s.abort.graves s.abort.stage := by
  have hhalt : (s.halt .aborted).graves = [.stop .aborted] := by
    rw [graves_halt, calm]
    rfl
  unfold abort
  split
  · rename_i hstage
    obtain ⟨effects, hgraves, hends⟩ := terminate_ends s .aborted
    rw [hstage, hgraves, calm]
    exact .aborts hends
  · rename_i hstage
    obtain ⟨effects, hgraves, hends⟩ := conclude_ends s .aborted
    rw [hgraves, calm]
    exact .goesOn (.inl hstage) hends
  · rename_i hstage
    obtain ⟨effects, hgraves, hends⟩ := conclude_ends s .aborted
    rw [hgraves, calm]
    exact .goesOn (.inr hstage) hends
  · rename_i hsupervising hkilling hdraining
    rw [hhalt]
    cases hstage : s.stage with
    | launching => exact .abandoned
    | supervising => exact absurd hstage hsupervising
    | killing cause =>
        have hawaited : cause ≠ .aborted := by
          rintro rfl
          exact hkilling hstage
        exact .leaves hawaited (.inl rfl)
    | draining cause =>
        have hawaited : cause ≠ .aborted := by
          rintro rfl
          exact hdraining hstage
        exact .leaves hawaited (.inr rfl)
    | ended => exact absurd hstage alive

theorem step_passage (calm : s.graves = []) (e : Event) :
    Passage s.stage (s.step e).graves (s.step e).stage := by
  have hrests : Passage s.stage s.graves s.stage := by
    rw [calm]
    exact .rests _
  have hlater : ∀ s' : Supervisor τ, s'.graves = s.graves → s'.stage = s.stage →
      ∀ e : Event, Passage s.stage (s'.emit (.later e)).graves (s'.emit (.later e)).stage := by
    intro s' hgraves hstage e
    rw [graves_emit_light _ rfl, hgraves, stage_emit, hstage]
    exact hrests
  have hprogress : ∀ s' : Supervisor τ, s'.graves = s.graves → s'.stage = s.stage →
      Passage s.stage s'.progress.graves s'.progress.stage := by
    intro s' hgraves hstage
    rw [← hstage]
    exact progress_passage (hgraves.trans calm)
  unfold step
  split
  · exact hrests
  · rename_i alive
    exact abort_passage calm alive
  · rename_i hstage
    rw [hstage]
    exact launched_passage calm _
  · rename_i hstage
    rw [hstage]
    exact refused_passage calm _
  · exact hrests
  · rename_i stream bytes _ _
    cases stream <;> exact hrests
  · rename_i stream _ _
    cases stream <;> exact hprogress _ rfl rfl
  · exact hprogress _ rfl rfl
  · rw [graves_log, stage_log]
    exact hrests
  · exact hprogress _ rfl rfl
  · exact hlater _ rfl rfl _
  · exact hlater _ rfl rfl _
  · exact hlater _ rfl rfl _
  · rename_i hstage
    rw [hstage]
    exact wake_passage calm
  · split
    · rename_i cause
      split
      · rename_i hstage
        obtain ⟨effects, hgraves, hends⟩ := drain_ends
          (s.log .warning s!"process {s.pid} did not exit after kill") cause
        rw [hgraves, graves_log, calm]
        exact .goesOn (.inl hstage) hends
      · exact hrests
    · rename_i cause
      split
      · rename_i hstage
        obtain ⟨effects, hgraves, hends⟩ := conclude_ends s cause
        rw [hgraves, calm]
        exact .goesOn (.inr hstage) hends
      · exact hrests
    · exact hrests
  · exact hrests

theorem start_passage (invocation : Invocation τ) (cancelled : Bool) :
    Passage .launching (start invocation cancelled).graves (start invocation cancelled).stage := by
  unfold start
  simp only
  split
  · obtain ⟨result, hresult⟩ := graves_finish
      (({ invocation := invocation } : Supervisor τ).log .debug _) _
    rw [hresult]
    exact .refused result
  · rw [graves_emit_light _ rfl]
    exact .rests _

/-! ## The token -/

/-- While the supervisor is in this stage its listener may be with the token. -/
def Stage.listens : Stage → Bool
  | .supervising => true
  | .killing cause => cause = .aborted
  | .draining cause => cause = .aborted
  | _ => false

variable {σ ω : Type} [DecidableEq σ] [DecidableEq ω] {place : Option σ} {own : ω} {l l' : Ledger σ ω}
  {before after : Stage} {effects : List Effect}

/-- What an effect does to the tokens, where `place` is the source that is listened to. -/
def heard (place : Option σ) (own : ω) (l : Ledger σ ω) (e : Effect) : Ledger σ ω :=
  match e, place with
  | .listen, some id => l.after (.registers id own)
  | .unlisten, some id => l.after (.withdraws id own)
  | _, _ => l

theorem heard_of_light {e : Effect} (light : e.isGrave = false) : heard place own l e = l := by
  cases e <;> first | rfl | cases light

theorem foldl_heard (place : Option σ) (own : ω) (effects : List Effect) (l : Ledger σ ω) :
    effects.foldl (heard place own) l = (effects.filter Effect.isGrave).foldl (heard place own) l := by
  induction effects generalizing l with
  | nil => rfl
  | cons e rest ih =>
      cases hgrave : e.isGrave with
      | true => rw [List.filter_cons_of_pos hgrave, List.foldl_cons, List.foldl_cons, ih]
      | false =>
          rw [List.filter_cons_of_neg (by rw [hgrave]; exact Bool.false_ne_true), List.foldl_cons,
            heard_of_light hgrave, ih]

theorem heard_listen (apart : Ledger.Apart own none l l') (unheard : l.Unheard own) :
    Ledger.Apart own place (heard place own l .listen) l' := by
  cases place with
  | none => exact apart
  | some id => exact apart.registers unheard id

theorem heard_unlisten (apart : Ledger.Apart own place l l') :
    Ledger.Apart own none (heard place own l .unlisten) l' := by
  cases place with
  | none => exact apart
  | some id => exact apart.withdraws

theorem listens_killing (awaited : cause ≠ .aborted) : (Stage.killing cause).listens = false :=
  decide_eq_false awaited

/-- The stages of a child that is being stopped are alike. -/
theorem Ends.apart (h : Ends cause effects after)
    (apart : Ledger.Apart own (if (Stage.killing cause).listens then place else none) l l') :
    Ledger.Apart own (if after.listens then place else none) (effects.foldl (heard place own) l) l' := by
  cases h with
  | killing => exact apart
  | draining => exact apart
  | finished awaited result =>
      rw [listens_killing awaited] at apart
      exact apart
  | aborted => exact heard_unlisten apart

theorem Passage.apart (h : Passage before effects after)
    (apart : Ledger.Apart own (if before.listens then place else none) l l')
    (unheard : before = .launching → l.Unheard own)
    (measured : .stop (.crashed .immeasurable) ∉ effects) :
    Ledger.Apart own (if after.listens then place else none) (effects.foldl (heard place own) l) l' := by
  cases h with
  | rests => exact apart
  | refused result => exact apart
  | abandoned => exact apart
  | begins => exact heard_listen apart (unheard rfl)
  | immeasurable => simp at measured
  | unwritable => exact heard_unlisten (heard_listen apart (unheard rfl))
  | completes result => exact heard_unlisten apart
  | stopped awaited ends =>
      refine ends.apart ?_
      rw [listens_killing awaited]
      exact heard_unlisten apart
  | aborts ends => exact ends.apart apart
  | goesOn stopping ends =>
      refine ends.apart ?_
      rcases stopping with rfl | rfl <;> exact apart
  | leaves awaited stopping =>
      rcases stopping with rfl | rfl
      · rw [listens_killing awaited] at apart
        exact apart
      · rw [Stage.listens, decide_eq_false awaited] at apart
        exact apart

/-! ## The order of things -/

/-- The child has been killed by this stage. -/
def Stage.isKilled : Stage → Bool
  | .killing _ | .draining _ => true
  | _ => false

theorem isKilled_of_stopping (stopping : before = .killing cause ∨ before = .draining cause) :
    before.isKilled = true := by
  rcases stopping with rfl | rfl <;> rfl

theorem Passage.killed (h : Passage before effects after) (killed : after.isKilled = true) :
    before.isKilled = true ∨ .kill ∈ effects := by
  cases h with
  | rests => exact .inl killed
  | stopped awaited ends => exact .inr (by simp)
  | aborts ends => exact .inr (by simp)
  | goesOn stopping ends => exact .inl (isKilled_of_stopping stopping)
  | _ => cases killed

theorem Ends.alive (h : Ends cause effects after) (alive : after ≠ .ended) : effects = [] := by
  cases h with
  | killing => rfl
  | draining => rfl
  | finished => exact absurd rfl alive
  | aborted => exact absurd rfl alive

/-- Who goes on has not come to an end. -/
theorem Passage.alive (h : Passage before effects after) (alive : after ≠ .ended) :
    ∀ e ∈ effects, e.isLast = false := by
  cases h with
  | rests => exact List.forall_mem_nil _
  | begins => simp [Effect.isLast]
  | stopped awaited ends => simp [ends.alive alive, Effect.isLast]
  | aborts ends => simp [ends.alive alive, Effect.isLast]
  | goesOn stopping ends => simp [ends.alive alive]
  | _ => exact absurd rfl alive

theorem Passage.of_ended (h : Passage .ended effects after) : effects = [] ∧ after = .ended := by
  cases h with
  | rests => exact ⟨rfl, rfl⟩
  | goesOn stopping => rcases stopping with h | h <;> cases h
  | leaves awaited stopping => rcases stopping with h | h <;> cases h

theorem Passage.launching (h : Passage before effects .launching) : before = .launching ∧ effects = [] := by
  cases h with
  | rests => exact ⟨rfl, rfl⟩
  | stopped awaited ends => cases ends
  | aborts ends => cases ends
  | goesOn stopping ends => cases ends

/-- Who gives up waiting has killed the child before, if there was one. -/
theorem Passage.kills (h : Passage before effects after) {first rest : List Effect}
    (split : effects = first ++ .stop .aborted :: rest) :
    (before = .launching ∧ first = []) ∨ before.isKilled = true ∨ .kill ∈ first := by
  have hstops : .stop .aborted ∈ effects := by simp [split]
  cases h with
  | rests => cases hstops
  | refused => simp at hstops
  | abandoned =>
      refine .inl ⟨rfl, ?_⟩
      cases first with
      | nil => rfl
      | cons e others => simp at split
  | begins => simp at hstops
  | immeasurable => simp at hstops
  | unwritable => simp at hstops
  | completes => simp at hstops
  | stopped awaited ends =>
      cases ends with
      | aborted => exact absurd rfl awaited
      | _ => simp at hstops
  | aborts ends =>
      cases first with
      | nil => cases split
      | cons e others =>
          obtain ⟨rfl, -⟩ := List.cons.inj split
          exact .inr (.inr List.mem_cons_self)
  | goesOn stopping ends => exact .inr (.inl (isKilled_of_stopping stopping))
  | leaves awaited stopping => exact .inr (.inl (isKilled_of_stopping stopping))

/-! ## Among others -/

/-- A supervisor among others who use the same tokens. -/
structure Company (σ ω : Type) where
  supervisor : Supervisor (Followed σ)
  /-- The callback by which the supervisor hears of cancellation. -/
  own : ω
  tokens : Ledger σ ω
  /-- All that the supervisor has had done, in order. -/
  served : List Effect := []

/-- Something happens to the supervisor, or somebody does something to the tokens. -/
inductive Happening (σ ω : Type)
  | event (e : Event)
  | deed (d : Deed σ ω)

namespace Company

/-- The source whose token the run was given. -/
def sourceOf (invocation : Invocation (Followed σ)) : Option σ :=
  Tokens.Followed.source? invocation.options.token

/-- The supervisor has taken a step, and what it wants done is done. -/
def adopt (c : Company σ ω) (s : Supervisor (Followed σ)) : Company σ ω :=
  { c with
    supervisor := { s with outbox := [] }
    tokens := s.outbox.foldl (heard (sourceOf s.invocation) c.own) c.tokens
    served := c.served ++ s.outbox }

/-- A command is to be run, with a token that others may have cancelled already. -/
def start (invocation : Invocation (Followed σ)) (own : ω) (tokens : Ledger σ ω) : Company σ ω :=
  let s := Supervisor.start invocation ((sourceOf invocation).any tokens.isCancelled)
  { supervisor := s, own := own, tokens := tokens : Company σ ω }.adopt s

def step (c : Company σ ω) : Happening σ ω → Company σ ω
  | .event e => c.adopt (c.supervisor.step e)
  | .deed d => { c with tokens := c.tokens.after d }

def run (c : Company σ ω) (happenings : List (Happening σ ω)) : Company σ ω :=
  happenings.foldl step c

/-- What the others do to the tokens where nothing is run. -/
def alone (tokens : Ledger σ ω) (happenings : List (Happening σ ω)) : Ledger σ ω :=
  happenings.foldl (fun l h => match h with
    | .event _ => l
    | .deed d => l.after d) tokens

/-- The run has returned or raised. -/
def HasEnded (c : Company σ ω) : Prop :=
  ∃ e ∈ c.served, e.isLast = true

/-- What holds at any time of a run, where the others alone have come to `l`. -/
structure Keeps (c : Company σ ω) (l : Ledger σ ω) : Prop where
  calm : c.supervisor.outbox = []
  fresh : c.supervisor.stage = .launching → c.tokens.Unheard c.own ∧ .listen ∉ c.served
  apart : .stop (.crashed .immeasurable) ∉ c.served → Ledger.Apart c.own
    (if c.supervisor.stage.listens then sourceOf c.supervisor.invocation else none) c.tokens l
  alive : c.supervisor.stage ≠ .ended → ¬ c.HasEnded
  killed : c.supervisor.stage.isKilled = true → .kill ∈ c.served
  kills : ∀ first rest, c.served = first ++ .stop .aborted :: rest → .listen ∈ first → .kill ∈ first

variable {c : Company σ ω} {l : Ledger σ ω} {s : Supervisor (Followed σ)}

/-- What was done first and what is done now are told apart by the end of the run. -/
theorem split_served {served outbox first rest : List Effect} {e : Effect}
    (h : served ++ outbox = first ++ e :: rest) :
    (∃ others, served = first ++ e :: others) ∨
      ∃ others, first = served ++ others ∧ outbox = others ++ e :: rest := by
  obtain ⟨others, hfirst, houtbox⟩ | ⟨others, hserved, hrest⟩ := List.append_eq_append_iff.1 h
  · exact .inr ⟨others, hfirst, houtbox⟩
  · cases others with
    | nil =>
        rw [List.append_nil] at hserved
        exact .inr ⟨[], by rw [hserved, List.append_nil], hrest.symm⟩
    | cons e' others =>
        obtain ⟨rfl, -⟩ := List.cons.inj hrest
        exact .inl ⟨others, hserved⟩

/-- The supervisor takes a step while nobody else does anything. -/
theorem Keeps.adopt (h : c.Keeps l) (passage : Passage c.supervisor.stage s.graves s.stage)
    (same : s.invocation = c.supervisor.invocation) : (c.adopt s).Keeps l where
  calm := rfl
  fresh hstage := by
    obtain ⟨hlaunching, hgraves⟩ : c.supervisor.stage = .launching ∧ s.graves = [] := by
      have hstage : s.stage = .launching := hstage
      rw [hstage] at passage
      exact passage.launching
    obtain ⟨hunheard, hlisten⟩ := h.fresh hlaunching
    constructor
    · change (s.outbox.foldl _ c.tokens).Unheard c.own
      rw [foldl_heard]
      change (s.graves.foldl _ c.tokens).Unheard c.own
      rw [hgraves]
      exact hunheard
    · intro hmem
      obtain hmem | hmem := List.mem_append.1 hmem
      · exact hlisten hmem
      · have hgrave : .listen ∈ s.graves := mem_graves.2 ⟨hmem, rfl⟩
        rw [hgraves] at hgrave
        cases hgrave
  apart hmeasured := by
    obtain ⟨hserved, houtbox⟩ := not_or.1 (mt List.mem_append.2 hmeasured)
    change Ledger.Apart c.own (if s.stage.listens then sourceOf s.invocation else none)
      (s.outbox.foldl _ c.tokens) l
    rw [same, foldl_heard]
    exact passage.apart (h.apart hserved) (fun hstage => (h.fresh hstage).1)
      fun hmem => houtbox (mem_graves.1 hmem).1
  alive hstage := by
    have hstage : s.stage ≠ .ended := hstage
    have hbefore : c.supervisor.stage ≠ .ended := by
      intro hended
      rw [hended] at passage
      exact hstage passage.of_ended.2
    rintro ⟨e, he, hlast⟩
    obtain he | he := List.mem_append.1 he
    · exact h.alive hbefore ⟨e, he, hlast⟩
    · have hnot := passage.alive hstage e (mem_graves.2 ⟨he, Effect.isGrave_of_isLast hlast⟩)
      rw [hlast] at hnot
      cases hnot
  killed hstage := by
    obtain hkilled | hkill := passage.killed hstage
    · exact List.mem_append_left _ (h.killed hkilled)
    · exact List.mem_append_right _ (mem_graves.1 hkill).1
  kills first rest hsplit hlisten := by
    obtain ⟨others, hserved⟩ | ⟨others, rfl, houtbox⟩ := split_served hsplit
    · exact h.kills first others hserved hlisten
    · have hgraves : s.graves =
          others.filter Effect.isGrave ++ .stop .aborted :: rest.filter Effect.isGrave := by
        rw [graves, houtbox, List.filter_append, List.filter_cons_of_pos rfl]
      obtain ⟨hstage, hnone⟩ | hkilled | hkill := passage.kills hgraves
      · obtain hmem | hmem := List.mem_append.1 hlisten
        · exact absurd hmem (h.fresh hstage).2
        · have hgrave : .listen ∈ others.filter Effect.isGrave := List.mem_filter.2 ⟨hmem, rfl⟩
          rw [hnone] at hgrave
          cases hgrave
      · exact List.mem_append_left _ (h.killed hkilled)
      · exact List.mem_append_right _ (List.mem_of_mem_filter hkill)

/-- Somebody else does something. -/
theorem Keeps.deed (h : c.Keeps l) {d : Deed σ ω} (spares : d.Spares c.own) :
    (c.step (.deed d)).Keeps (l.after d) :=
  { h with
    fresh := fun hstage => ⟨(h.fresh hstage).1.after spares, (h.fresh hstage).2⟩
    apart := fun hmeasured => (h.apart hmeasured).after spares }

theorem Keeps.event (h : c.Keeps l) (e : Event) : (c.step (.event e)).Keeps l := by
  refine h.adopt (step_passage ?_ e) (step_invocation _ e)
  rw [graves, h.calm]
  rfl

theorem keeps_start (invocation : Invocation (Followed σ)) {own : ω} {tokens : Ledger σ ω}
    (unheard : tokens.Unheard own) : (start invocation own tokens).Keeps tokens := by
  have hnothing : Keeps { supervisor := { invocation := invocation }, own := own, tokens := tokens }
      tokens :=
    { calm := rfl
      fresh := fun _ => ⟨unheard, List.not_mem_nil⟩
      apart := fun _ => Ledger.apart_self tokens own
      alive := fun _ ⟨_, he, _⟩ => nomatch he
      killed := nofun
      kills := fun _ _ hsplit => by simp at hsplit }
  refine hnothing.adopt (start_passage invocation _) ?_
  unfold Supervisor.start
  simp only
  split <;> rfl

theorem step_own (c : Company σ ω) (happening : Happening σ ω) : (c.step happening).own = c.own := by
  cases happening <;> rfl

theorem Keeps.run (h : c.Keeps l) {happenings : List (Happening σ ω)}
    (spare : ∀ d, .deed d ∈ happenings → d.Spares c.own) :
    (c.run happenings).Keeps (alone l happenings) := by
  induction happenings generalizing c l with
  | nil => exact h
  | cons happening rest ih =>
      have hrest : ∀ d, .deed d ∈ rest → d.Spares (c.step happening).own := by
        intro d hd
        rw [step_own]
        exact spare d (List.mem_cons_of_mem _ hd)
      cases happening with
      | event e => exact ih (h.event e) hrest
      | deed d => exact ih (h.deed (spare d List.mem_cons_self)) hrest

/-- A command that may take its time. -/
def patient : Invocation (Followed Nat) :=
  { command := { program := "shellcheck", arguments := ["-"] }
    options := { token := some (.source 0), timeout := none } }

/-- Two sources; somebody listens to the first already. -/
def twoSources : Ledger Nat Nat where
  source? id := if id = 0 then some { listeners := [.callback 7] } else if id = 1 then some {} else none
  waiting := []
  told := []

/-- Somebody else comes to listen while the child runs; then nobody waits any more, and the child is gone. -/
def givenUp : List (Happening Nat Nat) :=
  [.event (.launched 1), .deed (.registers 0 8), .event .abort, .deed (.makes 2 (some 0)),
    .event (.exited (-9)), .event (.graceOver (.draining .aborted))]

/-- With a limit beyond what the clock can measure the run raises as soon as the child runs, and its
listener stays with the token. -/
theorem immeasurable_keeps_listening {invocation : Invocation (Followed σ)} {limit : Int} {id : σ}
    {tokens : Ledger σ ω} (own : ω) (pid : Nat) (timeout : invocation.options.timeout = some limit)
    (immeasurable : Execution.isMeasurable limit = false) (token : sourceOf invocation = some id)
    (uncancelled : tokens.isCancelled id = false) :
    ((start invocation own tokens).run [.event (.launched pid)]).tokens =
      tokens.after (.registers id own) := by
  have hany : (sourceOf invocation).any tokens.isCancelled = false := by
    rw [token]
    exact uncancelled
  have hstart : Supervisor.start invocation ((sourceOf invocation).any tokens.isCancelled) =
      (({ invocation := invocation } : Supervisor (Followed σ)).log .debug _).emit .launch :=
    if_neg (by rw [hany]; exact Bool.false_ne_true)
  have hcrash : ({ invocation := invocation } : Supervisor (Followed σ)).crash? = some .immeasurable := by
    simp [crash?, timeout, immeasurable]
  unfold start
  rw [hstart]
  change (({ invocation := invocation } : Supervisor (Followed σ)).launched pid).outbox.foldl
    (heard (sourceOf (({ invocation := invocation } : Supervisor (Followed σ)).launched pid).invocation) own)
    tokens = _
  rw [launched_crashed hcrash]
  change ([.listen, .stop (.crashed .immeasurable)] : List Effect).foldl (heard (sourceOf invocation) own)
    tokens = _
  rw [token]
  rfl

end Company

end Shellwright.Supervisor
