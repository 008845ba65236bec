import Shellwright.Proofs.Execution.Steps
/-!
# Supervision

While a child is supervised nothing of what ends the supervision is missed: completion, cancellation
and the end of the time limit each have the supervisor wake before the clock goes on.
-/

namespace Shellwright.Supervisor

variable {τ : Type}

theorem mem_eraseIdx_of_ne {α : Type} {l : List α} {n : Nat} {x y : α} (found : l[n]? = some x)
    (mem : y ∈ l) (ne : y ≠ x) : y ∈ l.eraseIdx n := by
  obtain ⟨i, hi⟩ := List.mem_iff_getElem?.1 mem
  refine List.mem_eraseIdx_iff_getElem?.2 ⟨i, fun heq => ne ?_, hi⟩
  rw [heq, found] at hi
  exact (Option.some.inj hi).symm

theorem Pipe.isQuiet_iff {p : Pipe} : p.isQuiet = true ↔
    p.read = p.written.length ∧ (p.closed = true → p.ended = true) := by
  unfold isQuiet
  cases p.closed <;> cases p.ended <;> simp

theorem step_completed {s : Supervisor τ} (h : s.stage = .supervising) :
    s.step .completed = { s with completed := true }.emit (.later .wake) := by
  unfold step
  rw [h]

theorem step_cancelled {s : Supervisor τ} (h : s.stage = .supervising) :
    s.step .cancelled = { s with cancelled := true }.emit (.later .wake) := by
  unfold step
  rw [h]

theorem step_expired {s : Supervisor τ} (h : s.stage = .supervising) :
    s.step .expired = s.emit (.later .wake) := by
  unfold step
  rw [h]

theorem step_wake {s : Supervisor τ} (h : s.stage = .supervising) : s.step .wake = s.wake := by
  unfold step
  rw [h]

namespace World

variable {w w' : World τ}

/-- Something has come about that ends the supervision. -/
def isDecided (w : World τ) : Bool :=
  w.isComplete || w.isCancelled || w.isExpired

theorem isComplete_iff : w.isComplete = true ↔
    w.status.isSome = true ∧ (∀ stream, (w.pipe stream).closed = true) ∧ w.fed = true := by
  unfold isComplete
  rw [Bool.and_eq_true, Bool.and_eq_true, Bool.and_eq_true, and_assoc, and_assoc, ← and_assoc (c := _ = _)]
  refine and_congr_right fun _ => and_congr_left fun _ => ⟨fun h stream => ?_, fun h => ⟨h _, h _⟩⟩
  cases stream
  · exact h.1
  · exact h.2

theorem isDecided_iff : w.isDecided = true ↔
    w.isComplete = true ∨ w.isCancelled = true ∨ w.isExpired = true := by
  unfold isDecided
  rw [Bool.or_eq_true, Bool.or_eq_true, or_assoc]

theorem Later.isComplete (h : w.Later w') (complete : w.isComplete = true) : w'.isComplete = true := by
  obtain ⟨hexited, hclosed, hfed⟩ := isComplete_iff.1 complete
  obtain ⟨status, hstatus⟩ := Option.isSome_iff_exists.1 hexited
  refine isComplete_iff.2 ⟨?_, fun stream => h.closed stream (hclosed stream), h.fed hfed⟩
  rw [h.status status hstatus]
  rfl

theorem Later.isExpired (h : w.Later w') (expired : w.isExpired = true) : w'.isExpired = true := by
  unfold World.isExpired at expired ⊢
  obtain ⟨since, hsince, hexpired⟩ := (Option.any_eq_true _ _).1 expired
  obtain ⟨limit, hlimit, hpassed⟩ := (Option.any_eq_true _ _).1 hexpired
  rw [h.since since hsince, h.invocation, hlimit]
  exact decide_eq_true (Nat.le_trans (of_decide_eq_true hpassed) h.now)

/-- What has ended the supervision still does. -/
theorem Later.isDecided (h : w.Later w') (cancelled : w.isCancelled = true → w'.isCancelled = true)
    (decided : w.isDecided = true) : w'.isDecided = true :=
  isDecided_iff.2 ((isDecided_iff.1 decided).imp h.isComplete (Or.imp cancelled h.isExpired))

/-- What is due while a child is supervised, and why. -/
inductive Expected (w : World τ) : Nat × Event → Prop
  | wake (recorded : w.supervisor.completed = true ∨ w.supervisor.cancelled = true ∨
      w.isExpired = true) : Expected w (w.now, .wake)
  | completed (drained : w.supervisor.isDrained = true)
      (exited : w.supervisor.status.isSome = true) : Expected w (w.now, .completed)
  | cancelled (cancelled : w.isCancelled = true) : Expected w (w.now, .cancelled)
  | expired (since : Nat) (limit : Int) (launched : w.since = some since)
      (limited : w.supervisor.invocation.options.timeout = some limit) :
      Expected w (since + limit.toNat, .expired)

/-- The supervisor watches for what ends the supervision. -/
structure Watching (w : World τ) : Prop where
  stage : w.supervisor.stage = .supervising
  outbox : w.supervisor.outbox = []
  mirrors : w.Mirrors
  since : w.since.isSome = true
  tokens : ∃ cancelled listening, w.tokens = source cancelled listening ∧
    (cancelled = false → listening = w.supervisor.invocation.options.token.isSome)
  timely : ∀ x ∈ w.due, w.now ≤ x.1
  expected : ∀ x ∈ w.due, w.Expected x
  heard : w.isCancelled = true → w.supervisor.cancelled = true ∨ (w.now, .cancelled) ∈ w.due
  woken : w.supervisor.completed = true ∨ w.supervisor.cancelled = true → (w.now, .wake) ∈ w.due
  limit : ∀ since limit, w.since = some since →
    w.supervisor.invocation.options.timeout = some limit →
      (since + limit.toNat, .expired) ∈ w.due ∨ (w.now, .wake) ∈ w.due
  completed : w.supervisor.completed = true →
    w.supervisor.isDrained = true ∧ w.supervisor.status.isSome = true
  cancelled : w.supervisor.cancelled = true → w.isCancelled = true
  launches : w.launches = 1
  unkilled : w.killed = false
  results : w.results = []

/-- The supervisor has noted what it knows of the child. -/
structure Supervising (w : World τ) : Prop extends Watching w where
  noted : w.supervisor.isDrained = true → w.supervisor.status.isSome = true →
    w.supervisor.completed = true ∨ (w.now, .completed) ∈ w.due

/-! ## What is learned -/

theorem Informed.isCancelled (h : w.Informed w') : w'.isCancelled = w.isCancelled := by
  unfold World.isCancelled
  rw [h.since, h.tokens, h.learned.invocation]

theorem Informed.isExpired (h : w.Informed w') : w'.isExpired = w.isExpired := by
  unfold World.isExpired
  rw [h.since, h.now, h.learned.invocation]

theorem Expected.informed {x : Nat × Event} (h : w.Expected x) (informed : w.Informed w') :
    w'.Expected x := by
  cases h with
  | wake recorded =>
      rw [← informed.now]
      exact .wake (by rwa [informed.learned.completed, informed.learned.cancelled, informed.isExpired])
  | completed drained exited =>
      rw [← informed.now]
      exact .completed (informed.learned.drained drained) (informed.learned.exited exited)
  | cancelled cancelled =>
      rw [← informed.now]
      exact .cancelled (informed.isCancelled.trans cancelled)
  | expired since limit launched limited =>
      exact .expired since limit (informed.since.trans launched)
        (by rw [informed.learned.invocation]; exact limited)

theorem Watching.informed (h : w.Watching) (informed : w.Informed w') : w'.Watching where
  stage := informed.learned.stage.trans h.stage
  outbox := informed.learned.outbox.trans h.outbox
  mirrors := informed.mirrors
  since := by rw [informed.since]; exact h.since
  tokens := by rw [informed.tokens, informed.learned.invocation]; exact h.tokens
  timely := by rw [informed.due, informed.now]; exact h.timely
  expected x hx := by
    rw [informed.due] at hx
    exact (h.expected x hx).informed informed
  heard hcancelled := by
    rw [informed.isCancelled] at hcancelled
    rw [informed.learned.cancelled, informed.now, informed.due]
    exact h.heard hcancelled
  woken := by
    rw [informed.learned.completed, informed.learned.cancelled, informed.now, informed.due]
    exact h.woken
  limit := by
    rw [informed.since, informed.learned.invocation, informed.now, informed.due]
    exact h.limit
  completed hcompleted := by
    rw [informed.learned.completed] at hcompleted
    obtain ⟨hdrained, hexited⟩ := h.completed hcompleted
    exact ⟨informed.learned.drained hdrained, informed.learned.exited hexited⟩
  cancelled := by
    rw [informed.learned.cancelled, informed.isCancelled]
    exact h.cancelled
  launches := informed.launches.trans h.launches
  unkilled := informed.killed.trans h.unkilled
  results := informed.results.trans h.results

/-- Something is to happen at once. -/
theorem Watching.post (h : w.Watching) {e : Event} (expected : w.Expected (w.now, e)) :
    (w.schedule 0 e).Watching := by
  have hmem {x : Nat × Event} (hx : x ∈ w.due) : x ∈ (w.schedule 0 e).due :=
    List.mem_append_left _ hx
  have hsame {x : Nat × Event} (hx : w.Expected x) : (w.schedule 0 e).Expected x := by
    cases hx with
    | wake recorded => exact .wake recorded
    | completed drained exited => exact .completed drained exited
    | cancelled cancelled => exact .cancelled cancelled
    | expired since limit launched limited => exact .expired since limit launched limited
  exact { h with
    mirrors := { h.mirrors with }
    timely := forall_schedule h.timely (Nat.le_refl _)
    expected := forall_schedule (fun x hx => hsame (h.expected x hx)) (hsame expected)
    heard := fun hcancelled => (h.heard hcancelled).imp_right hmem
    woken := fun hrecorded => hmem (h.woken hrecorded)
    limit := fun since limit hsince hlimit => (h.limit since limit hsince hlimit).imp hmem hmem }

/-- The supervisor emits one thing that is to happen at once. -/
theorem adopt_later_event (w : World τ) {s : Supervisor τ} (calm : s.outbox = []) (e : Event) :
    w.adopt (s.emit (.later e)) = { w with supervisor := s }.schedule 0 e := by
  unfold adopt emit
  rw [calm, List.nil_append, List.foldl_cons, List.foldl_nil, ← calm]
  rfl

theorem Watching.progressed_eq (h : w.Watching) : w.progressed =
    if w.supervisor.isDrained && w.supervisor.status.isSome && !w.supervisor.completed then
      w.schedule 0 .completed
    else w := by
  unfold World.progressed progress
  rw [h.stage]
  simp only
  split
  · exact adopt_later_event w h.outbox _
  · exact adopt_of_calm w h.outbox

/-- A child that has exited is noted once its streams have come to their ends. -/
theorem Watching.progressed (h : w.Watching) : w.progressed.Supervising := by
  rw [h.progressed_eq]
  split
  · rename_i hguard
    simp only [Bool.and_eq_true] at hguard
    exact { h.post (.completed hguard.1.1 hguard.1.2) with
      noted := fun _ _ => .inr (mem_schedule _ _ _) }
  · rename_i hguard
    refine { h with noted := fun hdrained hexited => .inl ?_ }
    simpa [hdrained, hexited] using hguard

/-! ## What is due -/

/-- Something was recorded that ends the supervision, and the supervisor is to wake. -/
def recorded (w : World τ) (n : Nat) (completed cancelled : Bool) : World τ :=
  { w with
    due := w.due.eraseIdx n
    supervisor := { w.supervisor with completed := completed, cancelled := cancelled } }.schedule 0 .wake

theorem Supervising.recorded (h : w.Supervising) {n : Nat} {x : Nat × Event}
    (found : w.due[n]? = some x) {completed cancelled : Bool}
    (keeps : w.supervisor.completed = true → completed = true)
    (keeps' : w.supervisor.cancelled = true → cancelled = true)
    (taken : x.2 = .completed → completed = true) (taken' : x.2 = .cancelled → cancelled = true)
    (sound : completed = true →
      w.supervisor.isDrained = true ∧ w.supervisor.status.isSome = true)
    (sound' : cancelled = true → w.isCancelled = true)
    (reason : completed = true ∨ cancelled = true ∨ w.isExpired = true) :
    (w.recorded n completed cancelled).Supervising := by
  have hwake : (w.now, .wake) ∈ (w.recorded n completed cancelled).due :=
    mem_schedule _ _ _
  have hkept {y : Nat × Event} (hy : y ∈ w.due) (hne : y ≠ x) :
      y ∈ (w.recorded n completed cancelled).due :=
    List.mem_append_left _ (mem_eraseIdx_of_ne found hy hne)
  have hsame {y : Nat × Event} (hy : w.Expected y) : (w.recorded n completed cancelled).Expected y := by
    cases hy with
    | wake recorded => exact .wake reason
    | completed drained exited => exact .completed drained exited
    | cancelled cancelled => exact .cancelled cancelled
    | expired since limit launched limited => exact .expired since limit launched limited
  exact { h with
    mirrors := { h.mirrors with }
    timely := forall_schedule (fun y hy => h.timely y (List.mem_of_mem_eraseIdx hy)) (Nat.le_refl _)
    expected := forall_schedule (fun y hy => hsame (h.expected y (List.mem_of_mem_eraseIdx hy)))
      (.wake reason)
    heard := fun hcancelled => by
      rcases h.heard hcancelled with hflag | hdue
      · exact .inl (keeps' hflag)
      · by_cases heq : (w.now, Event.cancelled) = x
        · exact .inl (taken' (heq ▸ rfl))
        · exact .inr (hkept hdue heq)
    woken := fun _ => hwake
    limit := fun _ _ _ _ => .inr hwake
    completed := sound
    cancelled := sound'
    noted := fun hdrained hexited => by
      rcases h.noted hdrained hexited with hflag | hdue
      · exact .inl (keeps hflag)
      · by_cases heq : (w.now, Event.completed) = x
        · exact .inl (taken (heq ▸ rfl))
        · exact .inr (hkept hdue heq) }

/-- What a move makes of the supervision. -/
inductive Supervises (w : World τ) (m : Move) (w' : World τ) : Prop
  | supervising (supervising : w'.Supervising) (time : w'.now = w.now ∨ w.isDecided = false)
    (cancelled : w.isCancelled = true → w'.isCancelled = true)
  | woken (n : Nat) (move : m = .next n) (found : w.due[n]? = some (w.now, .wake))
      (eq : w' = { w with due := w.due.eraseIdx n }.tell .wake)

theorem tell_recorded (calm : w.supervisor.outbox = []) (n : Nat) {e : Event} (completed cancelled : Bool)
    (step : w.supervisor.step e =
      { w.supervisor with completed := completed, cancelled := cancelled }.emit (.later .wake)) :
    { w with due := w.due.eraseIdx n }.tell e = w.recorded n completed cancelled := by
  have hcalm :
      { w.supervisor with completed := completed, cancelled := cancelled }.outbox = [] := calm
  unfold tell
  rw [step]
  exact adopt_later_event _ hcalm _

theorem Supervising.next (h : w.Supervising) {n : Nat} {x : Nat × Event}
    (found : w.due[n]? = some x) (reached : x.1 ≤ w.now) :
    w.Supervises (.next n) ({ w with due := w.due.eraseIdx n }.tell x.2) := by
  cases h.expected x (List.mem_of_getElem? found) with
  | wake recorded => exact .woken n rfl found rfl
  | completed drained exited =>
      rw [tell_recorded h.outbox n true w.supervisor.cancelled (step_completed h.stage)]
      exact .supervising (h.recorded found (fun _ => rfl) id (fun _ => rfl) (by rintro ⟨⟩)
        (fun _ => ⟨drained, exited⟩) h.cancelled (.inl rfl)) (.inl rfl) id
  | cancelled cancelled =>
      rw [tell_recorded h.outbox n w.supervisor.completed true (step_cancelled h.stage)]
      exact .supervising (h.recorded found id (fun _ => rfl) (by rintro ⟨⟩) (fun _ => rfl)
        h.completed (fun _ => cancelled) (.inr (.inl rfl))) (.inl rfl) id
  | expired since limit launched limited =>
      rw [tell_recorded h.outbox n w.supervisor.completed w.supervisor.cancelled
        (step_expired h.stage)]
      refine .supervising (h.recorded found id id (by rintro ⟨⟩) (by rintro ⟨⟩) h.completed
        h.cancelled (.inr (.inr ?_))) (.inl rfl) id
      simpa [isExpired, launched, limited] using reached

/-! ## Cancellation and time -/

theorem Supervising.cancel (h : w.Supervising) : w.cancel.Supervising := by
  obtain ⟨cancelled, listening, htokens, hlistening⟩ := h.tokens
  have hcancel : w.cancel =
      { w with
        tokens := source true (cancelled && listening)
        due := w.due ++ if !cancelled && listening then [(w.now, .cancelled)] else [] } := by
    unfold World.cancel
    rw [htokens, cancel_source]
    cases cancelled <;> cases listening <;> rfl
  cases cancelled with
  | true =>
      have hsame : w.cancel = w := by
        rw [hcancel]
        simp only [Bool.true_and, Bool.not_true, Bool.false_and, Bool.false_eq_true, if_false,
          List.append_nil, ← htokens]
      rw [hsame]
      exact h
  | false =>
      have huncancelled : w.isCancelled = false := by
        unfold isCancelled
        rw [htokens, isCancelled_source, Bool.and_false]
      have hunrecorded : w.supervisor.cancelled = false := Bool.eq_false_iff.2 fun hflag => by
        rw [h.cancelled hflag] at huncancelled
        cases huncancelled
      rw [hcancel, hlistening rfl]
      have htold (tokens : Bool) (x : Nat × Event)
          (hx : x ∈ if tokens then [(w.now, Event.cancelled)] else []) :
          x = (w.now, .cancelled) ∧ tokens = true := by
        cases tokens with
        | true => exact ⟨List.mem_singleton.1 hx, rfl⟩
        | false => cases hx
      simp only [Bool.not_false, Bool.true_and, Bool.false_and]
      exact { h with
        mirrors := { h.mirrors with }
        tokens := ⟨true, false, rfl, by rintro ⟨⟩⟩
        timely := fun x hx => by
          rcases List.mem_append.1 hx with hx | hx
          · exact h.timely x hx
          · obtain ⟨rfl, _⟩ := htold _ x hx
            exact Nat.le_refl _
        expected := fun x hx => by
          rcases List.mem_append.1 hx with hx | hx
          · cases h.expected x hx with
            | wake recorded => exact .wake recorded
            | completed drained exited => exact .completed drained exited
            | cancelled cancelled =>
                rw [huncancelled] at cancelled
                cases cancelled
            | expired since limit launched limited => exact .expired since limit launched limited
          · obtain ⟨rfl, hsome⟩ := htold _ x hx
            refine .cancelled ?_
            unfold isCancelled
            rw [h.since, hsome, isCancelled_source]
            rfl
        heard := fun hcancelled => by
          refine .inr (List.mem_append_right _ ?_)
          unfold isCancelled at hcancelled
          rw [(Bool.and_eq_true_iff.1 (Bool.and_eq_true_iff.1 hcancelled).1).2]
          exact List.mem_cons_self
        woken := fun hflags => List.mem_append_left _ (h.woken hflags)
        limit := fun since limit hsince hlimit =>
          (h.limit since limit hsince hlimit).imp (List.mem_append_left _) (List.mem_append_left _)
        cancelled := fun hflag => absurd (hunrecorded.symm.trans hflag) Bool.false_ne_true
        noted := fun hdrained hexited =>
          (h.noted hdrained hexited).imp_right (List.mem_append_left _) }

theorem Watching.attentive (h : w.Watching) : w.isAttentive = true := by
  rw [isAttentive, h.stage]
  rfl

/-- What is done before the clock goes on. -/
theorem isSettled_of_attentive (attentive : w.isAttentive = true) (settled : w.isSettled = true) :
    (∀ x ∈ w.due, w.now < x.1) ∧ (∀ stream, (w.pipe stream).isQuiet = true) ∧
      (w.status.isSome = true → w.noticed = true) := by
  unfold isSettled at settled
  rw [Bool.and_eq_true, List.all_eq_true, attentive, Bool.not_true, Bool.false_or,
    Bool.and_eq_true, Bool.and_eq_true] at settled
  obtain ⟨hlater, ⟨hstdout, hstderr⟩, hnoticed⟩ := settled
  refine ⟨fun x hx => of_decide_eq_true (hlater x hx), fun stream => ?_, fun hexited => ?_⟩
  · cases stream
    · exact hstdout
    · exact hstderr
  · rcases Bool.or_eq_true_iff.1 hnoticed with hnone | hnoticed
    · rw [Option.isNone_iff_eq_none] at hnone
      rw [hnone] at hexited
      cases hexited
    · exact hnoticed

/-- Before the clock goes on nothing has come about that ends the supervision. -/
theorem Supervising.undecided (h : w.Supervising) (settled : w.isSettled = true) :
    w.supervisor.completed = false ∧ w.supervisor.cancelled = false ∧ w.isDecided = false := by
  obtain ⟨hlater, hquiet, hnoticed⟩ := isSettled_of_attentive h.attentive settled
  have hnone (e : Event) : (w.now, e) ∉ w.due := fun hmem => Nat.lt_irrefl _ (hlater _ hmem)
  have hcompleted : w.supervisor.completed = false :=
    Bool.eq_false_iff.2 fun hflag => hnone _ (h.woken (.inl hflag))
  have hcancelled : w.supervisor.cancelled = false :=
    Bool.eq_false_iff.2 fun hflag => hnone _ (h.woken (.inr hflag))
  refine ⟨hcompleted, hcancelled, ?_⟩
  have hincomplete : w.isComplete = false := by
    refine Bool.eq_false_iff.2 fun hcomplete => ?_
    obtain ⟨hexited, hclosed, hfed⟩ := isComplete_iff.1 hcomplete
    have hdrained : w.supervisor.isDrained = true := by
      refine (isDrained_iff _).2 ⟨fun stream => ?_, h.mirrors.fed.trans hfed⟩
      rw [h.mirrors.closed]
      exact (Pipe.isQuiet_iff.1 (hquiet stream)).2 (hclosed stream)
    have hstatus : w.supervisor.status.isSome = true := by
      rw [h.mirrors.status, hnoticed hexited]
      exact hexited
    rcases h.noted hdrained hstatus with hflag | hdue
    · rw [hcompleted] at hflag
      cases hflag
    · exact hnone _ hdue
  have huncancelled : w.isCancelled = false := by
    refine Bool.eq_false_iff.2 fun hheard => ?_
    rcases h.heard hheard with hflag | hdue
    · rw [hcancelled] at hflag
      cases hflag
    · exact hnone _ hdue
  have hunexpired : w.isExpired = false := by
    refine Bool.eq_false_iff.2 fun hexpired => ?_
    obtain ⟨since, hsince, hexpired⟩ := (Option.any_eq_true _ _).1 hexpired
    obtain ⟨limit, hlimit, hexpired⟩ := (Option.any_eq_true _ _).1 hexpired
    rcases h.limit since limit hsince hlimit with hdue | hdue
    · exact Nat.lt_irrefl _ (Nat.lt_of_lt_of_le (hlater _ hdue) (of_decide_eq_true hexpired))
    · exact hnone _ hdue
  unfold isDecided
  rw [hincomplete, huncancelled, hunexpired]
  rfl

theorem Supervising.tick (h : w.Supervising) (settled : w.isSettled = true) :
    Supervising { w with now := w.now + 1 } := by
  obtain ⟨hcompleted, hcancelled, hundecided⟩ := h.undecided settled
  have hlater := (isSettled_of_attentive h.attentive settled).1
  have hnone (e : Event) : (w.now, e) ∉ w.due := fun hmem => Nat.lt_irrefl _ (hlater _ hmem)
  have huncancelled : w.isCancelled = false :=
    (Bool.or_eq_false_iff.1 (Bool.or_eq_false_iff.1 hundecided).1).2
  exact { h with
    mirrors := { h.mirrors with }
    timely := hlater
    expected := fun x hx => by
      cases h.expected x hx with
      | wake recorded => exact absurd hx (hnone _)
      | completed drained exited => exact absurd hx (hnone _)
      | cancelled cancelled => exact absurd hx (hnone _)
      | expired since limit launched limited => exact .expired since limit launched limited
    heard := fun hheard => absurd (huncancelled.symm.trans hheard) Bool.false_ne_true
    woken := fun hflags => absurd (h.woken hflags) (hnone _)
    limit := fun since limit hsince hlimit =>
      .inl ((h.limit since limit hsince hlimit).resolve_right (hnone _))
    noted := fun hdrained hexited =>
      .inl ((h.noted hdrained hexited).resolve_right (hnone _)) }

theorem Supervising.supervises (h : w.Supervising) (m : Move) : w.Supervises m (w.step m) := by
  have hsteps := step_steps h.attentive h.outbox h.mirrors m
  generalize w.step m = w' at hsteps ⊢
  cases hsteps with
  | informed _ _ informed drained status =>
      refine .supervising { h.toWatching.informed informed with noted := ?_ } (.inl informed.now)
        fun hcancelled => informed.isCancelled.trans hcancelled
      rw [drained, status, informed.learned.completed, informed.now, informed.due]
      exact h.noted
  | progressed _ w' informed =>
      have hwatching := h.toWatching.informed informed
      have hsame : w'.progressed.now = w'.now ∧ w'.progressed.isCancelled = w'.isCancelled := by
        rw [hwatching.progressed_eq]
        split <;> exact ⟨rfl, rfl⟩
      refine .supervising hwatching.progressed (.inl (hsame.1.trans informed.now)) fun hcancelled => ?_
      rw [hsame.2, informed.isCancelled]
      exact hcancelled
  | cancel =>
      refine .supervising h.cancel (.inl rfl) fun hcancelled => ?_
      obtain ⟨cancelled, listening, htokens, _⟩ := h.tokens
      unfold isCancelled at hcancelled ⊢
      rw [Bool.and_eq_true] at hcancelled ⊢
      refine ⟨hcancelled.1, ?_⟩
      unfold World.cancel
      rw [htokens, cancel_source]
      rfl
  | next n x found reached => exact h.next found reached
  | tick settled =>
      exact .supervising (h.tick settled) (.inr (h.undecided settled).2.2) id

end World

end Shellwright.Supervisor
