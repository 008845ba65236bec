import Shellwright.Proofs.Registry.Ends
import Shellwright.Proofs.Review.Runs
/-!
# How runs end

A run is to begin, is being checked by the registry or has ended, and never two of these. It ends once,
and a conclusive verdict that may be published is.
-/

namespace Shellwright.Reviewer

open Review

variable {r r' r'' : Reviewer} {due : List Nat}

/-! ## Runs that end -/

theorem begins_log (r : Reviewer) (level : LogLevel) (text : String) :
    (r.log level text).begins = r.begins :=
  filterMap_emit_none rfl r

/-- Run `n` has ended, and a conclusive verdict that might be published has been. -/
structure Closes (r : Reviewer) (n : Nat) (outcome : Outcome Verdict) (r' : Reviewer) : Prop where
  registry : r'.registry = r.registry
  outcomes : r'.outcomes = r.outcomes.set n (some outcome)
  begins : r'.begins = r.begins
  judged : ∀ run verdict, r.runs[n]? = some run → outcome = .done verdict →
    verdict.inconclusive = true ∨
    (∀ session, r.sessions.at? run.session = some session →
      session.mayPublish run.sequence = false) ∨
    ∃ session, r.sessions.at? run.session = some session ∧
      r'.desk = r.desk.publish n run session verdict

theorem endRun_outcomes (r : Reviewer) (n : Nat) (outcome : Outcome Verdict) :
    (r.endRun n outcome).outcomes = r.outcomes.set n (some outcome) := by
  refine List.ext_getElem? fun k => ?_
  simp only [endRun, setRun, emit, Reviewer.outcomes, List.getElem?_map, List.getElem?_modify,
    List.getElem?_set, List.length_map]
  by_cases hk : n = k
  · subst hk
    by_cases hlt : n < r.runs.length
    · simp [hlt]
    · simp [hlt]
  · simp [hk]

theorem endRun_begins (r : Reviewer) (n : Nat) (outcome : Outcome Verdict) :
    (r.endRun n outcome).begins = r.begins :=
  filterMap_emit_none (e := .later (.ended n)) rfl _

theorem endRun_closes (r : Reviewer) (n : Nat) {outcome : Outcome Verdict}
    (h : ∀ verdict, outcome ≠ .done verdict) : Closes r n outcome (r.endRun n outcome) where
  registry := rfl
  outcomes := endRun_outcomes r n outcome
  begins := endRun_begins r n outcome
  judged _ verdict _ heq := absurd heq (h verdict)

/-- How a run ends when the registry has ended its call. -/
def settledAs : Outcome Registry.Reply → Outcome Verdict
  | .done (.checked verdict) => .done verdict
  | .raised trouble => .raised trouble
  | _ => .aborted

theorem publish_closes (r : Reviewer) {n : Nat} {run : Run} (hrun : r.runs[n]? = some run)
    (verdict : Verdict) :
    Closes r n (.done verdict) ((r.publish run verdict).endRun n (.done verdict)) := by
  have hclosed (r₁ : Reviewer) (registry : r₁.registry = r.registry) (runs : r₁.runs = r.runs)
      (begins : r₁.begins = r.begins)
      (judged : verdict.inconclusive = true ∨
        (∀ session, r.sessions.at? run.session = some session →
          session.mayPublish run.sequence = false) ∨
        ∃ session, r.sessions.at? run.session = some session ∧
          (r₁.endRun n (.done verdict)).desk = r.desk.publish n run session verdict) :
      Closes r n (.done verdict) (r₁.endRun n (.done verdict)) := by
    refine ⟨registry, ?_, (endRun_begins r₁ n _).trans begins, ?_⟩
    · rw [endRun_outcomes, Reviewer.outcomes, runs, Reviewer.outcomes]
    · rintro run' verdict' hrun' ⟨⟩
      obtain rfl := Option.some.inj (hrun.symm.trans hrun')
      exact judged
  unfold publish
  split
  · rename_i hnone
    refine hclosed r rfl rfl rfl (.inr (.inl fun session hsession => ?_))
    rw [hnone] at hsession
    cases hsession
  · rename_i session hsession
    split
    · rename_i hinconclusive
      exact hclosed _ rfl rfl (begins_log r _ _) (.inl hinconclusive)
    · split
      · exact hclosed _ rfl rfl rfl (.inr (.inr ⟨session, hsession, rfl⟩))
      · rename_i hstale
        refine hclosed _ rfl rfl (begins_log r _ _) (.inr (.inl fun session' hsession' => ?_))
        obtain rfl := Option.some.inj (hsession.symm.trans hsession')
        simpa using hstale

theorem completeRun_closes (r : Reviewer) {n : Nat} (known : n < r.runs.length)
    (outcome : Outcome Registry.Reply) :
    Closes r n (settledAs outcome) (r.completeRun n outcome) := by
  have hbegins : (r.emit (.stopped n)).begins = r.begins :=
    filterMap_emit_none (e := .stopped n) rfl r
  have hrun : (r.emit (.stopped n)).runs[n]? = some r.runs[n] := List.getElem?_eq_getElem known
  have hclosed {o : Outcome Verdict} {r' : Reviewer} (h : Closes (r.emit (.stopped n)) n o r') :
      Closes r n o r' :=
    ⟨h.registry, h.outcomes, h.begins.trans hbegins, h.judged⟩
  unfold completeRun
  simp only [hrun]
  cases outcome with
  | raised trouble => exact hclosed (endRun_closes _ n nofun)
  | aborted => exact hclosed (endRun_closes _ n nofun)
  | done reply =>
      cases reply with
      | checked verdict => exact hclosed (publish_closes _ hrun verdict)
      | _ => exact hclosed (endRun_closes _ n nofun)

/-! ## Every run ends once -/

/-- A run that is to begin or is being checked has not ended, and is not both. -/
structure Tracked (r : Reviewer) (due : List Nat) : Prop where
  calm : r.registry.outbox = []
  once : due.Nodup
  due : ∀ k ∈ due, r.outcomes[k]? = some none ∧ r.registry.calls.get? (.run k) = none
  checked : ∀ k, r.registry.calls.get? (.run k) ≠ none → r.outcomes[k]? = some none

/-- Runs end once, and a conclusive verdict that might be published has been. -/
structure Evolves (r r' : Reviewer) : Prop where
  kept : ∀ (k : Nat) outcome, r.outcomes[k]? = some (some outcome) →
    r'.outcomes[k]? = some (some outcome)
  judged : ∀ (k : Nat) run verdict, r.runs[k]? = some run → run.outcome = none →
    r'.outcomes[k]? = some (some (.done verdict)) →
    verdict.inconclusive = true ∨
    (∀ session, r.sessions.at? run.session = some session →
      session.mayPublish run.sequence = false) ∨
    ∃ session, r.sessions.at? run.session = some session ∧
      r'.desk = r.desk.publish k run session verdict

theorem getElem?_outcomes {k : Nat} {run : Run} (h : r.runs[k]? = some run) :
    r.outcomes[k]? = some run.outcome := by
  rw [outcomes, List.getElem?_map, h]
  rfl

theorem unended_of_run {k : Nat} {run : Run} (h : r.runs[k]? = some run)
    (none_eq : run.outcome = none) : r.outcomes[k]? = some none := by
  rw [getElem?_outcomes h, none_eq]

theorem lt_of_unended {k : Nat} (h : r.outcomes[k]? = some none) : k < r.runs.length := by
  rw [← length_outcomes]
  exact (List.getElem?_eq_some_iff.1 h).1

theorem unended_append {k m : Nat} (h : r.outcomes[k]? = some none) :
    (r.outcomes ++ List.replicate m none)[k]? = some none := by
  have hlt := (List.getElem?_eq_some_iff.1 h).1
  rw [List.getElem?_append_left hlt]
  exact h

theorem Dispatches.tracked (h : r.Dispatches r') (tracked : r.Tracked (due ++ r.begins)) :
    r'.Tracked (due ++ r'.begins) := by
  obtain ⟨m, houtcomes, hbegins⟩ := h.runs
  rw [hbegins, ← List.append_assoc]
  refine ⟨?_, ?_, ?_, ?_⟩
  · rw [h.registry]
    exact tracked.calm
  · rw [List.nodup_append]
    refine ⟨tracked.once, List.nodup_range', ?_⟩
    rintro k hk j hj rfl
    have hlt := lt_of_unended (tracked.due k hk).1
    have hle := (List.mem_range'_1.1 hj).1
    omega
  · intro k hk
    rw [h.registry, houtcomes]
    rcases List.mem_append.1 hk with hold | hnew
    · obtain ⟨hunended, hcall⟩ := tracked.due k hold
      exact ⟨unended_append hunended, hcall⟩
    · obtain ⟨hle, hlt⟩ := List.mem_range'_1.1 hnew
      refine ⟨?_, ?_⟩
      · rw [List.getElem?_append_right (by rw [length_outcomes]; exact hle), length_outcomes,
          List.getElem?_replicate, if_pos (by omega)]
      -- The registry has been asked only about runs that were dispatched before.
      · refine Classical.byContradiction fun hcall => ?_
        have hbefore := lt_of_unended (tracked.checked k hcall)
        omega
  · intro k hcall
    rw [h.registry] at hcall
    rw [houtcomes]
    exact unended_append (tracked.checked k hcall)

/-- Some runs have been given up. -/
structure Spares (r r' : Reviewer) : Prop where
  kept : ∀ (k : Nat) outcome, r.outcomes[k]? = some (some outcome) →
    r'.outcomes[k]? = some (some outcome)
  aborted : ∀ k : Nat, r.outcomes[k]? = some none →
    r'.outcomes[k]? = some none ∨ r'.outcomes[k]? = some (some .aborted)

theorem Spares.of_outcomes (h : r'.outcomes = r.outcomes) : r.Spares r' :=
  ⟨fun k outcome hk => by rw [h, hk], fun k hk => .inl (by rw [h, hk])⟩

theorem Spares.trans (h : r.Spares r') (h' : r'.Spares r'') : r.Spares r'' := by
  refine ⟨fun k outcome hk => h'.kept k outcome (h.kept k outcome hk), fun k hk => ?_⟩
  rcases h.aborted k hk with hstill | haborted
  · exact h'.aborted k hstill
  · exact .inr (h'.kept k _ haborted)

theorem Spares.evolves (h : r.Spares r') : r.Evolves r' := by
  refine ⟨h.kept, fun k run verdict hrun hnone hdone => ?_⟩
  rcases h.aborted k (unended_of_run hrun hnone) with hstill | haborted
  · rw [hstill] at hdone
    cases hdone
  · rw [haborted] at hdone
    cases hdone

theorem Dispatches.spares (h : r.Dispatches r') : r.Spares r' := by
  obtain ⟨m, houtcomes, _⟩ := h.runs
  refine ⟨fun k outcome hk => ?_, fun k hk => .inl ?_⟩
  · rw [houtcomes, List.getElem?_append_left (List.getElem?_eq_some_iff.1 hk).1]
    exact hk
  · rw [houtcomes]
    exact unended_append hk

theorem Closes.tracked {n : Nat} {outcome : Outcome Verdict} (h : Closes r n outcome r')
    (tracked : r.Tracked (due ++ r.begins)) (apart : n ∉ due ++ r.begins)
    (gone : r.registry.calls.get? (.run n) = none) : r'.Tracked (due ++ r'.begins) := by
  have hother {k : Nat} (hk : k ≠ n) (hunended : r.outcomes[k]? = some none) :
      r'.outcomes[k]? = some none := by
    rw [h.outcomes, List.getElem?_set_ne (Ne.symm hk)]
    exact hunended
  rw [h.begins]
  refine ⟨?_, tracked.once, ?_, ?_⟩
  · rw [h.registry]
    exact tracked.calm
  · intro k hk
    obtain ⟨hunended, hcall⟩ := tracked.due k hk
    rw [h.registry]
    refine ⟨hother ?_ hunended, hcall⟩
    rintro rfl
    exact apart hk
  · intro k hcall
    rw [h.registry] at hcall
    refine hother ?_ (tracked.checked k hcall)
    rintro rfl
    exact hcall gone

theorem Closes.spares {n : Nat} (h : Closes r n .aborted r')
    (unended : r.outcomes[n]? = some none) : r.Spares r' := by
  have hlt := (List.getElem?_eq_some_iff.1 unended).1
  refine ⟨fun k o hk => ?_, fun k hk => ?_⟩
  · rw [h.outcomes, List.getElem?_set_ne]
    · exact hk
    · rintro rfl
      rw [unended] at hk
      cases hk
  · rw [h.outcomes]
    by_cases hkn : n = k
    · subst hkn
      exact .inr (List.getElem?_set_self hlt)
    · rw [List.getElem?_set_ne hkn]
      exact .inl hk

theorem Closes.evolves {n : Nat} {outcome : Outcome Verdict} (h : Closes r n outcome r')
    (unended : r.outcomes[n]? = some none) : r.Evolves r' := by
  refine ⟨fun k o hk => ?_, fun k run verdict hrun hnone hdone => ?_⟩
  · rw [h.outcomes, List.getElem?_set_ne]
    · exact hk
    · rintro rfl
      rw [unended] at hk
      cases hk
  · by_cases hk : n = k
    · subst hk
      have hlt := (List.getElem?_eq_some_iff.1 unended).1
      rw [h.outcomes, List.getElem?_set_self hlt] at hdone
      exact h.judged run verdict hrun (Option.some.inj (Option.some.inj hdone))
    · rw [h.outcomes, List.getElem?_set_ne hk, unended_of_run hrun hnone] at hdone
      cases hdone

/-! ## What the registry wants done -/

/-- Only what is wanted done differs, no run is to begin and no call has ended. -/
structure Hums (r r' : Reviewer) : Prop where
  mutters : r.Mutters r'
  begins : r'.begins = r.begins
  ends : ∀ n, r'.endsOf n = r.endsOf n

theorem Hums.refl (r : Reviewer) : r.Hums r := ⟨.refl r, rfl, fun _ => rfl⟩

theorem Hums.trans (h : r.Hums r') (h' : r'.Hums r'') : r.Hums r'' :=
  ⟨h.mutters.trans h'.mutters, h'.begins.trans h.begins, fun n => (h'.ends n).trans (h.ends n)⟩

theorem Hums.dispatches (h : r.Hums r') : r.Dispatches r' := by
  obtain ⟨⟨out, rfl⟩, hbegins, _⟩ := h
  exact .of_eq rfl rfl hbegins

theorem emit_hums {e : Effect} (h : Effect.run? e = none) (h' : Effect.ended? e = none)
    (r : Reviewer) : r.Hums (r.emit e) :=
  ⟨emit_mutters r e, filterMap_emit_none h r, fun n =>
    filterMap_emit_none (Effect.endOf?_eq_none (by rw [h']; nofun)) r⟩

theorem absorb_hums {effect : Registry.Effect} (h : effect.finish? = none) (r : Reviewer) :
    r.Hums (r.absorb effect) := by
  cases effect with
  | finish key outcome => cases h
  | later event => exact emit_hums (e := .later (.registry event)) rfl rfl r
  | ask key part plugin question => exact emit_hums (e := .ask key part plugin question) rfl rfl r
  | quit key part => exact emit_hums (e := .quit key part) rfl rfl r
  | log record => exact emit_hums (e := .log record) rfl rfl r

theorem foldl_absorb_hums (effects : List Registry.Effect) (r : Reviewer)
    (h : effects.filterMap Registry.Effect.finish? = []) : r.Hums (effects.foldl absorb r) := by
  induction effects generalizing r with
  | nil => exact .refl r
  | cons effect rest ih =>
      rw [List.filterMap_eq_nil_iff] at h
      have hrest : rest.filterMap Registry.Effect.finish? = [] := by
        rw [List.filterMap_eq_nil_iff]
        exact fun e he => h e (List.mem_cons_of_mem _ he)
      exact (absorb_hums (h effect List.mem_cons_self) r).trans (ih _ hrest)

theorem foldl_absorb_end (effects : List Registry.Effect) (r : Reviewer) {key : CallKey}
    {outcome : Outcome Registry.Reply}
    (h : effects.filterMap Registry.Effect.finish? = [(key, outcome)]) :
    ∃ r₁, r.Hums r₁ ∧ (r₁.absorb (.finish key outcome)).Hums (effects.foldl absorb r) := by
  induction effects generalizing r with
  | nil => cases h
  | cons effect rest ih =>
      cases heffect : effect.finish? with
      | none =>
          rw [List.filterMap_cons_none heffect] at h
          obtain ⟨r₁, hbefore, hafter⟩ := ih (r.absorb effect) h
          exact ⟨r₁, (absorb_hums heffect r).trans hbefore, hafter⟩
      | some ending =>
          rw [List.filterMap_cons_some heffect] at h
          obtain ⟨rfl, hrest⟩ := List.cons.inj h
          obtain rfl : effect = .finish key outcome := by
            cases effect <;> cases heffect
            rfl
          exact ⟨r, .refl r, foldl_absorb_hums rest _ hrest⟩

/-- The registry has taken a step, and what it wants done is still to be seen to. -/
def told (r : Reviewer) (event : Registry.Event) : Reviewer :=
  { r with registry := { r.registry.step r.buffers event with outbox := [] } }

/-- The event does not have the registry check for a run that has ended or is to begin. -/
def Fresh (r : Reviewer) (due : List Nat) (event : Registry.Event) : Prop :=
  ∀ k request, event = .call (.run k) request → k ∉ due ∧ r.outcomes[k]? = some none

theorem told_tracked {event : Registry.Event} (tracked : r.Tracked due)
    (fresh : r.Fresh due event) : (r.told event).Tracked due := by
  refine ⟨rfl, tracked.once, fun k hk => ?_, fun k hcall => ?_⟩
  · obtain ⟨hunended, hcall⟩ := tracked.due k hk
    refine ⟨hunended, Classical.byContradiction fun hcall' => ?_⟩
    rcases Registry.step_calls tracked.calm r.buffers hcall' with hbefore | ⟨request, hevent⟩
    · exact hbefore hcall
    · exact (fresh k request hevent).1 hk
  · rcases Registry.step_calls tracked.calm r.buffers hcall with hbefore | ⟨request, hevent⟩
    · exact tracked.checked k hbefore
    · exact (fresh k request hevent).2

/-- The registry ends one run at most. -/
theorem tellRegistry_links {event : Registry.Event} (tracked : r.Tracked due)
    (fresh : r.Fresh due event) :
    (r.told event).Dispatches (r.tellRegistry event) ∨
      ∃ n outcome r₁, (.run n, outcome) ∈ (r.registry.step r.buffers event).finishes ∧
        (r.told event).Hums r₁ ∧ (r₁.completeRun n outcome).Hums (r.tellRegistry event) ∧
        n ∉ due ∧ r.outcomes[n]? = some none ∧
        (r.told event).registry.calls.get? (.run n) = none := by
  rcases Registry.step_finishes tracked.calm r.buffers event with hnone | ⟨key, outcome, hone⟩
  · exact .inl (foldl_absorb_hums _ (r.told event) hnone).dispatches
  · obtain ⟨r₁, hbefore, hafter⟩ := foldl_absorb_end _ (r.told event) hone
    cases key with
    | host n =>
        have hcall : Carries (fun _ => True) r₁ (r₁.completeCall n outcome) :=
          completeCall_carries r₁ trivial outcome
        exact .inl (hbefore.dispatches.trans (hcall.dispatches.trans hafter.dispatches))
    | run n =>
        have hended : (.run n, outcome) ∈ (r.registry.step r.buffers event).finishes := by
          rw [hone]
          exact List.mem_singleton.2 rfl
        obtain ⟨hgone, hcall | ⟨request, hevent⟩⟩ :=
          Registry.step_ends tracked.calm r.buffers hended
        · refine .inr ⟨n, outcome, r₁, hended, hbefore, hafter, fun hdue => ?_,
            tracked.checked n hcall, hgone⟩
          exact hcall (tracked.due n hdue).2
        · obtain ⟨hapart, hunended⟩ := fresh n request hevent
          exact .inr ⟨n, outcome, r₁, hended, hbefore, hafter, hapart, hunended, hgone⟩

theorem Mutters.desk (h : r.Mutters r') : r'.desk = r.desk := by
  obtain ⟨out, rfl⟩ := h
  rfl

theorem outcomes_of_desk (h : r'.desk = r.desk) : r'.outcomes = r.outcomes :=
  congrArg (fun d => d.runs.map (·.outcome)) h

theorem Evolves.of_desk (h : r.Evolves r') {r₁ r₁' : Reviewer} (before : r.desk = r₁.desk)
    (after : r₁'.desk = r'.desk) : r₁.Evolves r₁' := by
  have hruns : r.runs = r₁.runs := congrArg Desk.runs before
  have hsessions : r.sessions = r₁.sessions := congrArg Desk.sessions before
  refine ⟨fun k outcome hk => ?_, fun k run verdict hrun hnone hdone => ?_⟩
  · rw [outcomes_of_desk after]
    rw [← outcomes_of_desk before] at hk
    exact h.kept k outcome hk
  · rw [outcomes_of_desk after] at hdone
    rw [← hruns] at hrun
    rw [after, ← before, ← hsessions]
    exact h.judged k run verdict hrun hnone hdone

theorem tellRegistry_tracked (event : Registry.Event) (tracked : r.Tracked (due ++ r.begins))
    (fresh : r.Fresh (due ++ r.begins) event) :
    (r.tellRegistry event).Tracked (due ++ (r.tellRegistry event).begins) ∧
      r.Evolves (r.tellRegistry event) := by
  have htold : (r.told event).Tracked (due ++ (r.told event).begins) := told_tracked tracked fresh
  rcases tellRegistry_links tracked fresh with hnone | ⟨n, outcome, r₁, _, hbefore, hafter,
    hapart, hunended, hgone⟩
  · exact ⟨hnone.tracked htold, hnone.spares.evolves.of_desk rfl rfl⟩
  · have hunended₁ : r₁.outcomes[n]? = some none := by
      rw [outcomes_of_desk hbefore.mutters.desk]
      exact hunended
    have hcloses := completeRun_closes r₁ (lt_of_unended hunended₁) outcome
    refine ⟨hafter.dispatches.tracked (hcloses.tracked (hbefore.dispatches.tracked htold) ?_ ?_), ?_⟩
    · rw [hbefore.begins]
      exact hapart
    · rw [hbefore.dispatches.registry]
      exact hgone
    · exact (hcloses.evolves hunended₁).of_desk hbefore.mutters.desk hafter.mutters.desk

theorem setCall_dispatches (r : Reviewer) (n : Nat) (c : Call) : r.Dispatches (r.setCall n c) :=
  .of_eq rfl rfl rfl

/-! ## Calls that are called off -/

theorem abort_spares (tracked : r.Tracked (due ++ r.begins)) (n : Nat) :
    (r.tellRegistry (.abort (.run n))).Tracked
        (due ++ (r.tellRegistry (.abort (.run n))).begins) ∧
      r.Spares (r.tellRegistry (.abort (.run n))) := by
  have hfresh : r.Fresh (due ++ r.begins) (.abort (.run n)) := nofun
  refine ⟨(tellRegistry_tracked _ tracked hfresh).1, ?_⟩
  rcases tellRegistry_links tracked hfresh with hnone | ⟨m, outcome, r₁, hended, hbefore, hafter,
    _, hunended, _⟩
  · have htold : r.Spares (r.told (.abort (.run n))) := .of_outcomes rfl
    exact htold.trans hnone.spares
  · have haborted : outcome = .aborted := by
      rcases Registry.abort_finishes tracked.calm r.buffers (.run n) with hnone | hone
      · rw [hnone] at hended
        cases hended
      · rw [hone] at hended
        cases List.mem_singleton.1 hended
        rfl
    subst haborted
    have hsame : r₁.outcomes = r.outcomes := outcomes_of_desk hbefore.mutters.desk
    have hunended₁ : r₁.outcomes[m]? = some none := by
      rw [hsame]
      exact hunended
    have hcloses := completeRun_closes r₁ (lt_of_unended hunended₁) .aborted
    exact (Spares.of_outcomes hsame).trans ((hcloses.spares hunended₁).trans hafter.dispatches.spares)

theorem abortRun_spares (tracked : r.Tracked (due ++ r.begins)) (n : Nat) :
    (r.abortRun n).Tracked (due ++ (r.abortRun n).begins) ∧ r.Spares (r.abortRun n) := by
  unfold abortRun
  split
  · exact abort_spares tracked n
  · have hsame : (r.setRun n fun run => { run with dropped := true }).outcomes = r.outcomes := by
      refine List.ext_getElem? fun k => ?_
      simp only [setRun, outcomes, List.getElem?_map, List.getElem?_modify]
      cases r.runs[k]? with
      | none => rfl
      | some run =>
          by_cases hk : n = k
          · simp [hk]
          · simp [hk]
    have hset : r.Dispatches (r.setRun n fun run => { run with dropped := true }) :=
      .of_eq rfl hsame rfl
    exact ⟨hset.tracked tracked, hset.spares⟩

theorem foldl_abortRun_spares (runs : List Nat) (tracked : r.Tracked (due ++ r.begins)) :
    (runs.foldl abortRun r).Tracked (due ++ (runs.foldl abortRun r).begins) ∧
      r.Spares (runs.foldl abortRun r) := by
  induction runs generalizing r with
  | nil => exact ⟨tracked, .of_outcomes rfl⟩
  | cons n rest ih =>
      obtain ⟨hfirst, hspares⟩ := abortRun_spares tracked n
      obtain ⟨hrest, hspares'⟩ := ih hfirst
      exact ⟨hrest, hspares.trans hspares'⟩

theorem abort_tracked (tracked : r.Tracked (due ++ r.begins)) (n : Nat) (c : Call) :
    (r.abort n c).Tracked (due ++ (r.abort n c).begins) ∧ r.Evolves (r.abort n c) := by
  have hset : (r.setCall n { c with aborting := true }).Tracked
      (due ++ (r.setCall n { c with aborting := true }).begins) :=
    (setCall_dispatches r n _).tracked tracked
  unfold abort
  simp only
  split
  · obtain ⟨htracked, hevolves⟩ := tellRegistry_tracked (.abort (.host n)) hset nofun
    exact ⟨htracked, hevolves.of_desk rfl rfl⟩
  · obtain ⟨htracked, hspares⟩ := foldl_abortRun_spares (awaited c.stage) hset
    exact ⟨htracked, hspares.evolves.of_desk rfl rfl⟩

/-! ## Every step -/

/-- What happens to a review apart from the runs that begin. -/
def Apart : Event → Bool
  | .begin _ => false
  | .registry (.call (.run _) _) => false
  | _ => true

theorem Carries.keeps {own : Nat → Prop} (h : Carries own r r')
    (tracked : r.Tracked (due ++ r.begins)) :
    r'.Tracked (due ++ r'.begins) ∧ r.Evolves r' :=
  ⟨h.dispatches.tracked tracked, h.dispatches.spares.evolves⟩

theorem format_tracked (tracked : r.Tracked (due ++ r.begins)) (n : Nat) (c : Call)
    (request : Registry.Request) :
    ((r.setCall n c).tellRegistry (.call (.host n) request)).Tracked
        (due ++ ((r.setCall n c).tellRegistry (.call (.host n) request)).begins) ∧
      r.Evolves ((r.setCall n c).tellRegistry (.call (.host n) request)) := by
  have hset := (setCall_dispatches r n c).tracked tracked
  obtain ⟨htracked, hevolves⟩ := tellRegistry_tracked (.call (.host n) request) hset nofun
  exact ⟨htracked, hevolves.of_desk rfl rfl⟩

/-- Whatever happens, runs end once. -/
theorem step_tracked {e : Event} (tracked : r.Tracked (due ++ r.begins)) (apart : Apart e = true) :
    (r.step e).Tracked (due ++ (r.step e).begins) ∧ r.Evolves (r.step e) := by
  by_cases hquiet : e.quiet = true
  · exact (step_carries hquiet).keeps tracked
  -- What is left reaches the registry.
  · cases e with
    | registry event =>
        refine tellRegistry_tracked event tracked ?_
        rintro k request rfl
        cases apart
    | call n request =>
        cases request with
        | format document token => exact format_tracked tracked n _ _
        | fixAll document token editable =>
            unfold step call
            simp only
            split
            · have hfinish : Carries (fun _ => True) r (r.finish n (.done (.fixed .skipped))) :=
                finish_carries r trivial _
              exact hfinish.keeps tracked
            · exact format_tracked tracked n _ _
        | _ => exact absurd rfl hquiet
    | begin n => cases apart
    | abort n =>
        change (r.withCall n (r.abort n)).Tracked (due ++ (r.withCall n (r.abort n)).begins) ∧
          r.Evolves (r.withCall n (r.abort n))
        unfold withCall
        split
        · exact abort_tracked tracked n _
        · exact ⟨tracked, (Spares.of_outcomes rfl).evolves⟩
    | _ => exact absurd rfl hquiet

/-- A run begins. -/
theorem begin_tracked {n : Nat} (tracked : r.Tracked (due ++ r.begins))
    (apart : n ∉ due ++ r.begins) (unended : r.outcomes[n]? = some none)
    (idle : r.registry.calls.get? (.run n) = none) :
    (r.step (.begin n)).Tracked (due ++ (r.step (.begin n)).begins) ∧
      r.Evolves (r.step (.begin n)) := by
  obtain ⟨run, hrun⟩ : ∃ run, r.runs[n]? = some run :=
    ⟨_, List.getElem?_eq_getElem (lt_of_unended unended)⟩
  unfold step
  simp only [hrun]
  unfold Reviewer.begin
  split
  · have hcloses : Closes r n .aborted (r.endRun n .aborted) := endRun_closes r n nofun
    exact ⟨hcloses.tracked tracked apart idle, hcloses.evolves unended⟩
  · have hstarted := emit_hums (e := .started n) rfl rfl r
    refine (tellRegistry_tracked _ (hstarted.dispatches.tracked tracked) ?_).imp_right
      fun hevolves => hevolves.of_desk rfl rfl
    rintro k request ⟨⟩
    rw [hstarted.begins]
    exact ⟨apart, unended⟩

end Shellwright.Reviewer
