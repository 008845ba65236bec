import Shellwright.Proofs.Registry.World
import Shellwright.Proofs.Review.Runs
/-!
# What a review passes on

A step of a review is a step of its registry, or leaves the registry as it is. What the registry wants
done is passed on, and only calls that the step is about come about or end.
-/

namespace Shellwright.Registry

/-- The effect is about what is to happen in the registry. -/
def Effect.passes : Effect → Bool
  | .later _ => true
  | .ask .. => true
  | _ => false

theorem filterMap_filter_passes {α : Type} {f : Effect → Option α}
    (h : ∀ effect : Effect, effect.passes = false → f effect = none) (effects : List Effect) :
    (effects.filter Effect.passes).filterMap f = effects.filterMap f := by
  induction effects with
  | nil => rfl
  | cons effect rest ih =>
      cases hpasses : effect.passes with
      | true => simp [hpasses, ih, List.filterMap_cons]
      | false => simp [hpasses, ih, h effect hpasses]

end Shellwright.Registry

namespace Shellwright.Reviewer

open Review

/-- The registry has become `registry`, and the effects are passed on that concern it; only the calls
`own` come about, go on or end. -/
structure Leads (own : Nat → Prop) (registry : Registry) (effects : List Registry.Effect)
    (r r' : Reviewer) : Prop where
  registry : r'.registry = registry
  passed : r'.passed = r.passed ++ effects.filter Registry.Effect.passes
  spares : ∀ n, ¬ own n → r'.calls.get? n = r.calls.get? n ∧ r'.endsOf n = r.endsOf n
  endings : ∀ n ∈ r'.endings, n ∈ r.endings ∨ own n

/-- What the registry is told with an event of the review. -/
def conveyed (r : Reviewer) : Event → Option Registry.Event
  | .registry event => some event
  | .call n (.format document token) =>
    some (.call (.host n) (.format document ⟨token, r.timeout⟩))
  | .call n (.fixAll document token _) =>
    if (r.document document).isShell then
      some (.call (.host n) (.format document ⟨token, r.timeout⟩))
    else none
  | .begin n =>
    match r.runs[n]? with
    | some run =>
      if run.dropped then none
      else some (.call (.run n) (.check run.document ⟨some (.run n), r.timeout⟩))
    | none => none
  | _ => none

/-- The registry as its step leaves it, with what it wants done. -/
def reached (r : Reviewer) (e : Event) : Registry :=
  match r.conveyed e with
  | some event => r.registry.step r.buffers event
  | none => r.registry

/-- The calls that a step may be about: those under way, one that begins, one that the registry ends. -/
def Concerns (r : Reviewer) (e : Event) (n : Nat) : Prop :=
  r.Own e n ∨ ∃ outcome, (.host n, outcome) ∈ (r.reached e).finishes

variable {r r' r'' : Reviewer} {own : Nat → Prop} {registry registry' : Registry}
  {effects effects' : List Registry.Effect}

theorem Leads.calls (h : Leads own registry effects r r') (n : Nat)
    (call : r'.calls.get? n ≠ none) : r.calls.get? n ≠ none ∨ own n := by
  by_cases hmine : own n
  · exact .inr hmine
  · exact .inl ((h.spares n hmine).1 ▸ call)

theorem Minds.leads (h : Minds own r r') : Leads own r.registry [] r r' :=
  ⟨h.registry, by rw [h.passed]; simp, h.spares, h.endings⟩

theorem Leads.trans (h : Leads own registry effects r r')
    (h' : Leads own registry' effects' r' r'') :
    Leads own registry' (effects ++ effects') r r'' where
  registry := h'.registry
  passed := by rw [h'.passed, h.passed, List.filter_append, List.append_assoc]
  spares n hn :=
    ⟨(h'.spares n hn).1.trans (h.spares n hn).1, (h'.spares n hn).2.trans (h.spares n hn).2⟩
  endings n hn := (h'.endings n hn).elim (h.endings n) .inr

theorem Leads.mono {own' : Nat → Prop} (h : Leads own registry effects r r')
    (le : ∀ n, own n → own' n) : Leads own' registry effects r r' :=
  ⟨h.registry, h.passed, fun n hn => h.spares n fun hmine => hn (le n hmine),
    fun n hn => (h.endings n hn).imp_right (le n)⟩

/-! ## What the registry wants done -/

theorem emit_minds {e : Effect} (h : e.Idle) (r : Reviewer) : Minds own r (r.emit e) :=
  (emit_carries h r).minds

theorem publish_minds (r : Reviewer) (run : Run) (verdict : Verdict) :
    Minds own r (r.publish run verdict) := by
  have hlog (text : String) : Minds own r (r.log .debug text) := emit_minds ⟨rfl, rfl, rfl⟩ r
  unfold publish
  split
  · exact .of_eq rfl rfl rfl rfl fun _ => rfl
  · split
    · exact hlog _
    · split
      · exact .of_eq rfl rfl rfl rfl fun _ => rfl
      · exact hlog _

theorem endRun_minds (r : Reviewer) (n : Nat) (outcome : Outcome Verdict) :
    Minds own r (r.endRun n outcome) := by
  have hset : Minds own r (r.setRun n fun run => { run with outcome := some outcome }) :=
    .of_eq rfl rfl rfl rfl fun _ => rfl
  exact hset.trans (emit_minds ⟨rfl, rfl, rfl⟩ _)

theorem completeRun_minds (r : Reviewer) (n : Nat) (outcome : Outcome Registry.Reply) :
    Minds own r (r.completeRun n outcome) := by
  have hstopped : Minds own r (r.emit (.stopped n)) := emit_minds ⟨rfl, rfl, rfl⟩ r
  unfold completeRun
  simp only
  split
  · exact hstopped.trans ((publish_minds _ _ _).trans (endRun_minds _ _ _))
  · exact hstopped.trans (endRun_minds _ _ _)
  · exact hstopped.trans (endRun_minds _ _ _)

/-- The effect is passed on. -/
theorem emit_leads {e : Effect} {effect : Registry.Effect} (passed : e.passed? = some effect)
    (passes : effect.passes = true) (ended : e.ended? = none) (r : Reviewer) :
    Leads own r.registry [effect] r (r.emit e) where
  registry := rfl
  passed := by
    rw [Reviewer.passed, filterMap_emit, passed, List.filter_cons_of_pos passes]
    rfl
  spares _ _ := ⟨rfl, filterMap_emit_none (Effect.endOf?_eq_none (by rw [ended]; nofun)) r⟩
  endings n hn := by
    rw [Reviewer.endings, filterMap_emit_none ended] at hn
    exact .inl hn

theorem Leads.of_minds (h : Minds own r r') {effect : Registry.Effect}
    (passes : effect.passes = false) : Leads own r.registry [effect] r r' where
  registry := h.registry
  passed := by simp [h.passed, passes]
  spares := h.spares
  endings := h.endings

theorem absorb_leads (r : Reviewer) (effect : Registry.Effect)
    (ended : ∀ n outcome, effect = .finish (.host n) outcome → own n) :
    Leads own r.registry [effect] r (r.absorb effect) := by
  cases effect with
  | later event => exact emit_leads (e := .later (.registry event)) rfl rfl rfl r
  | ask key part plugin question =>
      exact emit_leads (e := .ask key part plugin question) rfl rfl rfl r
  | quit key part =>
      exact .of_minds (emit_minds (e := .quit key part) ⟨rfl, rfl, rfl⟩ r) rfl
  | log record => exact .of_minds (emit_minds (e := .log record) ⟨rfl, rfl, rfl⟩ r) rfl
  | finish key outcome =>
      cases key with
      | run n => exact .of_minds (completeRun_minds r n outcome) rfl
      | host n => exact .of_minds (completeCall_carries r (ended n outcome rfl) outcome).minds rfl

theorem foldl_absorb_leads (effects : List Registry.Effect) (r : Reviewer)
    (ended : ∀ n outcome, .finish (.host n) outcome ∈ effects → own n) :
    Leads own r.registry effects r (effects.foldl absorb r) := by
  induction effects generalizing r with
  | nil => exact ⟨rfl, by simp, fun _ _ => ⟨rfl, rfl⟩, fun _ hn => .inl hn⟩
  | cons effect rest ih =>
      have hfirst : Leads own r.registry [effect] r (r.absorb effect) :=
        absorb_leads r effect fun n outcome heq => ended n outcome (heq ▸ List.mem_cons_self)
      have hrest := ih (r.absorb effect) fun n outcome hmem =>
        ended n outcome (List.mem_cons_of_mem _ hmem)
      rw [hfirst.registry] at hrest
      exact hfirst.trans hrest

theorem tellRegistry_leads (r : Reviewer) (event : Registry.Event)
    (ended : ∀ n outcome, (.host n, outcome) ∈ (r.registry.step r.buffers event).finishes → own n) :
    Leads own { r.registry.step r.buffers event with outbox := [] }
      (r.registry.step r.buffers event).outbox r (r.tellRegistry event) := by
  have hfold : Leads own _ _ _ _ := foldl_absorb_leads (r.registry.step r.buffers event).outbox
    { r with registry := { r.registry.step r.buffers event with outbox := [] } }
    fun n outcome hmem => ended n outcome (List.mem_filterMap.2 ⟨_, hmem, rfl⟩)
  exact ⟨hfold.registry, hfold.passed, hfold.spares, hfold.endings⟩

/-! ## Events -/

theorem step_fixAll {n : Nat} {document : String} {token : Option Token} {editable : List String}
    (h : (r.document document).isShell = true) :
    r.step (.call n (.fixAll document token editable)) =
      (r.setCall n ⟨.formatting document (.fix editable), false⟩).tellRegistry
        (.call (.host n) (.format document ⟨token, r.timeout⟩)) := by
  unfold step Reviewer.call
  simp only [h, Bool.not_true, Bool.false_eq_true, if_false]

theorem step_fixAll_skipped {n : Nat} {document : String} {token : Option Token}
    {editable : List String} (h : (r.document document).isShell = false) :
    r.step (.call n (.fixAll document token editable)) = r.finish n (.done (.fixed .skipped)) := by
  unfold step Reviewer.call
  simp only [h, Bool.not_false, if_true]

theorem step_leads (calm : r.registry.outbox = []) {e : Event} (kept : ∀ n, e ≠ .abort n) :
    Leads (r.Concerns e) { r.reached e with outbox := [] } (r.reached e).outbox r (r.step e) := by
  -- The registry is as it was, and so is what it wants done.
  have hquiet (hnone : r.conveyed e = none) (hminds : Minds (r.Own e) r (r.step e)) :
      Leads (r.Concerns e) { r.reached e with outbox := [] } (r.reached e).outbox r (r.step e) := by
    have hsame : r.reached e = r.registry := by rw [reached, hnone]
    have hclear : { r.registry with outbox := [] } = r.registry := by rw [← calm]
    rw [hsame, calm, hclear]
    exact hminds.leads.mono fun n => .inl
  have htold (event : Registry.Event) (hsome : r.conveyed e = some event) {r₁ : Reviewer}
      (same : r₁.registry = r.registry ∧ r₁.buffers = r.buffers)
      (before : Leads (r.Concerns e) r.registry [] r r₁) :
      Leads (r.Concerns e) { r.reached e with outbox := [] } (r.reached e).outbox r
        (r₁.tellRegistry event) := by
    have hreached : r.reached e = r₁.registry.step r₁.buffers event := by
      rw [reached, hsome, same.1, same.2]
    rw [hreached]
    refine before.trans (tellRegistry_leads r₁ event fun n outcome hmem => ?_)
    exact .inr ⟨outcome, hreached ▸ hmem⟩
  have hrefl : Leads (r.Concerns e) r.registry [] r r := (Carries.refl r).minds.leads
  cases e with
  | registry event => exact htold event rfl ⟨rfl, rfl⟩ hrefl
  | abort n => exact absurd rfl (kept n)
  | begin n =>
      cases hrun : r.runs[n]? with
      | none =>
          refine hquiet (by simp [conveyed, hrun]) ?_
          simp only [step, hrun]
          exact (Carries.refl r).minds
      | some run =>
          cases hdropped : run.dropped with
          | true =>
              refine hquiet (by simp [conveyed, hrun, hdropped]) ?_
              simp only [step, hrun, Reviewer.begin, hdropped, if_true]
              exact endRun_minds r n .aborted
          | false =>
              simp only [step, hrun, Reviewer.begin, hdropped]
              exact htold _ (by simp [conveyed, hrun, hdropped]) ⟨rfl, rfl⟩
                (emit_minds ⟨rfl, rfl, rfl⟩ r).leads
  | call n request =>
      have hmine : r.Own (.call n request) n := .inr rfl
      cases request with
      | format document token =>
          exact htold _ rfl ⟨rfl, rfl⟩ (setCall_carries r (.inl hmine) _).minds.leads
      | fixAll document token editable =>
          cases hshell : (r.document document).isShell with
          | true =>
              rw [step_fixAll hshell]
              exact htold _ (by simp [conveyed, hshell]) ⟨rfl, rfl⟩
                (setCall_carries r (.inl hmine) _).minds.leads
          | false =>
              refine hquiet (by simp [conveyed, hshell]) ?_
              rw [step_fixAll_skipped hshell]
              exact (finish_carries r hmine _).minds
      | diagnose document => exact hquiet rfl (step_carries rfl).minds
      | diagnoseAll documents => exact hquiet rfl (step_carries rfl).minds
      | shutdown => exact hquiet rfl (step_carries rfl).minds
  | change document => exact hquiet rfl (step_carries rfl).minds
  | close document => exact hquiet rfl (step_carries rfl).minds
  | update document text => exact hquiet rfl (step_carries rfl).minds
  | configure debounce timeout onChange => exact hquiet rfl (step_carries rfl).minds
  | elapsed timer => exact hquiet rfl (step_carries rfl).minds
  | member n i => exact hquiet rfl (step_carries rfl).minds
  | ended n => exact hquiet rfl (step_carries rfl).minds
  | gathered n => exact hquiet rfl (step_carries rfl).minds

theorem conveyed_of_ends (calm : r.registry.outbox = []) {key : CallKey}
    {outcome : Outcome Registry.Reply} {e : Event} (ends : (key, outcome) ∈ (r.reached e).finishes) :
    ∃ event, r.conveyed e = some event ∧
      (key, outcome) ∈ (r.registry.step r.buffers event).finishes := by
  cases hconveyed : r.conveyed e with
  | none =>
      rw [reached, hconveyed, Registry.finishes, calm] at ends
      cases ends
  | some event =>
      rw [reached, hconveyed] at ends
      exact ⟨event, rfl, ends⟩

/-! ## Calls that are called off -/

variable {P : Registry → Prop}

theorem tellRegistry_registry (r : Reviewer) (event : Registry.Event) :
    (r.tellRegistry event).registry = { r.registry.step r.buffers event with outbox := [] } := by
  have hleads : Leads (fun _ => True) _ _ r (r.tellRegistry event) :=
    tellRegistry_leads r event fun _ _ _ => trivial
  exact hleads.registry

/-- What holds of a registry however its calls are called off. -/
def AbortProof (P : Registry → Prop) : Prop :=
  ∀ (r : Registry) (buffers : Buffers) (key : CallKey), r.outbox = [] → P r →
    P { r.step buffers (.abort key) with outbox := [] }

theorem tellRegistry_abort (proof : AbortProof P) (key : CallKey) (calm : r.registry.outbox = [])
    (h : P r.registry) :
    (r.tellRegistry (.abort key)).registry.outbox = [] ∧ P (r.tellRegistry (.abort key)).registry := by
  rw [tellRegistry_registry]
  exact ⟨rfl, proof r.registry r.buffers key calm h⟩

theorem foldl_abortRun_registry (proof : AbortProof P) (runs : List Nat)
    (calm : r.registry.outbox = []) (h : P r.registry) :
    P (runs.foldl abortRun r).registry := by
  induction runs generalizing r with
  | nil => exact h
  | cons k rest ih =>
      rw [List.foldl_cons]
      unfold abortRun
      split
      · obtain ⟨hcalm, hkept⟩ := tellRegistry_abort proof (.run k) calm h
        exact ih hcalm hkept
      · exact ih calm h

theorem abort_registry (proof : AbortProof P) (calm : r.registry.outbox = []) (h : P r.registry)
    (n : Nat) : P (r.step (.abort n)).registry := by
  change P (r.withCall n (r.abort n)).registry
  unfold withCall
  split
  · unfold abort
    simp only
    split
    · exact (tellRegistry_abort (r := r.setCall n _) proof (.host n) calm h).2
    · exact foldl_abortRun_registry (r := r.setCall n _) proof _ calm h
  · exact h

end Shellwright.Reviewer
