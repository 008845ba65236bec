import Shellwright.Proofs.Review.Deciding
/-!
# How a format fares

What one step of a review makes of a call that formats: it goes on as it was, it is over, or the
registry has ended the question to the formatters and the verdict decides it.
-/

namespace Shellwright.Reviewer

open Review

/-- What a step makes of call `n` that is not decided with it. -/
inductive Fares (r : Reviewer) (n : Nat) (c : Call) (r' : Reviewer) : Prop
  | rests (c' : Call) (call : r'.calls.get? n = some c') (stage : c'.stage = c.stage)
      (ends : r'.endsOf n = r.endsOf n)
  | ends (outcome : Outcome Reply) (ended : r.Ended n outcome r')
      (replies : ∀ reply, outcome = .done reply → c.stage.Replies reply)

variable {r r' r₀ : Reviewer} {n : Nat} {c : Call} {e : Event}

theorem Hums.calls (h : r.Hums r') : r'.calls = r.calls := by
  obtain ⟨⟨out, rfl⟩, _, _⟩ := h
  rfl

theorem Hums.buffers (h : r.Hums r') : r'.buffers = r.buffers := by
  obtain ⟨⟨out, rfl⟩, _, _⟩ := h
  rfl

theorem Ended.hums {outcome : Outcome Reply} {r'' : Reviewer} (h : r.Ended n outcome r')
    (hums : r'.Hums r'') : r.Ended n outcome r'' :=
  ⟨by rw [hums.calls, h.gone], (hums.ends n).trans h.ends⟩

/-- The step is about other calls. -/
theorem Minds.fares {own : Nat → Prop} (h : Minds own r r') (call : r.calls.get? n = some c)
    (other : ¬ own n) : Fares r n c r' :=
  .rests c ((h.spares n other).1.trans call) rfl (h.spares n other).2

/-! ## What the registry is told -/

/-- The registry does not end a call of this number. -/
theorem tellRegistry_spares (r : Reviewer) (event : Registry.Event)
    (open' : ∀ outcome, (.host n, outcome) ∉ (r.registry.step r.buffers event).finishes) :
    (r.tellRegistry event).calls.get? n = r.calls.get? n ∧
      (r.tellRegistry event).endsOf n = r.endsOf n := by
  have hleads : Leads (fun m => ∃ outcome,
      (.host m, outcome) ∈ (r.registry.step r.buffers event).finishes) _ _ r (r.tellRegistry event) :=
    tellRegistry_leads r event fun m outcome hended => ⟨outcome, hended⟩
  refine hleads.spares n ?_
  rintro ⟨outcome, hended⟩
  exact open' outcome hended

theorem tellRegistry_settles (calm : r.registry.outbox = []) {event : Registry.Event}
    {outcome : Outcome Registry.Reply}
    (ended : (.host n, outcome) ∈ (r.registry.step r.buffers event).finishes) :
    ∃ r₁, (r.told event).Hums r₁ ∧ (r₁.completeCall n outcome).Hums (r.tellRegistry event) := by
  rcases Registry.step_finishes calm r.buffers event with hnone | ⟨key, outcome', hone⟩
  · rw [hnone] at ended
    cases ended
  · rw [hone] at ended
    cases List.mem_singleton.1 ended
    exact foldl_absorb_end _ (r.told event) hone

/-- An event that the registry hears of comes down to that, once the review has taken note of it. -/
theorem step_told {event : Registry.Event} (conveyed : r.conveyed e = some event) :
    ∃ r₀ : Reviewer, r.step e = r₀.tellRegistry event ∧ r₀.registry = r.registry ∧
      r₀.buffers = r.buffers ∧ ∀ n, r₀.endsOf n = r.endsOf n ∧
        (¬ e.Begins n → r₀.calls.get? n = r.calls.get? n) := by
  have hput (m : Nat) (c : Call) : ∀ n, (r.setCall m c).endsOf n = r.endsOf n ∧
      (m ≠ n → (r.setCall m c).calls.get? n = r.calls.get? n) :=
    fun n => ⟨rfl, fun hm => Keyed.get?_put_of_ne _ hm.symm⟩
  cases e with
  | registry event' =>
      cases conveyed
      exact ⟨r, rfl, rfl, rfl, fun n => ⟨rfl, fun _ => rfl⟩⟩
  | call m request =>
      cases request with
      | format document token =>
          cases conveyed
          exact ⟨r.setCall m _, rfl, rfl, rfl, hput m _⟩
      | fixAll document token editable =>
          cases hshell : (r.document document).isShell with
          | true =>
              simp only [Reviewer.conveyed, hshell, if_true] at conveyed
              cases conveyed
              exact ⟨r.setCall m _, step_fixAll hshell, rfl, rfl, hput m _⟩
          | false => simp [Reviewer.conveyed, hshell] at conveyed
      | _ => cases conveyed
  | begin k =>
      cases hrun : r.runs[k]? with
      | none => simp [Reviewer.conveyed, hrun] at conveyed
      | some run =>
          cases hdropped : run.dropped with
          | true => simp [Reviewer.conveyed, hrun, hdropped] at conveyed
          | false =>
              have hstarted := emit_hums (e := .started k) rfl rfl r
              simp only [Reviewer.conveyed, hrun, hdropped] at conveyed
              cases conveyed
              refine ⟨r.emit (.started k), ?_, rfl, rfl, fun n => ⟨hstarted.ends n, fun _ => rfl⟩⟩
              simp only [step, hrun, Reviewer.begin, hdropped]
              rfl
  | _ => cases conveyed

/-- The registry ends a call, and the review goes on from where it was. -/
theorem step_settles (calm : r.registry.outbox = []) {outcome : Outcome Registry.Reply}
    (settles : (.host n, outcome) ∈ (r.reached e).finishes) :
    ∃ r₁ : Reviewer, (r₁.completeCall n outcome).Hums (r.step e) ∧ r₁.buffers = r.buffers ∧
      r₁.endsOf n = r.endsOf n ∧ (¬ e.Begins n → r₁.calls.get? n = r.calls.get? n) := by
  obtain ⟨event, hconveyed, hended⟩ := conveyed_of_ends calm settles
  obtain ⟨r₀, hstep, hregistry, hbuffers, hnoted⟩ := step_told hconveyed
  rw [← hregistry, ← hbuffers] at hended
  obtain ⟨r₁, hbefore, hafter⟩ := tellRegistry_settles (by rw [hregistry, calm]) hended
  refine ⟨r₁, hstep ▸ hafter, hbefore.buffers.trans hbuffers,
    (hbefore.ends n).trans (hnoted n).1, fun hother => ?_⟩
  rw [hbefore.calls]
  exact (hnoted n).2 hother

/-- The registry has ended the question to the formatters. -/
theorem completeCall_formatting {document : String} {purpose : FormatPurpose}
    (call : r.calls.get? n = some c) (stage : c.stage = .formatting document purpose)
    (outcome : Outcome Registry.Reply) :
    (∃ v, outcome = .done (.formatted v) ∧
      r.completeCall n outcome = r.completeFormat n document purpose v) ∨
    ∃ o, (∀ reply, o ≠ .done reply) ∧ r.completeCall n outcome = r.finish n o := by
  have hstage : (r.calls.get? n).map Call.stage = some (.formatting document purpose) := by
    rw [call, Option.map_some, stage]
  unfold completeCall
  rw [hstage]
  cases outcome with
  | raised trouble => exact .inr ⟨.raised trouble, nofun, rfl⟩
  | aborted => exact .inr ⟨.aborted, nofun, rfl⟩
  | done reply =>
      cases reply with
      | formatted v => exact .inl ⟨v, rfl, rfl⟩
      | _ => exact .inr ⟨.aborted, nofun, rfl⟩

/-! ## Calls that are called off -/

theorem tellRegistry_abort_run (calm : r.registry.outbox = []) (k : Nat) :
    (r.tellRegistry (.abort (.run k))).calls.get? n = r.calls.get? n ∧
      (r.tellRegistry (.abort (.run k))).endsOf n = r.endsOf n := by
  refine tellRegistry_spares r _ fun outcome hended => ?_
  rcases Registry.abort_finishes calm r.buffers (.run k) with hnone | hone
  · rw [hnone] at hended
    cases hended
  · rw [hone] at hended
    cases List.mem_singleton.1 hended

theorem foldl_abortRun_calls (runs : List Nat) (calm : r.registry.outbox = []) :
    (runs.foldl abortRun r).calls.get? n = r.calls.get? n ∧
      (runs.foldl abortRun r).endsOf n = r.endsOf n := by
  induction runs generalizing r with
  | nil => exact ⟨rfl, rfl⟩
  | cons k rest ih =>
      rw [List.foldl_cons]
      unfold abortRun
      split
      · obtain ⟨hcall, hends⟩ := tellRegistry_abort_run (n := n) calm k
        have hcalm : (r.tellRegistry (.abort (.run k))).registry.outbox = [] := by
          rw [tellRegistry_registry]
        obtain ⟨hcall', hends'⟩ := ih hcalm
        exact ⟨hcall'.trans hcall, hends'.trans hends⟩
      · exact ih (r := r.setRun k _) calm

theorem abort_fares (calm : r.registry.outbox = []) (call : r.calls.get? n = some c) (m : Nat) :
    Fares r n c (r.step (.abort m)) := by
  change Fares r n c (r.withCall m (r.abort m))
  unfold withCall
  split
  · rename_i c₀ hcall₀
    obtain ⟨c', hcall', hstage'⟩ : ∃ c', (r.setCall m { c₀ with aborting := true }).calls.get? n =
        some c' ∧ c'.stage = c.stage := by
      by_cases hm : n = m
      · subst hm
        rw [call] at hcall₀
        cases hcall₀
        exact ⟨{ c with aborting := true }, Keyed.get?_put_self _ _ _, rfl⟩
      · exact ⟨c, (Keyed.get?_put_of_ne _ hm).trans call, rfl⟩
    unfold abort
    simp only
    split
    · by_cases hended : ∃ outcome, (.host n, outcome) ∈
          (r.registry.step r.buffers (.abort (.host m))).finishes
      · obtain ⟨outcome, hended⟩ := hended
        have haborted : outcome = .aborted ∧ n = m := by
          rcases Registry.abort_finishes calm r.buffers (.host m) with hnone | hone
          · rw [hnone] at hended
            cases hended
          · rw [hone] at hended
            cases List.mem_singleton.1 hended
            exact ⟨rfl, rfl⟩
        obtain ⟨rfl, rfl⟩ := haborted
        obtain ⟨r₁, hbefore, hafter⟩ :=
          tellRegistry_settles (r := r.setCall n { c₀ with aborting := true }) calm hended
        have hcall₁ : r₁.calls.get? n = some c' := by
          rw [hbefore.calls]
          exact hcall'
        rename_i document purpose hstage₀
        have hstage₁ : c'.stage = .formatting document purpose := by
          rw [hstage', ← hstage₀]
          rw [call] at hcall₀
          cases hcall₀
          rfl
        rcases completeCall_formatting hcall₁ hstage₁ .aborted with ⟨v, heq, _⟩ | ⟨o, hnot, heq⟩
        · cases heq
        · rw [heq] at hafter
          have hended : r.Ended n o (r₁.finish n o) :=
            (finish_ended r₁ n o).after (hbefore.ends n)
          exact .ends o (hended.hums hafter)
            fun reply hreply => absurd hreply (hnot reply)
      · obtain ⟨hcall, hends⟩ := tellRegistry_spares (r.setCall m { c₀ with aborting := true })
          (.abort (.host m)) fun outcome h => hended ⟨outcome, h⟩
        exact .rests c' (hcall.trans hcall') hstage' hends
    · obtain ⟨hcall, hends⟩ :=
        foldl_abortRun_calls (r := r.setCall m { c₀ with aborting := true }) (n := n)
          (awaited c₀.stage) calm
      exact .rests c' (hcall.trans hcall') hstage' hends
  · exact .rests c call rfl rfl

/-! ## Runs that end -/

/-- A call goes on after a run. -/
def resumed (run : Nat) (outcome : Outcome Verdict) (r : Reviewer) (n : Nat) : Reviewer :=
  match r.calls.get? n with
  | some c => r.resume n run outcome c
  | none => r

theorem resumed_of_ne {m : Nat} (hm : n ≠ m) (r : Reviewer) (run : Nat) (outcome : Outcome Verdict) :
    (resumed run outcome r m).calls.get? n = r.calls.get? n ∧
      (resumed run outcome r m).endsOf n = r.endsOf n := by
  unfold resumed
  split
  · rename_i c _
    have hcarries : Carries (Eq m) r (r.resume m run outcome c) :=
      resume_carries r rfl run outcome c
    exact hcarries.minds.spares n (Ne.symm hm)
  · exact ⟨rfl, rfl⟩

theorem foldl_resumed_absent (absent : r.calls.get? n = none) (run : Nat)
    (outcome : Outcome Verdict) (numbers : List Nat) :
    (numbers.foldl (resumed run outcome) r).calls.get? n = none ∧
      (numbers.foldl (resumed run outcome) r).endsOf n = r.endsOf n := by
  induction numbers generalizing r with
  | nil => exact ⟨absent, rfl⟩
  | cons m rest ih =>
      rw [List.foldl_cons]
      by_cases hm : n = m
      · subst hm
        have hsame : resumed run outcome r n = r := by rw [resumed, absent]
        rw [hsame]
        exact ih absent
      · obtain ⟨hcall, hends⟩ := resumed_of_ne hm r run outcome
        obtain ⟨hcall', hends'⟩ := ih (hcall.trans absent)
        exact ⟨hcall', hends'.trans hends⟩

theorem resume_fares (formats : c.stage.Formats) (run : Nat)
    (outcome : Outcome Verdict) :
    r.resume n run outcome c = r ∨
      ∃ o, r.Ended n o (r.resume n run outcome c) ∧
        ∀ reply, o = .done reply → c.stage.Replies reply := by
  have hfinish (o : Outcome Reply) (h : ∀ reply, o = .done reply → c.stage.Replies reply) :
      ∃ o', r.Ended n o' (r.finish n o) ∧ ∀ reply, o' = .done reply → c.stage.Replies reply :=
    ⟨o, finish_ended r n o, h⟩
  unfold resume
  split
  · exact .inl rfl
  · rename_i hawaited
    right
    generalize hstage : c.stage = stage at formats hawaited hfinish ⊢
    cases formats with
    | asking document purpose => simp [awaited] at hawaited
    | replies _ reply replies =>
        cases stage with
        | refreshing m document purpose v =>
            obtain ⟨hquiet, hreply⟩ := replies
            cases outcome with
            | aborted => exact hfinish _ nofun
            | raised trouble => exact hfinish _ nofun
            | done verdict =>
                refine ⟨_, (withoutEdits_ended r n document purpose hquiet false).1, ?_⟩
                rintro _ ⟨⟩
                exact ⟨hquiet, fun accepted => FormatPurpose.reply_of_quiet hquiet _ _ purpose⟩
        | applied m =>
            cases outcome with
            | aborted => exact hfinish _ nofun
            | raised trouble => exact hfinish _ nofun
            | done verdict =>
                refine hfinish _ ?_
                rintro _ ⟨⟩
                rfl
        | _ => exact replies.elim

theorem foldl_resumed_fares (call : r.calls.get? n = some c) (formats : c.stage.Formats) (run : Nat)
    (outcome : Outcome Verdict) (numbers : List Nat) :
    Fares r n c (numbers.foldl (resumed run outcome) r) := by
  suffices hfold : ((numbers.foldl (resumed run outcome) r).calls.get? n = some c ∧
      (numbers.foldl (resumed run outcome) r).endsOf n = r.endsOf n) ∨
      ∃ o, r.Ended n o (numbers.foldl (resumed run outcome) r) ∧
        ∀ reply, o = .done reply → c.stage.Replies reply by
    rcases hfold with ⟨hcall, hends⟩ | ⟨o, hended, hreplies⟩
    · exact .rests c hcall rfl hends
    · exact .ends o hended hreplies
  induction numbers generalizing r with
  | nil => exact .inl ⟨call, rfl⟩
  | cons m rest ih =>
      rw [List.foldl_cons]
      by_cases hm : n = m
      · subst hm
        have hresumed : resumed run outcome r n = r.resume n run outcome c := by
          rw [resumed, call]
        rw [hresumed]
        rcases resume_fares formats run outcome with hsame | ⟨o, hended, hreplies⟩
        · rw [hsame]
          exact ih call
        · obtain ⟨hgone, hends⟩ := foldl_resumed_absent hended.gone run outcome rest
          exact .inr ⟨o, ⟨hgone, hends.trans hended.ends⟩, hreplies⟩
      · obtain ⟨hcall, hends⟩ := resumed_of_ne hm r run outcome
        rcases ih (hcall.trans call) with ⟨hcall', hends'⟩ | ⟨o, hended, hreplies⟩
        · exact .inl ⟨hcall', hends'.trans hends⟩
        · exact .inr ⟨o, hended.after hends, hreplies⟩

theorem ended_fares (call : r.calls.get? n = some c) (formats : c.stage.Formats) (run : Nat) :
    Fares r n c (r.ended run) := by
  unfold Reviewer.ended
  split
  · exact .rests c call rfl rfl
  · exact foldl_resumed_fares call formats run _ _

/-! ## Every step -/

/-- A fix that the registry does not hear of is no fix. -/
theorem fixAll_untold {m : Nat} {document : String} {token : Option Token} {editable : List String}
    (untold : r.conveyed (.call m (.fixAll document token editable)) = none) :
    r.step (.call m (.fixAll document token editable)) = r.finish m (.done (.fixed .skipped)) := by
  refine step_fixAll_skipped ?_
  cases hshell : (r.document document).isShell with
  | false => rfl
  | true => simp [conveyed, hshell] at untold

/-- A run that the registry does not hear of has been called off, or is none. -/
theorem begin_untold {k : Nat} (untold : r.conveyed (.begin k) = none) :
    Minds (fun _ => False) r (r.step (.begin k)) := by
  cases hrun : r.runs[k]? with
  | none =>
      simp only [step, hrun]
      exact (Carries.refl r).minds
  | some run =>
      cases hdropped : run.dropped with
      | true =>
          simp only [step, hrun, Reviewer.begin, hdropped, if_true]
          exact endRun_minds r k .aborted
      | false => simp [conveyed, hrun, hdropped] at untold

/-- A step about the call itself that ends it, if it has been called off. -/
theorem finish_fares (call : r.calls.get? n = some c) (aborting : Bool) :
    Fares r n c (if aborting then r.finish n .aborted else r) := by
  cases aborting with
  | true => exact .ends .aborted (finish_ended r n .aborted) nofun
  | false => exact .rests c call rfl rfl

theorem member_fares (call : r.calls.get? n = some c) (formats : c.stage.Formats) (m i : Nat) :
    Fares r n c (r.step (.member m i)) := by
  change Fares r n c (r.withCall m (r.member m i))
  by_cases hm : n = m
  · subst hm
    have hmember : r.withCall n (r.member n i) = if c.aborting then r.finish n .aborted else r := by
      rw [withCall, call]
      simp only [member]
      generalize c.stage = stage at formats
      cases formats with
      | asking document purpose => rfl
      | replies _ reply replies => cases stage <;> first | rfl | exact replies.elim
    rw [hmember]
    exact finish_fares call c.aborting
  · have hcarries : Carries (Eq m) r (r.withCall m (r.member m i)) :=
      withCall_carries (fun _ => rfl) fun mine c => member_carries r mine i c
    exact hcarries.minds.fares call (Ne.symm hm)

theorem gathered_fares (call : r.calls.get? n = some c) (formats : c.stage.Formats) (m : Nat) :
    Fares r n c (r.step (.gathered m)) := by
  change Fares r n c (r.withCall m (r.gathered m))
  by_cases hm : n = m
  · subst hm
    have hgathered : r.withCall n (r.gathered n) =
        if c.aborting then r.finish n .aborted else r := by
      rw [withCall, call]
      simp only [gathered]
      generalize c.stage = stage at formats
      cases formats with
      | asking document purpose => rfl
      | replies _ reply replies => cases stage <;> first | rfl | exact replies.elim
    rw [hgathered]
    exact finish_fares call c.aborting
  · have hcarries : Carries (Eq m) r (r.withCall m (r.gathered m)) :=
      withCall_carries (fun _ => rfl) fun mine c => gathered_carries r mine c
    exact hcarries.minds.fares call (Ne.symm hm)

/-- Every step but one that begins a call of this number or decides the call. -/
theorem step_fares (calm : r.registry.outbox = []) (call : r.calls.get? n = some c)
    (formats : c.stage.Formats) (other : ¬ e.Begins n)
    (open' : ∀ outcome, (.host n, outcome) ∉ (r.reached e).finishes) : Fares r n c (r.step e) := by
  cases hconveyed : r.conveyed e with
  | some event =>
      obtain ⟨r₀, hstep, hregistry, hbuffers, hnoted⟩ := step_told hconveyed
      rw [reached, hconveyed, ← hregistry, ← hbuffers] at open'
      obtain ⟨hcall, hends⟩ := tellRegistry_spares r₀ event open'
      rw [hstep]
      exact .rests c (hcall.trans (((hnoted n).2 other).trans call)) rfl (hends.trans (hnoted n).1)
  | none =>
      have hapart {r' : Reviewer} (h : Carries (fun _ => False) r r') : Fares r n c r' :=
        h.minds.fares call id
      cases e with
      | registry event => cases hconveyed
      | call m request =>
          have hown (h : Carries (Eq m) r (r.step (.call m request))) :
              Fares r n c (r.step (.call m request)) := h.minds.fares call other
          cases request with
          | diagnose document => exact hown (call_diagnose_carries r rfl document)
          | diagnoseAll documents => exact hown (call_diagnoseAll_carries r rfl documents)
          | shutdown => exact hown (shutdown_carries r rfl)
          | format document token => cases hconveyed
          | fixAll document token editable =>
              exact hown (fixAll_untold hconveyed ▸ finish_carries r rfl _)
      | change document => exact hapart (change_carries r document)
      | close document => exact hapart (close_carries r document)
      | update document text => exact .rests c call rfl rfl
      | configure debounce timeout onChange => exact .rests c call rfl rfl
      | elapsed timer => exact hapart (elapsed_carries r timer)
      | member m i => exact member_fares call formats m i
      | begin k => exact (begin_untold hconveyed).fares call id
      | ended run => exact ended_fares call formats run
      | gathered m => exact gathered_fares call formats m
      | abort m => exact abort_fares calm call m

/-! ## Calls that are over -/

/-- The registry may still end a question to the formatters; nobody waits for that. -/
theorem tellRegistry_absent (calm : r.registry.outbox = []) (absent : r.calls.get? n = none)
    (event : Registry.Event) :
    (r.tellRegistry event).calls.get? n = none ∧ (r.tellRegistry event).endsOf n = r.endsOf n := by
  by_cases hended : ∃ outcome, (.host n, outcome) ∈ (r.registry.step r.buffers event).finishes
  · obtain ⟨outcome, hended⟩ := hended
    obtain ⟨r₁, hbefore, hafter⟩ := tellRegistry_settles calm hended
    have habsent₁ : r₁.calls.get? n = none := by
      rw [hbefore.calls]
      exact absent
    have hcomplete : r₁.completeCall n outcome = r₁.emit (.finishRegistry n outcome) := by
      unfold completeCall
      rw [habsent₁]
      rfl
    rw [hcomplete] at hafter
    have hends : (r₁.emit (.finishRegistry n outcome)).endsOf n = r₁.endsOf n :=
      filterMap_emit_none rfl r₁
    refine ⟨?_, (hafter.ends n).trans (hends.trans (hbefore.ends n))⟩
    rw [hafter.calls]
    exact habsent₁
  · obtain ⟨hcall, hends⟩ := tellRegistry_spares r event fun outcome h => hended ⟨outcome, h⟩
    exact ⟨hcall.trans absent, hends⟩

/-- Every step leaves a call that is over as it is, but one that begins a call of its number. -/
theorem step_absent (calm : r.registry.outbox = []) (absent : r.calls.get? n = none)
    (other : ¬ e.Begins n) : (r.step e).calls.get? n = none ∧ (r.step e).endsOf n = r.endsOf n := by
  have hspared {r' : Reviewer} {own : Nat → Prop} (h : Minds own r r') (hn : ¬ own n) :
      r'.calls.get? n = none ∧ r'.endsOf n = r.endsOf n :=
    (h.spares n hn).imp_left fun hcall => hcall.trans absent
  have hapart {r' : Reviewer} (h : Carries (fun _ => False) r r') :
      r'.calls.get? n = none ∧ r'.endsOf n = r.endsOf n := hspared h.minds id
  have hown {m : Nat} {f : Call → Reviewer} (h : m ≠ n → Carries (Eq m) r (r.withCall m f)) :
      (r.withCall m f).calls.get? n = none ∧ (r.withCall m f).endsOf n = r.endsOf n := by
    by_cases hm : m = n
    · subst hm
      rw [withCall, absent]
      exact ⟨absent, rfl⟩
    · exact hspared (h hm).minds hm
  cases hconveyed : r.conveyed e with
  | some event =>
      obtain ⟨r₀, hstep, hregistry, _, hnoted⟩ := step_told hconveyed
      obtain ⟨hcall, hends⟩ := tellRegistry_absent (by rw [hregistry, calm])
        (((hnoted n).2 other).trans absent) event
      rw [hstep]
      exact ⟨hcall, hends.trans (hnoted n).1⟩
  | none =>
      cases e with
      | registry event => cases hconveyed
      | call m request =>
          have hcalled (h : Carries (Eq m) r (r.step (.call m request))) := hspared h.minds other
          cases request with
          | diagnose document => exact hcalled (call_diagnose_carries r rfl document)
          | diagnoseAll documents => exact hcalled (call_diagnoseAll_carries r rfl documents)
          | shutdown => exact hcalled (shutdown_carries r rfl)
          | format document token => cases hconveyed
          | fixAll document token editable =>
              exact hcalled (fixAll_untold hconveyed ▸ finish_carries r rfl _)
      | change document => exact hapart (change_carries r document)
      | close document => exact hapart (close_carries r document)
      | update document text => exact ⟨absent, rfl⟩
      | configure debounce timeout onChange => exact ⟨absent, rfl⟩
      | elapsed timer => exact hapart (elapsed_carries r timer)
      | member m i =>
          refine hown (m := m) (f := r.member m i) fun _ => ?_
          exact withCall_carries (fun _ => rfl) fun mine c => member_carries r mine i c
      | gathered m =>
          refine hown (m := m) (f := r.gathered m) fun _ => ?_
          exact withCall_carries (fun _ => rfl) fun mine c => gathered_carries r mine c
      | begin k => exact hspared (begin_untold hconveyed) id
      | ended run =>
          change (r.ended run).calls.get? n = none ∧ (r.ended run).endsOf n = r.endsOf n
          unfold Reviewer.ended
          split
          · exact ⟨absent, rfl⟩
          · exact foldl_resumed_absent absent run _ _
      | abort m =>
          change (r.withCall m (r.abort m)).calls.get? n = none ∧
            (r.withCall m (r.abort m)).endsOf n = r.endsOf n
          unfold withCall
          split
          · rename_i c call
            have hm : n ≠ m := by
              rintro rfl
              rw [absent] at call
              cases call
            have hput : (r.setCall m { c with aborting := true }).calls.get? n = none :=
              (Keyed.get?_put_of_ne _ hm).trans absent
            unfold abort
            simp only
            split
            · exact tellRegistry_absent (r := r.setCall m _) calm hput _
            · obtain ⟨hcall, hends⟩ :=
                foldl_abortRun_calls (r := r.setCall m { c with aborting := true }) (n := n)
                  (awaited c.stage) calm
              exact ⟨hcall.trans hput, hends⟩
          · exact ⟨absent, rfl⟩

end Shellwright.Reviewer
