import Shellwright.Proofs.Registry.Agenda
import Shellwright.Proofs.Review.Inspecting
/-!
# A review that keeps to an agenda

The formats of a host go to the registry, and each comes back with one verdict. A review whose formats are
all for the sake of their edits changes no document, and when a formatter has failed, the document is
checked before the verdict is handed over.
-/

namespace Shellwright

namespace Agenda

open Review

/-- Where a call of the review may wait. -/
inductive Waits (a : Agenda) : Nat → Stage → Prop
  | formatting {n : Nat} {document : String} (errand : a.errand n = some (.format document)) :
      Waits a n (.formatting document .edits)
  | refreshing {n : Nat} {document : String} (errand : a.errand n = some (.format document))
      (run : Nat) {v : FormatVerdict} (verdict : a.verdict n v) :
      Waits a n (.refreshing run document .edits v)
  | closing {n : Nat} (errand : a.errand n = some .shutdown) (runs : List Nat) :
      Waits a n (.closing runs)

/-- What a review may want done. -/
inductive AllowsReview (a : Agenda) : Effect → Prop
  | registry {e : Registry.Event} (due : e.IsDue) : AllowsReview a (.later (.registry e))
  | begin (run : Nat) : AllowsReview a (.later (.begin run))
  | ended (run : Nat) : AllowsReview a (.later (.ended run))
  | cancel (run : Nat) : AllowsReview a (.cancel run)
  | ask {key : CallKey} {part : Nat} {p : Plugin} {question : Question}
      (allowed : a.Allows (.ask key part p question)) : AllowsReview a (.ask key part p question)
  | started (run : Nat) : AllowsReview a (.started run)
  | stopped (run : Nat) : AllowsReview a (.stopped run)
  | log (record : LogRecord) : AllowsReview a (.log record)
  | formatted {n : Nat} {document : String} (errand : a.errand n = some (.format document))
      {v : FormatVerdict} (verdict : a.verdict n v) : AllowsReview a (.finish n (.done (.formatted v)))
  | settled {n : Nat} (errand : a.errand n = some .shutdown) : AllowsReview a (.finish n (.done .settled))
  | counted {n : Nat} (errand : a.errand n = some .start) (k : Nat) :
      AllowsReview a (.finishRegistry n (.done (.count k)))

/-- What may happen to a review. -/
inductive ExpectsReview (a : Agenda) : Event → Prop
  | registry {e : Registry.Event} (expected : a.Expects e)
      (own : ∀ n document options, e ≠ .call (.host n) (.format document options)) :
      ExpectsReview a (.registry e)
  | format {n : Nat} {document : String} (errand : a.errand n = some (.format document))
      (token : Option Token) : ExpectsReview a (.call n (.format document token))
  | shutdown {n : Nat} (errand : a.errand n = some .shutdown) : ExpectsReview a (.call n .shutdown)
  | begin (run : Nat) : ExpectsReview a (.begin run)
  | ended (run : Nat) : ExpectsReview a (.ended run)

end Agenda

namespace Reviewer

open Review

/-- The call waits for a formatter to answer. -/
def IsFormatting (r : Reviewer) (n : Nat) (document : String) : Prop :=
  ∃ c, r.calls.get? n = some c ∧ c.stage = .formatting document .edits

/-- The review is where the agenda may have brought it, with all that it wants done. -/
structure KeepsTo (a : Agenda) (r : Reviewer) : Prop where
  registry : r.registry.KeepsTo a
  calm : r.registry.outbox = []
  buffers : r.buffers = a.buffers
  runs : ∀ run ∈ r.runs, run.dropped = false ∧ ∀ outcome, run.outcome = some outcome →
    ∃ v, outcome = .done v
  calls : ∀ n c, r.calls.get? n = some c → c.aborting = false ∧ a.Waits n c.stage
  linked : ∀ n document, a.errand n = some (.format document) →
    r.registry.calls.get? (.host n) ≠ none → r.IsFormatting n document
  outbox : ∀ e ∈ r.outbox, a.AllowsReview e

variable {a : Agenda} {r : Reviewer} {n k : Nat} {document : String}

theorem KeepsTo.emit (h : r.KeepsTo a) {e : Effect} (allowed : a.AllowsReview e) :
    (r.emit e).KeepsTo a where
  registry := h.registry
  calm := h.calm
  buffers := h.buffers
  runs := h.runs
  calls := h.calls
  linked := h.linked
  outbox e' he' := by
    rcases List.mem_append.1 he' with hold | hnew
    · exact h.outbox e' hold
    · exact List.mem_singleton.1 hnew ▸ allowed

theorem KeepsTo.log (h : r.KeepsTo a) (level : LogLevel) (text : String) : (r.log level text).KeepsTo a :=
  h.emit (.log _)

/-- Sessions and what has been published are of no matter here. -/
theorem KeepsTo.aside (h : r.KeepsTo a) (sessions : Sessions) (sink : DiagnosticSink) :
    KeepsTo a { r with sessions := sessions, sink := sink } :=
  ⟨h.registry, h.calm, h.buffers, h.runs, h.calls, h.linked, h.outbox⟩

/-- A call goes on that does not wait for the registry. -/
theorem KeepsTo.setCall (h : r.KeepsTo a) {stage : Stage} (waits : a.Waits n stage)
    (own : ∀ document, a.errand n = some (.format document) →
      r.registry.calls.get? (.host n) ≠ none → stage = .formatting document .edits) :
    (r.setCall n ⟨stage, false⟩).KeepsTo a where
  registry := h.registry
  calm := h.calm
  buffers := h.buffers
  runs := h.runs
  calls m c call := by
    change (r.calls.put n ⟨stage, false⟩).get? m = some c at call
    rw [Keyed.get?_put] at call
    split at call
    · rename_i hm
      cases call
      exact ⟨rfl, hm ▸ waits⟩
    · exact h.calls m c call
  linked m document errand busy := by
    change ∃ c, (r.calls.put n ⟨stage, false⟩).get? m = some c ∧ _
    rw [Keyed.get?_put]
    split
    · rename_i hm
      subst hm
      exact ⟨_, rfl, own document errand busy⟩
    · exact h.linked m document errand busy
  outbox := h.outbox

/-- A call ends of which the registry knows nothing. -/
theorem KeepsTo.finish (h : r.KeepsTo a) {outcome : Outcome Reply}
    (allowed : a.AllowsReview (.finish n outcome))
    (own : ∀ document, a.errand n = some (.format document) → r.registry.calls.get? (.host n) = none) :
    (r.finish n outcome).KeepsTo a := by
  have hdropped : KeepsTo a { r with calls := r.calls.drop n } := by
    refine ⟨h.registry, h.calm, h.buffers, h.runs, fun m c call => ?_, fun m document errand busy => ?_,
      h.outbox⟩
    · change (r.calls.drop n).get? m = some c at call
      rw [Keyed.get?_drop] at call
      split at call
      · cases call
      · exact h.calls m c call
    · obtain ⟨c, call, hstage⟩ := h.linked m document errand busy
      refine ⟨c, ?_, hstage⟩
      change (r.calls.drop n).get? m = some c
      rw [Keyed.get?_drop, if_neg ?_, call]
      rintro rfl
      exact busy (own document errand)
  exact hdropped.emit allowed

/-! ## Runs -/

theorem KeepsTo.endRun (h : r.KeepsTo a) (k : Nat) (verdict : Verdict) :
    (r.endRun k (.done verdict)).KeepsTo a := by
  refine KeepsTo.emit ?_ (.ended k)
  refine ⟨h.registry, h.calm, h.buffers, fun run hrun => ?_, h.calls, h.linked, h.outbox⟩
  obtain ⟨i, hi⟩ := List.mem_iff_getElem?.1 hrun
  change (r.runs.modify k _)[i]? = some run at hi
  rw [List.getElem?_modify] at hi
  obtain ⟨run', hrun', rfl⟩ := Option.map_eq_some_iff.1 hi
  have hbefore := h.runs run' (List.mem_of_getElem? hrun')
  split
  · refine ⟨hbefore.1, fun outcome houtcome => ?_⟩
    cases houtcome
    exact ⟨verdict, rfl⟩
  · exact hbefore

theorem KeepsTo.cancelNewest (h : r.KeepsTo a) (number : Nat) : (r.cancelNewest number).KeepsTo a := by
  unfold Reviewer.cancelNewest
  split
  · exact h.emit (.cancel _)
  · exact h

theorem KeepsTo.dispatch (h : r.KeepsTo a) (number : Nat) (document : String) :
    (r.dispatch number document).1.KeepsTo a := by
  have hcancelled := h.cancelNewest number
  unfold Reviewer.dispatch
  refine KeepsTo.emit ?_ (.begin _)
  refine ⟨hcancelled.registry, hcancelled.calm, hcancelled.buffers, fun run hrun => ?_, hcancelled.calls,
    hcancelled.linked, hcancelled.outbox⟩
  rcases List.mem_append.1 hrun with hold | hnew
  · exact hcancelled.runs run hold
  · rw [List.mem_singleton.1 hnew]
    exact ⟨rfl, nofun⟩

theorem KeepsTo.diagnose (h : r.KeepsTo a) (document : String) : (r.diagnose document).1.KeepsTo a := by
  unfold Reviewer.diagnose
  dsimp only
  split
  · exact h.log _ _
  · exact (h.aside _ r.sink).dispatch _ _

theorem KeepsTo.publish (h : r.KeepsTo a) (run : Run) (verdict : Verdict) :
    (r.publish run verdict).KeepsTo a := by
  unfold Reviewer.publish
  split
  · exact h
  · split
    · exact h.log _ _
    · split
      · exact h.aside _ _
      · exact h.log _ _

/-- The end of a run that was never dispatched is nobody's. -/
theorem KeepsTo.completeRun (h : r.KeepsTo a) (k : Nat) (verdict : Verdict) :
    (r.completeRun k (.done (.checked verdict))).KeepsTo a := by
  have hstopped := h.emit (.stopped k)
  unfold Reviewer.completeRun
  dsimp only
  cases hrun : (r.emit (.stopped k)).runs[k]? with
  | some run => exact (hstopped.publish run verdict).endRun k verdict
  | none =>
      have hsame : (r.emit (.stopped k)).setRun k (fun run => { run with outcome := some .aborted }) =
          r.emit (.stopped k) := by
        unfold setRun
        rw [List.modify_eq_self (List.getElem?_eq_none_iff.1 hrun)]
      refine KeepsTo.emit ?_ (.ended k)
      rw [hsame]
      exact hstopped

/-! ## The ends of calls -/

theorem diagnose_registry (r : Reviewer) (document : String) :
    (r.diagnose document).1.registry = r.registry := by
  have hcarries : Carries (fun _ => False) r (r.diagnose document).1 := .of_diagnose rfl
  exact hcarries.minds.registry

/-- A verdict without edits that says what is wrong waits for a check of the document. -/
theorem KeepsTo.completeFormat (h : r.KeepsTo a) (errand : a.errand n = some (.format document))
    {v : FormatVerdict} (verdict : a.verdict n v) (gone : r.registry.calls.get? (.host n) = none) :
    (r.completeFormat n document .edits v).KeepsTo a := by
  have hends {r' : Reviewer} (h' : r'.KeepsTo a) (same : r'.registry = r.registry) :
      (r'.finish n (.done (.formatted v))).KeepsTo a :=
    h'.finish (.formatted errand verdict) fun _ _ => by rw [same, gone]
  have hdiagnosed := h.diagnose document
  have hsame := r.diagnose_registry document
  unfold Reviewer.completeFormat
  split
  · exact hends h rfl
  · split
    · split
      · rename_i r₁ run hdiagnose
        rw [hdiagnose] at hdiagnosed hsame
        refine hdiagnosed.setCall (.refreshing errand run verdict) fun _ _ busy => absurd ?_ busy
        rw [hsame, gone]
      · rename_i r₁ hdiagnose
        rw [hdiagnose] at hdiagnosed hsame
        exact hends hdiagnosed hsame
    · exact hends h rfl

/-- What the registry has ended: a format that the review waits for, or the start of the plugins. -/
theorem KeepsTo.completeCall (h : r.KeepsTo a) {outcome : Outcome Registry.Reply}
    (allowed : a.Allows (.finish (.host n) outcome))
    (ready : ∀ document, a.errand n = some (.format document) →
      r.registry.calls.get? (.host n) = none ∧ r.IsFormatting n document) :
    (r.completeCall n outcome).KeepsTo a := by
  unfold Reviewer.completeCall
  cases allowed with
  | formatted errand verdict =>
      obtain ⟨gone, c, call, hstage⟩ := ready _ errand
      simp only [call, Option.map_some, hstage]
      exact h.completeFormat errand verdict gone
  | counted errand count =>
      cases hcall : r.calls.get? n with
      | none => exact h.emit (.counted errand count)
      | some c =>
          have hwaits := (h.calls n c hcall).2
          generalize hstage : c.stage = stage at hwaits
          cases hwaits with
          | formatting errand' => simp [errand] at errand'
          | refreshing errand' => simp [errand] at errand'
          | closing errand' => simp [errand] at errand'

/-! ## The registry below -/

/-- What one step of the registry wants done, of whose calls it has ended one at most. -/
theorem KeepsTo.absorb (effects : List Registry.Effect) (h : r.KeepsTo a)
    (allowed : ∀ e ∈ effects, a.Allows e)
    (single : (effects.filterMap Registry.Effect.finish?).length ≤ 1)
    (ready : ∀ n outcome document, .finish (.host n) outcome ∈ effects →
      a.errand n = some (.format document) →
        r.registry.calls.get? (.host n) = none ∧ r.IsFormatting n document) :
    (effects.foldl Reviewer.absorb r).KeepsTo a := by
  induction effects generalizing r with
  | nil => exact h
  | cons e rest ih =>
      have hallowed := allowed e List.mem_cons_self
      have hrest : ∀ e ∈ rest, a.Allows e := fun e he => allowed e (List.mem_cons_of_mem _ he)
      rw [List.foldl_cons]
      -- Unless the effect ends a call, the calls stay as they are.
      have hemit {effect : Effect} (hnone : e.finish? = none) (habsorb : r.absorb e = r.emit effect)
          (hfits : a.AllowsReview effect) : (rest.foldl Reviewer.absorb (r.absorb e)).KeepsTo a := by
        rw [habsorb]
        refine ih (h.emit hfits) hrest ?_ fun n outcome document hmem =>
          ready n outcome document (List.mem_cons_of_mem _ hmem)
        rwa [List.filterMap_cons_none hnone] at single
      have hend {key : CallKey} {outcome : Outcome Registry.Reply} (hsome : e = .finish key outcome)
          (hgone : (r.absorb e).KeepsTo a) : (rest.foldl Reviewer.absorb (r.absorb e)).KeepsTo a := by
        have hnone : rest.filterMap Registry.Effect.finish? = [] := by
          have hfinish : Registry.Effect.finish? (.finish key outcome) = some (key, outcome) := rfl
          rw [hsome, List.filterMap_cons_some hfinish, List.length_cons] at single
          exact List.length_eq_zero_iff.1 (by omega)
        refine ih hgone hrest (by simp [hnone]) fun n outcome document hmem => ?_
        have hlost : (CallKey.host n, outcome) ∈ rest.filterMap Registry.Effect.finish? :=
          List.mem_filterMap.2 ⟨_, hmem, rfl⟩
        rw [hnone] at hlost
        cases hlost
      cases hallowed with
      | later due => exact hemit rfl rfl (.registry due)
      | probe errand part p => exact hemit rfl rfl (.ask (.probe errand part p))
      | format errand options formatter asks =>
          exact hemit rfl rfl (.ask (.format errand options formatter asks))
      | check n part p document options => exact hemit rfl rfl (.ask (.check n part p document options))
      | log record => exact hemit rfl rfl (.log record)
      | checked n v => exact hend rfl (h.completeRun n v)
      | counted errand count =>
          exact hend rfl (h.completeCall (.counted errand count)
            fun document => ready _ _ document List.mem_cons_self)
      | formatted errand verdict =>
          exact hend rfl (h.completeCall (.formatted errand verdict)
            fun document => ready _ _ document List.mem_cons_self)

theorem KeepsTo.tellRegistry (h : r.KeepsTo a) (fair : a.IsFair) {e : Registry.Event}
    (expected : a.Expects e) (heeds : r.registry.Heeds a r.buffers e)
    (waits : ∀ n document options, e = .call (.host n) (.format document options) →
      r.IsFormatting n document) : (r.tellRegistry e).KeepsTo a := by
  have hstep := h.registry.step h.calm fair expected heeds
  have hsingle : (r.registry.step r.buffers e).finishes.length ≤ 1 := by
    rcases Registry.step_finishes h.calm r.buffers e with hnone | ⟨key, outcome, hone⟩
    · simp [hnone]
    · simp [hone]
  have hlinked : ∀ n document, a.errand n = some (.format document) →
      (r.registry.calls.get? (.host n) ≠ none ∨ ∃ request, e = .call (.host n) request) →
        r.IsFormatting n document := by
    rintro n document errand (hbusy | ⟨request, rfl⟩)
    · exact h.linked n document errand hbusy
    · cases expected with
      | replace errand' => simp [errand] at errand'
      | format errand' options =>
          rw [errand] at errand'
          cases errand'
          exact waits n document options rfl
      | due due => cases due
  have hregistry : Registry.KeepsTo a { r.registry.step r.buffers e with outbox := [] } :=
    ⟨hstep.plugins, hstep.calls, fun e he => by cases he⟩
  have hstepped : KeepsTo a { r with registry := { r.registry.step r.buffers e with outbox := [] } } := by
    refine ⟨hregistry, rfl, h.buffers, h.runs, h.calls, fun n document errand hbusy => ?_, h.outbox⟩
    exact hlinked n document errand (Registry.step_calls h.calm r.buffers hbusy)
  refine hstepped.absorb _ hstep.outbox hsingle fun n outcome document hmem errand => ?_
  have hended : (CallKey.host n, outcome) ∈ (r.registry.step r.buffers e).finishes :=
    List.mem_filterMap.2 ⟨_, hmem, rfl⟩
  obtain ⟨hgone, hcalled⟩ := Registry.step_ends h.calm r.buffers hended
  exact ⟨hgone, hlinked n document errand hcalled⟩

/-! ## Steps -/

theorem KeepsTo.shutdown (h : r.KeepsTo a) (errand : a.errand n = some .shutdown) :
    (r.shutdown n).KeepsTo a := by
  have hcancelled (numbers : List Nat) : (numbers.foldl Reviewer.cancelNewest r).KeepsTo a := by
    induction numbers generalizing r with
    | nil => exact h
    | cons number rest ih => exact ih (h.cancelNewest number)
  have hclosed := (hcancelled r.sessions.registered.values).aside
    (r.sessions.registered.values.foldl Reviewer.cancelNewest r).sessions.closeAll
    (r.sessions.registered.values.foldl Reviewer.cancelNewest r).sink
  unfold Reviewer.shutdown
  dsimp only
  split
  · exact hclosed.finish (.settled errand) fun document errand' => by simp [errand] at errand'
  · exact hclosed.setCall (.closing errand _) fun document errand' => by simp [errand] at errand'

/-- A call goes on after a run, which came to a verdict. -/
theorem KeepsTo.resume (h : r.KeepsTo a) {c : Call} (call : r.calls.get? n = some c) (k : Nat)
    (verdict : Verdict) : (r.resume n k (.done verdict) c).KeepsTo a := by
  obtain ⟨haborting, hwaits⟩ := h.calls n c call
  obtain ⟨stage, aborting⟩ := c
  cases haborting
  unfold Reviewer.resume
  split
  · exact h
  · cases hwaits with
    | formatting errand => exact h
    | refreshing errand run verdict' =>
        refine h.finish (.formatted errand verdict') fun document errand' => ?_
        -- The registry would still be at work on a call that waits for a formatter.
        by_contra hbusy
        obtain ⟨c', call', hstage⟩ := h.linked n document errand' hbusy
        rw [call] at call'
        cases call'
        cases hstage
    | closing errand runs =>
        have hother : ∀ document, a.errand n ≠ some (.format document) := by simp [errand]
        dsimp only
        split
        · exact h.setCall (.closing errand _) fun document errand' => absurd errand' (hother document)
        · exact h.finish (.settled errand) fun document errand' => absurd errand' (hother document)

theorem KeepsTo.foldl {f : Reviewer → Nat → Reviewer} (keeps : ∀ r n, r.KeepsTo a → (f r n).KeepsTo a)
    (numbers : List Nat) (h : r.KeepsTo a) : (numbers.foldl f r).KeepsTo a := by
  induction numbers generalizing r with
  | nil => exact h
  | cons n rest ih => exact ih (keeps r n h)

theorem KeepsTo.ended (h : r.KeepsTo a) (k : Nat) : (r.ended k).KeepsTo a := by
  unfold Reviewer.ended
  cases houtcome : r.runs[k]?.bind (·.outcome) with
  | none => exact h
  | some outcome =>
      obtain ⟨run, hrun, houtcome⟩ := Option.bind_eq_some_iff.1 houtcome
      obtain ⟨verdict, rfl⟩ := (h.runs run (List.mem_of_getElem? hrun)).2 outcome houtcome
      refine KeepsTo.foldl (fun r n h => ?_) _ h
      split
      · rename_i c call
        exact h.resume call k verdict
      · exact h

/-- What a step is told of the formats. -/
structure Heeds (a : Agenda) (r : Reviewer) (e : Event) : Prop where
  asks : ∀ n document token, e = .call n (.format document token) → a.asks n
  told : ∀ n document p i answer, e = .registry (.answered (.host n) i answer) →
    a.errand n = some (.format document) → p.IsFormatter →
    a.verdict n (Registry.formatShare p (a.buffers.find document) answer)
  unasked : ∀ n document token, e = .call n (.format document token) → (r.step e).asked = [] →
    a.verdict n { toVerdict := Verdict.merge [] }

theorem KeepsTo.step (h : r.KeepsTo a) (outbox : r.outbox = []) (fair : a.IsFair) {e : Event}
    (expected : a.ExpectsReview e) (heeds : r.Heeds a e) : (r.step e).KeepsTo a := by
  have hnone : r.asked = [] := by rw [asked, outbox]; rfl
  cases expected with
  | registry expected own =>
      refine h.tellRegistry fair expected ⟨fun n document options heq => ?_, ?_, fun n document options heq => ?_⟩
        fun n document options heq => absurd heq (own n document options)
      · exact absurd heq (own n document options)
      · rw [h.buffers]
        rintro n document p i answer rfl
        exact heeds.told n document p i answer rfl
      · exact absurd heq (own n document options)
  | format errand token =>
      have hset := h.setCall (.formatting errand) fun document errand' _ => by
        rw [errand] at errand'
        cases errand'
        rfl
      refine hset.tellRegistry fair (.format errand _) ⟨?_, ?_, ?_⟩ ?_
      · intro m document options heq
        cases heq
        exact heeds.asks _ _ token rfl
      · intro m document p i answer heq
        cases heq
      · intro m document options heq hasks
        cases heq
        refine heeds.unasked _ _ token rfl ?_
        change (Reviewer.tellRegistry _ _).asked = []
        rw [tellRegistry_asked]
        exact (congrArg (r.asked ++ ·) hasks).trans (by rw [hnone]; rfl)
      · intro m document options heq
        cases heq
        exact ⟨_, Keyed.get?_put_self _ _ _, rfl⟩
  | shutdown errand => exact h.shutdown errand
  | begin k =>
      cases hrun : r.runs[k]? with
      | none =>
          simp only [Reviewer.step, hrun]
          exact h
      | some run =>
          have hdropped := (h.runs run (List.mem_of_getElem? hrun)).1
          simp only [Reviewer.step, hrun, Reviewer.begin, hdropped, Bool.false_eq_true, if_false]
          refine (h.emit (.started k)).tellRegistry fair (.check k _ _) ⟨?_, ?_, ?_⟩ ?_
          · intro m document options heq
            cases heq
          · intro m document p i answer heq
            cases heq
          · intro m document options heq
            cases heq
          · intro m document options heq
            cases heq
  | ended k => exact h.ended k

/-- No more than one plugin is asked when a format begins. -/
theorem KeepsTo.length_asked_format (h : r.KeepsTo a) (outbox : r.outbox = []) (n : Nat) (document : String)
    (token : Option Token) : (r.step (.call n (.format document token))).asked.length ≤ 1 := by
  have hnone : r.asked = [] := by rw [asked, outbox]; rfl
  have hasked : (r.step (.call n (.format document token))).asked = r.asked ++
      (r.registry.step r.buffers (.call (.host n) (.format document ⟨token, r.timeout⟩))).asks :=
    tellRegistry_asked (r.setCall n ⟨.formatting document .edits, false⟩) _
  rw [hasked, hnone, List.nil_append]
  exact Registry.length_asks_format h.calm r.buffers _ document _

theorem KeepsTo.mono {b : Agenda} (h : r.KeepsTo a) (outbox : r.outbox = []) (errand : b.errand = a.errand)
    (buffers : b.buffers = a.buffers) (verdict : ∀ n v, a.verdict n v → b.verdict n v) : r.KeepsTo b where
  registry := h.registry.mono h.calm errand
  calm := h.calm
  buffers := h.buffers.trans buffers.symm
  runs := h.runs
  calls n c call := by
    obtain ⟨haborting, hwaits⟩ := h.calls n c call
    obtain ⟨stage, aborting⟩ := c
    refine ⟨haborting, ?_⟩
    cases hwaits with
    | formatting errand' => exact .formatting (errand ▸ errand')
    | refreshing errand' run verdict' => exact .refreshing (errand ▸ errand') run (verdict n _ verdict')
    | closing errand' runs => exact .closing (errand ▸ errand') runs
  linked n document errand' := h.linked n document (errand ▸ errand')
  outbox e he := by rw [outbox] at he; cases he

end Reviewer

end Shellwright
