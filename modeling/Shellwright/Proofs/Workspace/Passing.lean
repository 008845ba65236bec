import Shellwright.Proofs.Review.Passing
import Shellwright.Proofs.Workspace.Steps
/-!
# What a workspace passes on

A step of a workspace is a step of its registry, or leaves the registry as it is, and only the calls
that the step is about go on or end.
-/

namespace Shellwright.Workspace

open Review

/-- What concerns the registry. -/
def Effect.passed? : Effect → Option Registry.Effect
  | .later (.review (.registry event)) => some (.later event)
  | .ask key part plugin question => some (.ask key part plugin question)
  | _ => none

def passed (w : Workspace) : List Registry.Effect :=
  w.outbox.filterMap Effect.passed?

/-- The call that has ended. -/
def Ending.number : Ending → Nat
  | .review n _ => n
  | .registry n _ => n

/-- The registry has become `registry`, and the effects are passed on that concern it; only the calls
`own` have changed. -/
structure Leads (own : Nat → Prop) (registry : Registry) (effects : List Registry.Effect)
    (w w' : Workspace) : Prop where
  registry : w'.registry = registry
  passed : w'.passed = w.passed ++ effects.filter Registry.Effect.passes
  settings : w'.settings = w.settings
  loader : w'.loader = w.loader
  made : w'.made = w.made
  calls : ∀ n, ¬own n → w'.calls.get? n = w.calls.get? n
  reviews : ∀ n, ¬own n → w.reviewer.calls.get? n = none → w'.reviewer.calls.get? n = none
  closing : ∀ n, w'.calls.get? n = some .closing → w.calls.get? n = some .closing
  calm : w'.reviewer.outbox = []

variable {w w' w'' : Workspace} {own : Nat → Prop} {registry registry' : Registry}
  {effects effects' : List Registry.Effect} {n : Nat}

theorem Leads.trans (h : Leads own registry effects w w')
    (h' : Leads own registry' effects' w' w'') :
    Leads own registry' (effects ++ effects') w w'' where
  registry := h'.registry
  passed := by rw [h'.passed, h.passed, List.filter_append, List.append_assoc]
  settings := h'.settings.trans h.settings
  loader := h'.loader.trans h.loader
  made := h'.made.trans h.made
  calls n hn := (h'.calls n hn).trans (h.calls n hn)
  reviews n hn hnone := h'.reviews n hn (h.reviews n hn hnone)
  closing n hcall := h.closing n (h'.closing n hcall)
  calm := h'.calm

/-- What comes after it leaves the registry as it is. -/
theorem Leads.then (h : Leads own registry effects w w') (h' : Leads own w'.registry [] w' w'') :
    Leads own registry effects w w'' := by
  have htrans := h.trans h'
  rwa [h.registry, List.append_nil] at htrans

theorem Leads.refl (calm : w.reviewer.outbox = []) : Leads own w.registry [] w w :=
  ⟨rfl, by simp, rfl, rfl, rfl, fun _ _ => rfl, fun _ _ h => h, fun _ h => h, calm⟩

/-! ## Calls that go on -/

theorem passed_emit (w : Workspace) (e : Effect) :
    (w.emit e).passed = w.passed ++ (Effect.passed? e).toList := by
  unfold passed emit
  rw [List.filterMap_append]
  cases h : Effect.passed? e <;> simp [h]

theorem log_leads (calm : w.reviewer.outbox = []) (level : LogLevel) (text : String) :
    Leads own w.registry [] w (w.log level text) where
  registry := rfl
  passed := passed_emit w _
  settings := rfl
  loader := rfl
  made := rfl
  calls _ _ := rfl
  reviews _ _ h := h
  closing _ h := h
  calm := calm

theorem finish_leads (calm : w.reviewer.outbox = []) (mine : own n) (outcome : Outcome Reply) :
    Leads own w.registry [] w (w.finish n outcome) where
  registry := rfl
  passed := passed_emit _ _
  settings := rfl
  loader := rfl
  made := rfl
  calls m hm := by
    change (w.calls.drop n).get? m = _
    rw [Keyed.get?_drop, if_neg]
    rintro rfl
    exact hm mine
  reviews _ _ h := h
  closing m h := by
    change (w.calls.drop n).get? m = _ at h
    rw [Keyed.get?_drop] at h
    split at h
    · cases h
    · exact h
  calm := calm

theorem setCall_leads (calm : w.reviewer.outbox = []) (mine : own n) {stage : Stage}
    (running : stage ≠ .closing) : Leads own w.registry [] w (w.setCall n stage) where
  registry := rfl
  passed := by simp [passed, setCall]
  settings := rfl
  loader := rfl
  made := rfl
  calls m hm := by
    refine Keyed.get?_put_of_ne stage ?_
    rintro rfl
    exact hm mine
  reviews _ _ h := h
  closing m h := by
    change (w.calls.put n stage).get? m = _ at h
    rw [Keyed.get?_put] at h
    split at h
    · exact absurd (Option.some.inj h) running
    · exact h
  calm := calm

theorem passed_foldl_absorb (effects : List Review.Effect) (w : Workspace) :
    (effects.foldl absorb w).passed = w.passed ++ effects.filterMap Review.Effect.passed? := by
  induction effects generalizing w with
  | nil => simp
  | cons effect rest ih =>
      have hfirst : (w.absorb effect).passed =
          w.passed ++ (Review.Effect.passed? effect).toList := by
        cases effect with
        | later event =>
            rw [absorb, passed_emit]
            cases event <;> rfl
        | finish n outcome => simp [absorb, Review.Effect.passed?]
        | finishRegistry n outcome => simp [absorb, Review.Effect.passed?]
        | _ => exact passed_emit w _
      rw [List.foldl_cons, ih, hfirst]
      cases h : Review.Effect.passed? effect <;> simp [h]

/-- What the review does in a step; the calls that it ends are among `own`. -/
theorem tell_leads {e : Review.Event} (calm : w.reviewer.outbox = [])
    (leads : Reviewer.Leads own registry effects w.reviewer (w.reviewer.step e)) :
    Leads own registry effects w (w.tell e).1 ∧ ∀ ending ∈ (w.tell e).2, own ending.number := by
  have hpassed : (w.tell e).1.passed = w.passed ++ (w.reviewer.step e).passed :=
    passed_foldl_absorb _ _
  obtain ⟨out, hout⟩ := tell_eq w e
  refine ⟨⟨?_, ?_, ?_, ?_, ?_, ?_, ?_, ?_, ?_⟩, fun ending hending => ?_⟩
  · rw [hout]
    exact leads.registry
  · have hbefore : w.reviewer.passed = [] := by rw [Reviewer.passed, calm]; rfl
    rw [hpassed, leads.passed, hbefore, List.nil_append]
  · rw [hout]
  · rw [hout]
  · rw [hout]
  · rw [hout]
    exact fun _ _ => rfl
  · rw [hout]
    intro n hn hnone
    exact Classical.byContradiction fun hcall => (leads.calls n hcall).elim (· hnone) hn
  · rw [hout]
    exact fun _ h => h
  · rw [hout]
  · obtain ⟨effect, heffect, hof⟩ := List.mem_filterMap.1 hending
    have hended : Review.Effect.ended? effect = some ending.number := by
      cases effect <;> cases hof <;> rfl
    have hmem : ending.number ∈ (w.reviewer.step e).endings :=
      List.mem_filterMap.2 ⟨effect, heffect, hended⟩
    rcases leads.endings _ hmem with hbefore | hown
    · rw [Reviewer.endings, calm] at hbefore
      cases hbefore
    · exact hown

/-- The plugins are in place, and all that is open is going to be checked. -/
theorem rebuilt_leads (calm : w.reviewer.outbox = []) (mine : own n) :
    Leads own w.registry [] w
      (if ((w.setCall n .diagnosing).tell (.call n (.diagnoseAll w.documents.values))).2.isEmpty then
        ((w.setCall n .diagnosing).tell (.call n (.diagnoseAll w.documents.values))).1
      else
        ((w.setCall n .diagnosing).tell (.call n (.diagnoseAll w.documents.values))).1.finish n
          (.done .settled)) := by
  have hset : Leads own w.registry [] w (w.setCall n .diagnosing) := setCall_leads calm mine nofun
  have hreview : Reviewer.Leads own (w.setCall n .diagnosing).registry []
      (w.setCall n .diagnosing).reviewer
      ((w.setCall n .diagnosing).reviewer.step (.call n (.diagnoseAll w.documents.values))) :=
    (Reviewer.call_diagnoseAll_carries _ mine _).minds.leads
  have htold := hset.then (tell_leads hset.calm hreview).1
  split
  · exact htold
  · have hfinish := finish_leads htold.calm mine (.done .settled)
    exact htold.then hfinish

theorem passOn_leads (calm : w.reviewer.outbox = []) (e : Ending) (mine : own e.number) :
    Leads own w.registry [] w (w.passOn e) := by
  cases e with
  | review n outcome => exact finish_leads calm mine _
  | registry n outcome => exact finish_leads calm mine _

theorem conclude_leads (calm : w.reviewer.outbox = []) (e : Ending) (mine : own e.number)
    (running : w.calls.get? e.number ≠ some .closing) :
    Leads own w.registry [] w (w.conclude e) := by
  unfold conclude
  simp only
  split
  · have hlog (text : String) : Leads own w.registry [] w (w.log .info text) :=
      log_leads calm .info text
    exact (hlog _).then (finish_leads (hlog _).calm mine _)
  · have hlog (text : String) : Leads own w.registry [] w (w.log .info text) :=
      log_leads calm .info text
    exact (hlog _).then (rebuilt_leads (hlog _).calm mine)
  · exact finish_leads calm mine _
  · rename_i call
    exact absurd call running
  · exact finish_leads calm mine _
  · exact finish_leads calm mine _
  · exact finish_leads calm mine _
  · exact passOn_leads calm _ mine

theorem foldl_conclude_leads (endings : List Ending) (calm : w.reviewer.outbox = [])
    (mine : ∀ ending ∈ endings, own ending.number)
    (running : ∀ n, w.calls.get? n ≠ some .closing) :
    Leads own w.registry [] w (endings.foldl conclude w) := by
  induction endings generalizing w with
  | nil => exact .refl calm
  | cons ending rest ih =>
      have hfirst := conclude_leads calm ending (mine ending List.mem_cons_self)
        (running ending.number)
      refine hfirst.then (ih hfirst.calm (fun e he => mine e (List.mem_cons_of_mem _ he)) ?_)
      exact fun n hcall => running n (hfirst.closing n hcall)

/-- A step of the review, with all that follows from it. -/
theorem tellReview_leads {e : Review.Event} (calm : w.Calm)
    (leads : Reviewer.Leads own registry effects w.reviewer (w.reviewer.step e))
    (running : ∀ n, w.calls.get? n ≠ some .closing) :
    Leads own registry effects w (w.tellReview e) := by
  obtain ⟨htold, hmine⟩ := tell_leads calm.reviewer leads
  refine htold.then (foldl_conclude_leads _ htold.calm hmine ?_)
  exact fun n hcall => running n (htold.closing n hcall)

end Shellwright.Workspace
