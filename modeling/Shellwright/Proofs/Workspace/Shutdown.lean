import Shellwright.Proofs.Registry.Claiming
import Shellwright.Proofs.Workspace.Closing
import Shellwright.Proofs.Workspace.Passing
/-!
# Shutdown

When a shutdown has returned nothing is active, no session is registered and nothing is published, and
that lasts as long as no new call is made, except for calls that were under way: one that is to change
what is active ends by activating plugins, and one that may have a document checked opens a session.
-/

namespace Shellwright

/-- The event is a call that comes from outside. -/
def Registry.Event.IsCall : Registry.Event → Prop
  | .register _ => True
  | .unregister _ => True
  | .clear => True
  | .deactivate _ => True
  | .deactivateAll => True
  | .call _ _ => True
  | _ => False

/-- The event is a call that comes from outside; the review itself calls the registry for its runs. -/
def Review.Event.IsCall : Review.Event → Prop
  | .registry e => e.IsCall
  | .call _ _ => True
  | .change _ => True
  | .close _ => True
  | .configure .. => True
  | _ => False

/-- The event is a call that comes from outside. -/
def Workspace.Event.IsCall : Workspace.Event → Prop
  | .review e => e.IsCall
  | .call _ _ => True
  | .change _ => True
  | .close _ => True
  | .abort _ => False

/-! ## Without new calls: the review -/

namespace Reviewer

open Review

variable {r : Reviewer} {e : Event}

theorem step_wanes (calm : r.registry.outbox = []) (old : ¬e.IsCall) :
    r.registry.Wanes (r.step e).registry := by
  have hclear : { r.registry with outbox := [] } = r.registry := by rw [← calm]
  by_cases haborts : ∃ n, e = .abort n
  · obtain ⟨n, rfl⟩ := haborts
    refine abort_registry (P := r.registry.Wanes) (fun registry buffers key hcalm hwanes => ?_) calm
      (.refl _) n
    exact hwanes.trans (Registry.step_wanes hcalm buffers nofun)
  · rw [(step_leads calm fun n heq => haborts ⟨n, heq⟩).registry, reached]
    cases hconveyed : r.conveyed e with
    | none =>
        simp only [hclear]
        exact .refl _
    | some event =>
        refine Registry.step_wanes calm r.buffers ?_
        rintro key request rfl
        cases e with
        | registry event =>
            cases hconveyed
            exact absurd trivial old
        | begin n =>
            -- The review calls the registry to check a document.
            simp only [conveyed] at hconveyed
            split at hconveyed
            · split at hconveyed
              · cases hconveyed
              · cases hconveyed
                rfl
            · cases hconveyed
        | call n request => exact absurd trivial old
        | _ => cases hconveyed

theorem shutdown_desk (r : Reviewer) (n : Nat) : (r.shutdown n).desk = r.desk.shut := by
  obtain ⟨out, hout⟩ := foldl_mutters cancelNewest_mutters r r.sessions.registered.values
  unfold shutdown
  simp only [hout]
  split
  · rfl
  · rfl

end Reviewer

namespace Review

variable {d d' : Desk} {may : String → Prop} {b : Buffers} {e : Event}

theorem registered_supersede (s : Sessions) (n : Nat) : (s.supersede n).registered = s.registered := by
  unfold Sessions.supersede Sessions.cancelNewest
  simp only
  split
  · rfl
  · rfl

theorem registered_elapse (d : Desk) (n : Nat) (document : String) :
    (d.elapse n document).sessions.registered = d.sessions.registered :=
  registered_supersede (d.sessions.cancelPending n) n

theorem registered_obtain_ne_nil (s : Sessions) (uri : String) : (s.obtain uri).1.registered ≠ [] := by
  unfold Sessions.obtain
  split
  · rename_i n hget
    intro hnil
    rw [Sessions.get?, hnil] at hget
    cases hget
  · intro hnil
    have hput := Keyed.get?_put_self s.registered uri s.all.length
    change s.registered.put uri s.all.length = [] at hnil
    rw [hnil] at hput
    cases hput

theorem Sound.registered_ne_nil (h : Sound d) {n : Nat} {session : Session}
    (session_eq : d.sessions.at? n = some session) (is_open : session.closed = false) :
    d.sessions.registered ≠ [] := by
  intro hnil
  have hget := h.listed n session session_eq is_open
  rw [Sessions.get?, hnil] at hget
  cases hget

/-- Without a call from outside a desk without sessions stays so and publishes nothing, unless
something has a document checked. -/
theorem Does.unregistered (does : Does may b e d d') (sound : Sound d) (old : ¬e.IsCall)
    (none : d.sessions.registered = []) :
    d'.sessions.registered = [] ∧ d'.sink = d.sink ∨
      ∃ document, may document ∧ ∃ run, d'.runs = d.runs ++ [run] ∧ run.document = document := by
  cases does with
  | rests sessions runs sink => exact .inl ⟨by rw [sessions, none], sink⟩
  | publishes n run session verdict run_eq session_eq conclusive newest desk =>
      have hopen : session.closed = false := by
        have hnot := (Bool.and_eq_true_iff.1 (Bool.and_eq_true_iff.1 newest).1).1
        simpa using hnot
      exact absurd none (sound.registered_ne_nil session_eq hopen)
  | diagnoses document allowed shell desk =>
      subst desk
      exact .inr ⟨document, allowed, _, rfl, rfl⟩
  | elapses number session debounce event session_eq pending desk =>
      have hopen : session.closed = false := by
        cases hclosed : session.closed with
        | false => rfl
        | true =>
            rw [sound.quiet number session session_eq hclosed] at pending
            cases pending
      exact absurd none (sound.registered_ne_nil session_eq hopen)
  | arms document debounce event own desk =>
      subst event
      exact absurd trivial old
  | closes document event desk =>
      subst event
      exact absurd trivial old
  | shuts n event desk =>
      subst event
      exact absurd trivial old

/-- Without a call from outside no session is given up, and there is one when a run is dispatched. -/
theorem Does.registers (does : Does may b e d d') (sound : Sound d) (old : ¬e.IsCall)
    (some : d.sessions.registered ≠ [] ∨ d.runs.length < d'.runs.length) :
    d'.sessions.registered ≠ [] := by
  cases does with
  | rests sessions runs sink =>
      have hlength : d'.runs.length = d.runs.length := by
        simpa using congrArg List.length runs
      rw [sessions]
      exact some.resolve_right (by omega)
  | publishes n run session verdict run_eq session_eq conclusive newest desk =>
      subst desk
      refine some.resolve_right ?_
      simp [Desk.publish]
  | diagnoses document allowed shell desk =>
      subst desk
      rw [Desk.diagnose, registered_elapse]
      exact registered_obtain_ne_nil _ _
  | elapses number session debounce event session_eq pending desk =>
      subst desk
      rw [registered_elapse]
      have hopen : session.closed = false := by
        cases hclosed : session.closed with
        | false => rfl
        | true =>
            rw [sound.quiet number session session_eq hclosed] at pending
            cases pending
      exact sound.registered_ne_nil session_eq hopen
  | arms document debounce event own desk =>
      subst event
      exact absurd trivial old
  | closes document event desk =>
      subst event
      exact absurd trivial old
  | shuts n event desk =>
      subst event
      exact absurd trivial old

end Review

namespace Workspace

open Review

variable {w : Workspace} {n : Nat}

/-! ## Without new calls: the workspace -/

theorem passOn_registry (w : Workspace) (ending : Ending) :
    (w.passOn ending).registry = w.registry := by
  cases ending <;> rfl

theorem conclude_wanes (calm : w.Calm) (ending : Ending) :
    w.registry.Wanes (w.conclude ending).registry := by
  unfold conclude
  simp only
  split
  · exact .refl _
  · rename_i k call
    have hleads (n : Nat) : Leads (fun _ => True) _ _ _ _ := rebuilt_leads (n := n)
      (w := w.log .info s!"configuration changed, {k} plugin(s) active") calm.reviewer trivial
    rw [(hleads _).registry]
    exact .refl _
  · exact .refl _
  · exact Registry.deactivateAll_wanes _
  · exact .refl _
  · exact .refl _
  · exact .refl _
  · rw [passOn_registry]
    exact .refl _

theorem foldl_conclude_wanes (endings : List Ending) (calm : w.Calm) :
    w.registry.Wanes (endings.foldl conclude w).registry := by
  induction endings generalizing w with
  | nil => exact .refl _
  | cons ending rest ih =>
      exact (conclude_wanes calm ending).trans (ih ((conclude_rests w ending).calm calm))

theorem tellReview_wanes (calm : w.Calm) {e : Review.Event} (old : ¬e.IsCall) :
    w.registry.Wanes (w.tellReview e).registry := by
  have hstep : w.registry.Wanes (w.tell e).1.registry := by
    obtain ⟨out, hout⟩ := tell_eq w e
    rw [hout]
    exact Reviewer.step_wanes calm.registry old
  have hcalm : (w.tell e).1.Calm :=
    (tell_tells (Reviewer.step_acts calm.registry e)).calm calm
  exact hstep.trans (foldl_conclude_wanes _ hcalm)

theorem tellReview_does (calm : w.Calm) (e : Review.Event) :
    Does (fun document => e.Names document ∨ ∃ n, w.reviewer.Awaits n document) w.reviewer.buffers e
      w.desk (w.tellReview e).desk := by
  rw [(tell_rests w e).desk]
  exact (tell_tells (Reviewer.step_acts calm.registry e)).acts.desk

/-- A step that is no call from outside is one of the review. -/
theorem step_tells {e : Event} (old : ¬e.IsCall) :
    ∃ e', ¬e'.IsCall ∧ w.step e = w.tellReview e' := by
  cases e with
  | review e' => exact ⟨e', old, rfl⟩
  | abort n =>
      unfold step abort
      simp only
      split
      · exact ⟨.abort n, id, rfl⟩
      · exact ⟨.registry (.abort (.host n)), id, rfl⟩
  | _ => exact absurd trivial old

/-! ## The end of a shutdown -/

/-- The shutdown `n` is under way or is over, and it has not returned unless nothing is active. -/
structure Shuts (n : Nat) (w : Workspace) : Prop where
  stage : w.calls.get? n = some .closing ∨ w.calls.get? n = none
  returned : .finish n (.done .settled) ∈ w.outbox → w.registry.active = []

theorem Shuts.ne (h : w.Shuts n) {m : Nat} {stage : Stage} (call : w.calls.get? m = some stage)
    (other : stage ≠ .closing) : m ≠ n := by
  rintro rfl
  rcases h.stage with hclosing | hnone
  · exact other (Option.some.inj (call.symm.trans hclosing))
  · exact absurd (call.symm.trans hnone) nofun

theorem Shuts.emit (h : w.Shuts n) {e : Effect} (other : e ≠ .finish n (.done .settled)) :
    (w.emit e).Shuts n where
  stage := h.stage
  returned hmem := by
    rcases List.mem_append.1 hmem with hmem | hmem
    · exact h.returned hmem
    · exact absurd (List.mem_singleton.1 hmem).symm other

theorem Shuts.finish (h : w.Shuts n) {m : Nat} {outcome : Outcome Reply}
    (other : m ≠ n ∨ outcome ≠ .done .settled) : (w.finish m outcome).Shuts n := by
  have hdropped : Shuts n { w with calls := w.calls.drop m } := by
    refine ⟨?_, h.returned⟩
    change (w.calls.drop m).get? n = _ ∨ (w.calls.drop m).get? n = _
    rw [Keyed.get?_drop]
    split
    · exact .inr rfl
    · exact h.stage
  refine hdropped.emit ?_
  rintro ⟨⟩
  rcases other with hne | hne <;> exact hne rfl

theorem mem_foldl_absorb {outcome : Outcome Reply} {effects : List Review.Effect}
    (h : .finish n outcome ∈ (effects.foldl absorb w).outbox) : .finish n outcome ∈ w.outbox := by
  induction effects generalizing w with
  | nil => exact h
  | cons effect rest ih =>
      have hfirst := ih h
      cases effect with
      | finish m o => exact hfirst
      | finishRegistry m o => exact hfirst
      | _ =>
          rcases List.mem_append.1 hfirst with hmem | hmem
          · exact hmem
          · cases List.mem_singleton.1 hmem

theorem mem_tell {outcome : Outcome Reply} {e : Review.Event}
    (h : .finish n outcome ∈ (w.tell e).1.outbox) : .finish n outcome ∈ w.outbox :=
  mem_foldl_absorb (w := { w with reviewer := { w.reviewer.step e with outbox := [] } }) h

/-- Another call has rebuilt the plugins and goes on. -/
theorem Shuts.rebuilt (h : w.Shuts n) (calm : w.Calm) {m : Nat} (other : m ≠ n) :
    Shuts n
      (if ((w.setCall m .diagnosing).tell (.call m (.diagnoseAll w.documents.values))).2.isEmpty then
        ((w.setCall m .diagnosing).tell (.call m (.diagnoseAll w.documents.values))).1
      else
        ((w.setCall m .diagnosing).tell (.call m (.diagnoseAll w.documents.values))).1.finish m
          (.done .settled)) := by
  have hleads : Leads (· = m) _ _ w _ := rebuilt_leads calm.reviewer rfl
  refine ⟨?_, fun hmem => ?_⟩
  · rw [hleads.calls n (Ne.symm other)]
    exact h.stage
  · rw [hleads.registry]
    refine h.returned ?_
    split at hmem
    · exact mem_tell (w := w.setCall m .diagnosing) hmem
    · rcases List.mem_append.1 hmem with hmem | hmem
      · exact mem_tell (w := w.setCall m .diagnosing) hmem
      · cases List.mem_singleton.1 hmem
        exact absurd rfl other

theorem Shuts.conclude (h : w.Shuts n) (calm : w.Calm) (ending : Ending) :
    (w.conclude ending).Shuts n := by
  have hlog (text : String) : (w.log .info text).Shuts n := h.emit (by simp)
  unfold Workspace.conclude
  simp only
  split
  · exact (hlog _).finish (.inr (by simp))
  · rename_i call
    exact (hlog _).rebuilt ⟨calm.reviewer, calm.registry⟩ (h.ne call (by decide))
  · rename_i call
    exact h.finish (.inl (h.ne call (by decide)))
  · have hshut : Shuts n { w with
        reviewer := { w.reviewer with registry := w.registry.deactivateAll }, documents := [] } :=
      ⟨h.stage, fun _ => rfl⟩
    refine ⟨?_, fun _ => rfl⟩
    exact (hshut.finish (.inr (by simp : Outcome.aborted ≠ .done Reply.settled))).stage
  · exact h.finish (.inr (by simp))
  · exact h.finish (.inr (by simp))
  · exact h.finish (.inr (by simp))
  · unfold passOn
    split
    · rename_i m outcome _
      exact h.finish (.inr (by cases outcome <;> simp [Outcome.map]))
    · rename_i m outcome _
      exact h.finish (.inr (by cases outcome <;> simp [Outcome.map]))

theorem Shuts.foldl_conclude (h : w.Shuts n) (calm : w.Calm) (endings : List Ending) :
    (endings.foldl Workspace.conclude w).Shuts n := by
  induction endings generalizing w with
  | nil => exact h
  | cons ending rest ih =>
      exact ih (h.conclude calm ending) ((conclude_rests w ending).calm calm)

/-- When a shutdown returns nothing is active. -/
theorem tellReview_returned (calm : w.Calm) (call : w.calls.get? n = some .closing)
    (outbox : w.outbox = []) {e : Review.Event}
    (returned : .finish n (.done .settled) ∈ (w.tellReview e).outbox) :
    (w.tellReview e).registry.active = [] := by
  have htold : (w.tell e).1.Shuts n := by
    refine ⟨?_, fun hmem => ?_⟩
    · obtain ⟨out, hout⟩ := tell_eq w e
      rw [hout]
      exact .inl call
    · have hnone := mem_tell hmem
      rw [outbox] at hnone
      cases hnone
  have hcalm : (w.tell e).1.Calm := (tell_tells (Reviewer.step_acts calm.registry e)).calm calm
  exact (htold.foldl_conclude hcalm _).returned returned

namespace Course

variable (c : Course)

def registry (t : Nat) : Registry :=
  (c.workspace t).registry

/-- The sessions that are open at time `t`, by address. -/
def sessions (t : Nat) : Keyed String Nat :=
  (c.workspace t).desk.sessions.registered

/-- Call `n`, made at time `t₀`, shuts the workspace down and returns at time `t₁`. -/
structure ShutDown (n t₀ t₁ : Nat) : Prop where
  call : c.event t₀ = .call n .shutdown
  le : t₀ ≤ t₁
  under_way : t₀ < t₁ → (c.workspace t₁).calls.get? n = some .closing
  returns : .finish n (.done .settled) ∈ ((c.workspace t₁).step (c.event t₁)).outbox

/-- Between the times `t₀` and `T` no call is made from outside. -/
def Undisturbed (t₀ T : Nat) : Prop :=
  ∀ t, t₀ < t → t < T → ¬(c.event t).IsCall

/-- From after time `t₁` to `T` nothing is active, no session is open and nothing is published. -/
def Final (t₁ T : Nat) : Prop :=
  ∀ t, t₁ < t → t ≤ T →
    (c.registry t).active = [] ∧ c.sessions t = [] ∧ c.sink t = c.sink (t₁ + 1)

/-- A call that claimed the registry when time `t₀` was over has done so ever since, and as it ends,
between the times `t₁` and `T`, it activates a plugin. -/
def Reactivates (t₀ t₁ T : Nat) : Prop :=
  ∃ key name t, t₁ < t ∧ t < T ∧ (∀ u, t₀ < u → u ≤ t → (c.registry u).Claims key) ∧
    ¬(c.registry (t + 1)).Claims key ∧ name ∉ (c.registry t).active ∧
    name ∈ (c.registry (t + 1)).active

/-- A call that was under way when time `t₀` was over has a document checked before time `T`. -/
def Reopens (t₀ T : Nat) : Prop :=
  ∃ n document t k, t₀ < t ∧ t < T ∧
    (∀ u, t₀ < u → u ≤ t → (c.workspace u).InFlight n document) ∧ c.Dispatches t k document

variable {c} {n t₀ t₁ t T : Nat} {document : String}

/-! ## When nothing is called -/

/-- A step that is no call from outside. -/
theorem tells_of_old (old : ¬(c.event t).IsCall) :
    ∃ e, ¬e.IsCall ∧ c.registry (t + 1) = ((c.workspace t).tellReview e).registry ∧
      (c.workspace (t + 1)).desk = ((c.workspace t).tellReview e).desk := by
  obtain ⟨e, hold, hstep⟩ := step_tells (w := c.workspace t) old
  refine ⟨e, hold, ?_, ?_⟩
  · rw [← hstep]
    rfl
  · rw [← hstep]
    rfl

theorem wanes (old : ¬(c.event t).IsCall) : (c.registry t).Wanes (c.registry (t + 1)) := by
  obtain ⟨e, hold, hregistry, -⟩ := tells_of_old old
  rw [hregistry]
  exact tellReview_wanes (c.calm t) hold

/-- What the review does, and to which documents. -/
theorem does_of_old (old : ¬(c.event t).IsCall) :
    ∃ e, ¬e.IsCall ∧ Does (fun document => ∃ n, (c.workspace t).reviewer.Awaits n document)
      (c.workspace t).reviewer.buffers e (c.workspace t).desk (c.workspace (t + 1)).desk := by
  obtain ⟨e, hold, -, hdesk⟩ := tells_of_old old
  refine ⟨e, hold, ?_⟩
  rw [hdesk]
  refine (tellReview_does (c.calm t) e).mono fun document hmay => hmay.resolve_left fun hnames => ?_
  cases e with
  | call n request => exact hold trivial
  | change name => exact hold trivial
  | close name => exact hold trivial
  | _ => exact hnames

theorem not_names_of_old {e : Event} (old : ¬e.IsCall) : ¬e.Names document := by
  intro hnames
  cases e with
  | review e =>
      cases e with
      | call n request => exact old trivial
      | change name => exact old trivial
      | close name => exact old trivial
      | _ => exact hnames
  | abort n => exact hnames
  | _ => exact old trivial

/-- A call that may have a document checked was under way before. -/
theorem inFlight_of_old (old : ¬(c.event t).IsCall)
    (inFlight : (c.workspace (t + 1)).InFlight n document) : (c.workspace t).InFlight n document := by
  rcases (c.acts t).inFlight n document inFlight with hbefore | hnames | ⟨hsweeps, -⟩
  · exact hbefore
  · exact absurd hnames (not_names_of_old old)
  · cases hevent : c.event t with
    | call m request =>
        rw [hevent] at old
        exact absurd trivial old
    | _ =>
        rw [hevent] at hsweeps
        exact hsweeps.elim

theorem inFlight_since (undisturbed : c.Undisturbed t₀ T) (past : t₀ < t) (le : t ≤ T)
    (inFlight : (c.workspace t).InFlight n document) :
    ∀ u, t₀ < u → u ≤ t → (c.workspace u).InFlight n document := by
  induction past with
  | refl =>
      intro u hu hle
      obtain rfl : u = t₀ + 1 := by omega
      exact inFlight
  | @step t hpast ih =>
      have hbefore := inFlight_of_old (undisturbed t hpast le) inFlight
      exact Registry.throughout_succ (ih (Nat.le_of_lt le) hbefore) inFlight

theorem claims_since (undisturbed : c.Undisturbed t₀ T) (past : t₀ < t) (le : t ≤ T) {key : CallKey}
    (claims : (c.registry t).Claims key) : ∀ u, t₀ < u → u ≤ t → (c.registry u).Claims key := by
  induction past with
  | refl =>
      intro u hu hle
      obtain rfl : u = t₀ + 1 := by omega
      exact claims
  | @step t hpast ih =>
      have hbefore := (wanes (undisturbed t hpast le)).claims key claims
      exact Registry.throughout_succ (ih (Nat.le_of_lt le) hbefore) claims

/-! ## After a shutdown -/

theorem ShutDown.unregistered (h : c.ShutDown n t₀ t₁) :
    c.sessions (t₀ + 1) = [] ∧ c.sink (t₀ + 1) = c.sink t₀ := by
  have hdesk : (c.workspace (t₀ + 1)).desk = (c.workspace t₀).desk.shut := by
    change ((c.workspace t₀).step (c.event t₀)).desk = _
    rw [h.call]
    change (((c.workspace t₀).setCall n .closing).tellReview (.call n .shutdown)).desk = _
    rw [(tell_rests _ _).desk, tell_desk]
    exact Reviewer.shutdown_desk _ _
  have hsessions : c.sessions (t₀ + 1) = ((c.workspace t₀).desk.shut).sessions.registered := by
    rw [sessions, hdesk]
  refine ⟨?_, congrArg Desk.sink hdesk⟩
  rw [hsessions]
  exact Sessions.registered_foldl_closeSession _ _

theorem ShutDown.inactive (h : c.ShutDown n t₀ t₁) (undisturbed : c.Undisturbed t₀ T) (lt : t₁ < T) :
    (c.registry (t₁ + 1)).active = [] := by
  have hreturns := h.returns
  have houtbox (t : Nat) : (c.workspace t).outbox = [] := by cases t <;> rfl
  change ((c.workspace t₁).step (c.event t₁)).registry.active = []
  rcases Nat.lt_or_eq_of_le h.le with hlt | rfl
  · obtain ⟨e, -, hstep⟩ := step_tells (w := c.workspace t₁) (undisturbed t₁ hlt lt)
    rw [hstep] at hreturns ⊢
    exact tellReview_returned (c.calm t₁) (h.under_way hlt) (houtbox t₁) hreturns
  · rw [h.call] at hreturns ⊢
    exact tellReview_returned (w := (c.workspace t₀).setCall n .closing)
      ⟨(c.calm t₀).reviewer, (c.calm t₀).registry⟩ (Keyed.get?_put_self _ _ _) (houtbox t₀) hreturns

/-- Without a call that has a document checked all sessions stay closed. -/
theorem ShutDown.silent (h : c.ShutDown n t₀ t₁) (undisturbed : c.Undisturbed t₀ T)
    (never : ¬c.Reopens t₀ T) (past : t₀ < t) (le : t ≤ T) :
    c.sessions t = [] ∧ c.sink t = c.sink t₀ := by
  induction past with
  | refl => exact h.unregistered
  | @step t hpast ih =>
      obtain ⟨hnone, hsink⟩ := ih (Nat.le_of_lt le)
      obtain ⟨e, hold, hdoes⟩ := does_of_old (undisturbed t hpast le)
      rcases hdoes.unregistered (c.sound t) hold hnone with
        ⟨hnone', hsink'⟩ | ⟨document, ⟨m, hawaits⟩, run, hruns, rfl⟩
      · exact ⟨hnone', hsink'.trans hsink⟩
      · refine absurd ⟨m, run.document, t, (c.workspace t).reviewer.runs.length, hpast, le,
          inFlight_since undisturbed hpast (Nat.le_of_lt le) (.inl hawaits), ?_, run, ?_, rfl⟩ never
        · exact List.getElem?_eq_none (Nat.le_refl _)
        · have hruns' : (c.workspace (t + 1)).reviewer.runs =
              (c.workspace t).reviewer.runs ++ [run] := hruns
          rw [hruns']
          simp

/-- A session that has been opened stays. -/
theorem registered_since (undisturbed : c.Undisturbed t₀ T) (past : t₀ < t)
    (some : c.sessions t ≠ []) {u : Nat} (later : t ≤ u) (le : u ≤ T) : c.sessions u ≠ [] := by
  induction later with
  | refl => exact some
  | @step u hlater ih =>
      have hbefore := ih (Nat.le_of_lt le)
      obtain ⟨e, hold, hdoes⟩ := does_of_old (undisturbed u (Nat.lt_of_lt_of_le past hlater) le)
      exact hdoes.registers (c.sound u) hold (.inl hbefore)

theorem registered_of_dispatches (undisturbed : c.Undisturbed t₀ T) (past : t₀ < t) (lt : t < T)
    {k : Nat} (dispatches : c.Dispatches t k document) : c.sessions (t + 1) ≠ [] := by
  obtain ⟨hnew, run, hrun, -⟩ := dispatches
  obtain ⟨e, hold, hdoes⟩ := does_of_old (undisturbed t past lt)
  refine hdoes.registers (c.sound t) hold (.inr ?_)
  have hlt := (List.getElem?_eq_some_iff.1 hrun).1
  exact Nat.lt_of_le_of_lt (List.getElem?_eq_none_iff.1 hnew) hlt

/-- A shutdown is final exactly when no call that was under way activates a plugin after it has
returned, and none has a document checked since it was called. -/
theorem shutdown_final_iff (c : Course) (n t₀ t₁ T : Nat) (shutDown : c.ShutDown n t₀ t₁)
    (undisturbed : c.Undisturbed t₀ T) (lt : t₁ < T) :
    c.Final t₁ T ↔ ¬c.Reactivates t₀ t₁ T ∧ ¬c.Reopens t₀ T := by
  have hpast := shutDown.le
  constructor
  · intro hfinal
    constructor
    · rintro ⟨key, name, t, hlt, hltT, -, -, -, hactive⟩
      rw [(hfinal (t + 1) (Nat.lt_succ_of_lt hlt) hltT).1] at hactive
      cases hactive
    -- The session is there when the shutdown returns, or comes later.
    · rintro ⟨m, document, t, k, hlt, hltT, -, hdispatches⟩
      have hsome := registered_of_dispatches undisturbed hlt hltT hdispatches
      have hmax : c.sessions (max (t + 1) (t₁ + 1)) ≠ [] :=
        registered_since undisturbed (Nat.lt_succ_of_lt hlt) hsome (Nat.le_max_left _ _) (by omega)
      exact hmax (hfinal _ (by omega) (by omega)).2.1
  · rintro ⟨hkept, hnever⟩ t hlt hle
    have hfirst := (shutDown.silent undisturbed hnever (Nat.lt_succ_of_le hpast) lt).2
    have hsilent := shutDown.silent undisturbed hnever (Nat.lt_of_le_of_lt hpast hlt) hle
    refine ⟨?_, hsilent.1, hsilent.2.trans hfirst.symm⟩
    clear hsilent
    induction hlt with
    | refl => exact shutDown.inactive undisturbed lt
    | @step t hlt ih =>
        have hnone := ih (Nat.le_of_lt hle)
        have hwanes := wanes (undisturbed t (Nat.lt_of_le_of_lt hpast hlt) hle)
        refine List.eq_nil_iff_forall_not_mem.2 fun name hactive => ?_
        rcases hwanes.active name hactive with hbefore | ⟨key, hclaims, hover⟩
        · rw [hnone] at hbefore
          cases hbefore
        · refine hkept ⟨key, name, t, hlt, hle,
            claims_since undisturbed (Nat.lt_of_le_of_lt hpast hlt) (Nat.le_of_lt hle) hclaims, hover,
            ?_, hactive⟩
          rw [hnone]
          exact List.not_mem_nil

/-- A workspace is shut down while its plugins are asked whether they are available, as it starts. -/
def shutDownWhileStarting : Course where
  settings := {}
  loader := .none
  buffers := []
  event t :=
    [.call 0 .start,
      .review (.registry (.begin (.host 0) 0)),
      .review (.registry (.begin (.host 0) 1)),
      .call 1 .shutdown,
      .review (.registry (.answered (.host 0) 0 (.available true))),
      .review (.registry (.answered (.host 0) 1 (.available true))),
      .review (.registry (.gathered (.host 0)))].getD t (.abort 0)

theorem shutDown_whileStarting : shutDownWhileStarting.ShutDown 1 3 3 where
  call := rfl
  le := Nat.le_refl 3
  under_way h := absurd h (Nat.lt_irrefl 3)
  returns := List.mem_of_getElem? (i := 0) rfl

theorem undisturbed_whileStarting : shutDownWhileStarting.Undisturbed 3 7 := by
  intro t hlt hltT
  obtain rfl | rfl | rfl : t = 4 ∨ t = 5 ∨ t = 6 := by omega
  all_goals exact id

/-- The start that was under way is what activates plugins again. -/
theorem shutDownWhileStarting_reactivates : shutDownWhileStarting.Reactivates 3 3 7 := by
  have hiff := shutdown_final_iff shutDownWhileStarting 1 3 3 7 shutDown_whileStarting
    undisturbed_whileStarting (by decide)
  have hnever : ¬shutDownWhileStarting.Reopens 3 7 := by
    rintro ⟨n, document, t, k, hlt, hltT, -, -, run, hrun, -⟩
    obtain rfl | rfl | rfl : t = 4 ∨ t = 5 ∨ t = 6 := by omega
    all_goals cases hrun
  refine Classical.byContradiction fun hkept => ?_
  exact absurd (hiff.2 ⟨hkept, hnever⟩ 7 (by decide) (by decide)).1 (by decide)

/-- Plugins can become active after a shutdown has returned. -/
theorem exists_shutdown_undone :
    ¬ ∀ (c : Course) (n t₀ t₁ T : Nat), c.ShutDown n t₀ t₁ → c.Undisturbed t₀ T → t₁ < T →
      c.Final t₁ T := by
  intro h
  have hfinal := h shutDownWhileStarting 1 3 3 7 shutDown_whileStarting undisturbed_whileStarting
    (by decide)
  exact absurd (hfinal 7 (by decide) (by decide)).1 (by decide)

end Course

end Workspace

end Shellwright
