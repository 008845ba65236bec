import Shellwright.Proofs.Registry.Changes
/-!
# The history of a check

What a schedule did before: when a plugin was asked that has passed, and that its call was under way
from then on.
-/

namespace Shellwright.Registry

namespace World

theorem spend_registry (w : World) (m : Move) : (w.spend m).registry = w.registry := by
  cases m with
  | host e => cases e <;> rfl
  | _ => rfl

theorem mem_of_mem_spend {w : World} {m : Move} {q : Inquiry} (h : q ∈ (w.spend m).inquiries) :
    q ∈ w.inquiries := by
  cases m with
  | host e => cases e <;> exact h
  | edit b => exact h
  | next n => exact h
  | answer n a => exact (List.eraseIdx_sublist _ _).subset h
  | stop n => exact (List.eraseIdx_sublist _ _).subset h

/-- Only an answer is taken for one. -/
theorem Orderly.answer_of_event {w : World} (h : w.Orderly) {m : Move} {key : CallKey} {i : Nat}
    {a : Answer} (event : w.event? m = some (.answered key i a)) :
    ∃ n q, m = .answer n a ∧ w.inquiries[n]? = some q ∧ q.key = key ∧ q.part = i := by
  cases m with
  | host e =>
      obtain ⟨hadmits, ⟨⟩⟩ := Option.ite_none_right_eq_some.1 event
      cases hadmits
  | edit b => cases event
  | next n => exact absurd (h.due _ (List.mem_of_getElem? event)).1 nofun
  | answer n a' =>
      obtain ⟨q, hq, heq⟩ := Option.map_eq_some_iff.1 event
      cases heq
      exact ⟨n, q, rfl, hq, rfl, rfl⟩
  | stop n =>
      obtain ⟨q, _, heq⟩ := Option.map_eq_some_iff.1 event
      cases heq

/-- The plugin that a question is put to has the name that is checked. -/
theorem Orderly.name_of_checks {w : World} (h : w.Orderly) {q : Inquiry} (open' : q ∈ w.inquiries)
    {c : Call} (call : w.registry.calls.get? q.key = some c)
    {source : Option (Keyed String Plugin)} {name : String}
    (checks : c.stage.Checks source q.part name false) : q.plugin.name = name := by
  have hmem : q ∈ w.inquiriesOf q.key := by simpa [inquiriesOf] using open'
  have hfits := h.fits q.key c call
  cases hstage : c.stage with
  | activating n =>
      rw [hstage] at checks
      obtain ⟨_, _, rfl, _⟩ := checks
      exact (hfits.activating n hstage q hmem).2
  | probing purpose probes =>
      rw [hstage] at checks
      have hasked := (hfits.probing purpose probes hstage).asked q hmem
      rw [checks.2.2] at hasked
      cases hasked
      rfl
  | queued request =>
      rw [hstage] at checks
      cases checks
  | checking document options parts =>
      rw [hstage] at checks
      cases checks
  | formatting document options p rest collected =>
      rw [hstage] at checks
      cases checks

end World

namespace Schedule

variable (s : Schedule)

/-- The questions that are put with a move. -/
def asked (t : Nat) : List Inquiry :=
  match s.event? t with
  | some e =>
    let w := (s.world t).spend (s t)
    (w.registry.step w.buffers e).asks
  | none => []

/-- A plugin answers that it is available. -/
def Confirms (t : Nat) (q : Inquiry) : Prop :=
  ∃ n, s t = .answer n (.available true) ∧ (s.world t).inquiries[n]? = some q

/-- Since the plugin was asked its call has been under way. -/
structure Checked (t₁ t : Nat) (source : Option (Keyed String Plugin)) (q : Inquiry) : Prop where
  earlier : t₁ < t
  asked : q ∈ s.asked t₁
  question : q.question = .available
  found : (s.registry t₁).lookup source q.plugin.name = some q.plugin
  plugins : (s.registry (t₁ + 1)).plugins = (s.registry t₁).plugins
  since : ∀ u, t₁ < u → u ≤ t → (s.registry u).Checking q.key source q.plugin.name

variable {s} {t : Nat} {e : Event}

theorem world_of_none (h : s.event? t = none) : s.world (t + 1) = (s.world t).spend (s t) := by
  change (s.world t).step (s t) = _
  unfold World.step
  rw [show (s.world t).event? (s t) = none from h]

theorem world_of_some (h : s.event? t = some e) :
    s.world (t + 1) = ((s.world t).spend (s t)).react e := by
  change (s.world t).step (s t) = _
  unfold World.step
  rw [show (s.world t).event? (s t) = some e from h]

theorem registry_of_none (h : s.event? t = none) : s.registry (t + 1) = s.registry t := by
  rw [registry, world_of_none h, World.spend_registry, registry]

theorem spend_orderly (s : Schedule) (t : Nat) : ((s.world t).spend (s t)).Orderly :=
  (s.orderly t).spend (s t)

theorem ready (h : s.event? t = some e) : ((s.world t).spend (s t)).Ready e :=
  (s.orderly t).ready h

theorem change (h : s.event? t = some e) : (s.registry t).Change e (s.registry (t + 1)) := by
  have hchange := (spend_orderly s t).change (ready h)
  rw [World.spend_registry, ← world_of_some h] at hchange
  exact hchange

theorem asked_of_some (h : s.event? t = some e) :
    s.asked t = (((s.world t).spend (s t)).registry.step ((s.world t).spend (s t)).buffers e).asks := by
  rw [asked, h]

/-- An open question was open before, or has just been put. -/
theorem mem_inquiries_succ {q : Inquiry} (h : q ∈ (s.world (t + 1)).inquiries) :
    q ∈ ((s.world t).spend (s t)).inquiries ∨ q ∈ s.asked t := by
  cases hevent : s.event? t with
  | none =>
      rw [world_of_none hevent] at h
      exact .inl h
  | some e =>
      rw [world_of_some hevent] at h
      rw [asked_of_some hevent]
      exact List.mem_append.1 h

theorem since {key : CallKey} {source : Option (Keyed String Plugin)} {part : Nat} {name : String}
    {passed : Bool} {c : Call} (h : s.event? t = some e)
    (call : (s.registry (t + 1)).calls.get? key = some c)
    (checks : c.stage.Checks source part name passed) :
    Since ((s.world t).spend (s t)) e
      (((s.world t).spend (s t)).registry.step ((s.world t).spend (s t)).buffers e)
      key source part name passed := by
  rw [registry, world_of_some h] at call
  exact (spend_orderly s t).since (ready h) call checks

theorem Confirms.mem_inquiries {q : Inquiry} (h : s.Confirms t q) : q ∈ (s.world t).inquiries := by
  obtain ⟨n, _, hq⟩ := h
  exact List.mem_of_getElem? hq

theorem confirms_of_event (s : Schedule) {t : Nat} {key : CallKey} {part : Nat}
    (h : s.event? t = some (.answered key part (.available true))) :
    ∃ q, s.Confirms t q ∧ q.key = key ∧ q.part = part := by
  obtain ⟨n, q, hmove, hq, hkey, hpart⟩ := (s.orderly t).answer_of_event h
  exact ⟨q, ⟨n, hmove, hq⟩, hkey, hpart⟩

theorem Checked.succ {t₁ : Nat} {source : Option (Keyed String Plugin)} {q : Inquiry}
    (h : s.Checked t₁ t source q)
    (still : (s.registry (t + 1)).Checking q.key source q.plugin.name) :
    s.Checked t₁ (t + 1) source q where
  earlier := Nat.lt_succ_of_lt h.earlier
  asked := h.asked
  question := h.question
  found := h.found
  plugins := h.plugins
  since := throughout_succ h.since still

/-- A question to a plugin that is being checked was put by the call that checks. -/
theorem checked_of_open (s : Schedule) (t : Nat) {q : Inquiry} (hopen : q ∈ (s.world t).inquiries)
    {c : Call} (call : (s.registry t).calls.get? q.key = some c)
    {source : Option (Keyed String Plugin)}
    (checks : c.stage.Checks source q.part q.plugin.name false) :
    ∃ t₁, s.Checked t₁ t source q := by
  induction t generalizing c with
  | zero => cases hopen
  | succ t ih =>
      have hstill : (s.registry (t + 1)).Checking q.key source q.plugin.name :=
        ⟨c, q.part, false, call, checks⟩
      cases hevent : s.event? t with
      | none =>
          rw [world_of_none hevent] at hopen
          rw [registry_of_none hevent] at call
          obtain ⟨t₁, hchecked⟩ := ih (World.mem_of_mem_spend hopen) call checks
          exact ⟨t₁, hchecked.succ hstill⟩
      | some e =>
          have hopen := mem_inquiries_succ hopen
          have hsince := since hevent call checks
          rw [asked_of_some hevent] at hopen
          cases hsince with
          -- A question that is new belongs to a check that is new, and an old one to an old check.
          | before _ c₀ call₀ checks₀ quiet =>
              rcases hopen with hopen | hnew
              · rw [World.spend_registry] at call₀
                obtain ⟨t₁, hchecked⟩ := ih (World.mem_of_mem_spend hopen) call₀ checks₀
                exact ⟨t₁, hchecked.succ hstill⟩
              · exact absurd rfl (quiet q hnew rfl)
          | asked p found named asks apart plugins =>
              rcases hopen with hopen | hnew
              · refine absurd rfl (apart q ?_)
                simpa [World.inquiriesOf] using hopen
              · have hq : q = ⟨q.key, q.part, p, .available⟩ := by
                  rw [asks] at hnew
                  exact List.mem_singleton.1 hnew
                have hplugin : q.plugin = p := congrArg Inquiry.plugin hq
                refine ⟨t, Nat.lt_succ_self t, ?_, congrArg Inquiry.question hq, ?_, ?_, ?_⟩
                · rw [asked_of_some hevent]
                  exact hnew
                · rw [World.spend_registry] at found
                  rw [hplugin] at found ⊢
                  exact found
                · rw [registry, world_of_some hevent]
                  exact plugins.trans (congrArg _ (World.spend_registry _ _))
                · intro u hu hle
                  obtain rfl := Nat.le_antisymm hle hu
                  exact hstill

/-- A plugin that has passed was asked by its call, and has answered since. -/
theorem checked_of_passed (s : Schedule) (t : Nat) {key : CallKey} {c : Call}
    (call : (s.registry t).calls.get? key = some c) {source : Option (Keyed String Plugin)}
    {part : Nat} {name : String} (checks : c.stage.Checks source part name true) :
    ∃ q t₁ t₂, q.key = key ∧ q.plugin.name = name ∧ s.Checked t₁ t source q ∧ t₁ < t₂ ∧ t₂ < t ∧
      s.Confirms t₂ q := by
  induction t generalizing c with
  | zero => cases call
  | succ t ih =>
      have hstill : (s.registry (t + 1)).Checking key source name :=
        ⟨c, part, true, call, checks⟩
      have hcarry {c₀ : Call} (call₀ : (s.registry t).calls.get? key = some c₀)
          (checks₀ : c₀.stage.Checks source part name true) :
          ∃ q t₁ t₂, q.key = key ∧ q.plugin.name = name ∧ s.Checked t₁ (t + 1) source q ∧
            t₁ < t₂ ∧ t₂ < t + 1 ∧ s.Confirms t₂ q := by
        obtain ⟨q, t₁, t₂, rfl, rfl, hchecked, h₁, h₂, hyes⟩ := ih call₀ checks₀
        exact ⟨q, t₁, t₂, rfl, rfl, hchecked.succ hstill, h₁, Nat.lt_succ_of_lt h₂, hyes⟩
      cases hevent : s.event? t with
      | none =>
          rw [registry_of_none hevent] at call
          exact hcarry call checks
      | some e =>
          cases since hevent call checks with
          | before _ c₀ call₀ checks₀ quiet =>
              rw [World.spend_registry] at call₀
              exact hcarry call₀ checks₀
          | passed c₀ event call₀ checks₀ =>
              rw [World.spend_registry] at call₀
              obtain ⟨q, hyes, rfl, rfl⟩ := s.confirms_of_event (event ▸ hevent)
              have hname : q.plugin.name = name :=
                (s.orderly t).name_of_checks hyes.mem_inquiries call₀ checks₀
              subst hname
              obtain ⟨t₁, hchecked⟩ := s.checked_of_open t hyes.mem_inquiries call₀ checks₀
              exact ⟨q, t₁, t, rfl, rfl, hchecked.succ hstill, hchecked.earlier,
                Nat.lt_succ_self t, hyes⟩

end Schedule

end Shellwright.Registry
