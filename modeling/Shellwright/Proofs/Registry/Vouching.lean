import Shellwright.Proofs.Registry.Active
/-!
# Instances that have answered for themselves

An active name stands for an instance that has answered itself, since it was registered, that it is
available: unless a call has activated the name for another instance than the one it had asked, or has
left the name active without an instance.
-/

namespace Shellwright.Registry.Schedule

variable (s : Schedule)

/-- The instance is registered under the name all the time from one moment to another. -/
def RegisteredThroughout (t₁ t₂ : Nat) (name : String) (p : Plugin) : Prop :=
  ∀ u, t₁ ≤ u → u ≤ t₂ → (s.registry u).get? name = some p

/-- A check that began at one moment has at another been answered with yes. -/
structure Confirmed (t₁ t₂ : Nat) (q : Inquiry) : Prop where
  question : q.question = .available
  earlier : t₁ < t₂
  asked : q ∈ s.asked t₁
  confirms : s.Confirms t₂ q

/-- The instance that is registered under the name has passed a check of its own. -/
inductive Vouched (t : Nat) (name : String) (p : Plugin) : Prop
  /-- The check began after the instance was registered. -/
  | registered (t₁ t₂ : Nat) (q : Inquiry) (confirmed : s.Confirmed t₁ t₂ q) (own : q.plugin = p)
      (past : t₂ < t) (registered : s.RegisteredThroughout t₁ t name p)
  /-- The check was part of the replacement that has published the instance. -/
  | published (t₁ t₂ t₃ : Nat) (q : Inquiry) (fresh : Keyed String Plugin)
      (probes : List (String × Progress Bool)) (confirmed : s.Confirmed t₁ t₂ q)
      (own : q.plugin = p) (before : t₂ < t₃) (past : t₃ < t)
      (event : s.event? t₃ = some (.gathered q.key))
      (publishes : (s.registry t₃).Publishes (.gathered q.key) q.key fresh probes)
      (registered : s.RegisteredThroughout (t₃ + 1) t name p)

/-- The instance comes to be registered while a call checks the name, and the call activates the name
before the instance has passed a check of its own. -/
structure Overtakes (t₁ t₂ : Nat) (key : CallKey) (name : String) (p : Plugin) : Prop where
  earlier : t₁ < t₂
  checking : s.ChecksThroughout t₁ t₂ key name
  before : (s.registry t₁).get? name ≠ some p
  registered : s.RegisteredThroughout (t₁ + 1) t₂ name p
  unconfirmed : ∀ t₃ t₄ q, t₁ < t₃ → t₄ ≤ t₂ → q.plugin = p → ¬ s.Confirmed t₃ t₄ q
  passes : ∃ e, s.event? t₂ = some e ∧ (s.registry t₂).Passes e key name

variable {s} {t : Nat} {e : Event} {key : CallKey} {name : String} {p : Plugin}

theorem RegisteredThroughout.succ {t₁ : Nat} (h : s.RegisteredThroughout t₁ t name p)
    (now : (s.registry (t + 1)).get? name = some p) :
    s.RegisteredThroughout t₁ (t + 1) name p :=
  throughout_succ h now

theorem Vouched.succ (h : s.Vouched t name p) (now : (s.registry (t + 1)).get? name = some p) :
    s.Vouched (t + 1) name p := by
  cases h with
  | registered t₁ t₂ q confirmed own past registered =>
      exact .registered t₁ t₂ q confirmed own (Nat.lt_succ_of_lt past) (registered.succ now)
  | published t₁ t₂ t₃ q fresh probes confirmed own before past event publishes registered =>
      exact .published t₁ t₂ t₃ q fresh probes confirmed own before (Nat.lt_succ_of_lt past) event
        publishes (registered.succ now)

/-- An instance that is registered now has been so since a moment, or came after it. -/
theorem registered_or_came (s : Schedule) {t₁ t : Nat} (h : t₁ ≤ t) {name : String} {p : Plugin}
    (now : (s.registry t).get? name = some p) :
    s.RegisteredThroughout t₁ t name p ∨
      ∃ t₀, t₁ ≤ t₀ ∧ t₀ < t ∧ (s.registry t₀).get? name ≠ some p ∧
        s.RegisteredThroughout (t₀ + 1) t name p := by
  induction h with
  | refl =>
      refine .inl fun u hu hle => ?_
      obtain rfl := Nat.le_antisymm hle hu
      exact now
  | @step t hle ih =>
      by_cases hbefore : (s.registry t).get? name = some p
      · rcases ih hbefore with hsince | ⟨t₀, h₁, h₀, hnot, hsince⟩
        · exact .inl (hsince.succ now)
        · exact .inr ⟨t₀, h₁, Nat.lt_succ_of_lt h₀, hnot, hsince.succ now⟩
      · refine .inr ⟨t, hle, Nat.lt_succ_self t, hbefore, fun u hu hle' => ?_⟩
        obtain rfl := Nat.le_antisymm hle' hu
        exact now

/-- A call that makes a name active has had a yes from the plugin that it had found. -/
theorem checked_of_passes (hevent : s.event? t = some e)
    (passes : (s.registry t).Passes e key name) :
    ∃ q t₁ t₂, q.key = key ∧ q.plugin.name = name ∧ s.Checked t₁ t none q ∧ t₁ < t₂ ∧ t₂ ≤ t ∧
      s.Confirms t₂ q := by
  rcases passes with ⟨c, i, rfl, call, stage⟩ | ⟨purpose, probes, rfl, call, kind, passed⟩
  · obtain ⟨q, hyes, rfl, rfl⟩ := s.confirms_of_event hevent
    have hfits := (s.orderly t).fits q.key c call
    have hmem : q ∈ (s.world t).inquiriesOf q.key := by
      simpa [World.inquiriesOf] using hyes.mem_inquiries
    obtain ⟨hpart, rfl⟩ := hfits.activating name stage q hmem
    have hchecks : c.stage.Checks none q.part q.plugin.name false := by
      rw [stage]
      exact ⟨rfl, hpart, rfl, rfl⟩
    obtain ⟨t₁, hchecked⟩ := s.checked_of_open t hyes.mem_inquiries call hchecks
    exact ⟨q, t₁, t, rfl, rfl, hchecked, hchecked.earlier, Nat.le_refl t, hyes⟩
  · obtain ⟨i, hi⟩ := mem_probed.1 passed
    have hchecks : (Stage.probing purpose probes).Checks none i name true := by
      refine ⟨?_, ?_, hi⟩
      · rintro rfl
        rcases kind with hkind | hkind <;> cases hkind
      · rcases kind with rfl | rfl <;> rfl
    obtain ⟨q, t₁, t₂, hkey, hname, hchecked, h₁, h₂, hyes⟩ := s.checked_of_passed t call hchecks
    exact ⟨q, t₁, t₂, hkey, hname, hchecked, h₁, Nat.le_of_lt h₂, hyes⟩

/-- A name that a call activates stands for an instance that has passed, or has overtaken the one
that was asked. -/
theorem vouched_of_passes (hevent : s.event? t = some e)
    (passes : (s.registry t).Passes e key name)
    (now : (s.registry (t + 1)).get? name = some p) :
    s.Vouched (t + 1) name p ∨ ∃ t₀, s.Overtakes t₀ t key name p := by
  have hbefore : (s.registry t).get? name = some p := by
    rw [← get?_congr (passes_active hevent passes).1]
    exact now
  obtain ⟨q, t₁, t₂, rfl, rfl, hchecked, h₁, h₂, hyes⟩ := checked_of_passes hevent passes
  have hfound : (s.registry t₁).get? q.plugin.name = some q.plugin := hchecked.found
  rcases s.registered_or_came (Nat.le_of_lt hchecked.earlier) hbefore with hsince |
    ⟨t₀, h₀, hlt, hnot, hsince⟩
  · have hown : q.plugin = p :=
      Option.some.inj (hfound.symm.trans (hsince t₁ (Nat.le_refl t₁) (Nat.le_of_lt hchecked.earlier)))
    exact .inl (.registered t₁ t₂ q ⟨hchecked.question, h₁, hchecked.asked, hyes⟩ hown
      (Nat.lt_succ_of_le h₂) (hsince.succ now))
  -- The instance came after the question was put to another one.
  · have hlater : t₁ < t₀ := by
      rcases Nat.lt_or_eq_of_le h₀ with hlater | rfl
      · exact hlater
      · refine absurd ?_ hnot
        rw [← get?_congr hchecked.plugins]
        exact hsince (t₁ + 1) (Nat.le_refl _) hlt
    by_cases hconfirmed : ∃ t₃ t₄ q', t₀ < t₃ ∧ t₄ ≤ t ∧ q'.plugin = p ∧ s.Confirmed t₃ t₄ q'
    · obtain ⟨t₃, t₄, q', h₃, h₄, hown, hconfirmed⟩ := hconfirmed
      refine .inl (.registered t₃ t₄ q' hconfirmed hown (Nat.lt_succ_of_le h₄) ?_)
      exact fun u hu hle => hsince.succ now u (Nat.le_trans h₃ hu) hle
    · refine .inr ⟨t₀, hlt, fun u hu hle => hchecked.since u (Nat.lt_of_lt_of_le hlater hu) hle,
        hnot, hsince, fun t₃ t₄ q' h₃ h₄ hown hyes' => ?_, e, hevent, passes⟩
      exact hconfirmed ⟨t₃, t₄, q', h₃, h₄, hown, hyes'⟩

theorem vouched_of_publishes (hevent : s.event? t = some e) {fresh : Keyed String Plugin}
    {probes : List (String × Progress Bool)}
    (publishes : (s.registry t).Publishes e key fresh probes)
    (plugins : (s.registry (t + 1)).plugins = fresh) (passed : name ∈ probed probes true)
    (now : (s.registry (t + 1)).get? name = some p) : s.Vouched (t + 1) name p := by
  obtain ⟨rfl, call⟩ := publishes
  obtain ⟨i, hi⟩ := mem_probed.1 passed
  have hchecks : (Stage.probing (.replace fresh) probes).Checks (some fresh) i name true :=
    ⟨nofun, rfl, hi⟩
  obtain ⟨q, t₁, t₂, rfl, rfl, hchecked, h₁, h₂, hyes⟩ := s.checked_of_passed t call hchecks
  have hfound : fresh.get? q.plugin.name = some q.plugin := hchecked.found
  have hown : q.plugin = p := by
    rw [← plugins] at hfound
    exact Option.some.inj (hfound.symm.trans now)
  refine .published t₁ t₂ t q fresh probes ⟨hchecked.question, h₁, hchecked.asked, hyes⟩ hown h₂
    (Nat.lt_succ_self t) hevent ⟨rfl, call⟩ fun u hu hle => ?_
  obtain rfl := Nat.le_antisymm hle hu
  exact now

/-- No instance that a call has overtaken has been activated, and no name has been registered that was
left active. -/
def Clean (s : Schedule) : Prop :=
  (¬ ∃ t₁ t₂ key name p, s.Overtakes t₁ t₂ key name p) ∧
    ¬ ∃ t name, s.LeftBehind t name ∧ s.Registers t name

theorem Clean.vouched (clean : s.Clean) (t : Nat) {name : String} {p : Plugin}
    (active : name ∈ (s.registry t).active) (now : (s.registry t).get? name = some p) :
    s.Vouched t name p := by
  induction t with
  | zero => cases active
  | succ t ih =>
      have hcarry (hactive : name ∈ (s.registry t).active)
          (hbefore : (s.registry t).get? name = some p) : s.Vouched (t + 1) name p :=
        (ih hactive hbefore).succ now
      cases hevent : s.event? t with
      | none =>
          have hsame := registry_of_none hevent
          exact hcarry (hsame ▸ active) (hsame ▸ now)
      | some e =>
          cases (change hevent).comes active with
          | altered core event plugins hactive =>
              have hnow := now
              rw [get?_congr plugins] at hnow
              obtain ⟨hactive, hsame | ⟨hmissing, q, rfl, hname, _⟩⟩ :=
                altered_active event hactive
              · exact hcarry hactive (hsame.symm.trans hnow)
              · exact absurd ⟨t, name, s.leftBehind_of_active t hactive hmissing, q, hevent, hname⟩
                  clean.2
          | stays plugins hactive =>
              exact hcarry hactive ((get?_congr plugins name).symm.trans now)
          | passes key passes plugins =>
              refine (vouched_of_passes hevent passes now).resolve_right ?_
              exact fun ⟨t₀, hovertakes⟩ => clean.1 ⟨t₀, t, key, name, p, hovertakes⟩
          | published key fresh probes publishes plugins passed =>
              exact vouched_of_publishes hevent publishes plugins passed now

/-! ## Instances that have not answered -/

theorem Publishes.not_checking {r : Registry} {fresh : Keyed String Plugin}
    {probes : List (String × Progress Bool)} (h : r.Publishes e key fresh probes) :
    ¬ r.Checking key none name := by
  rintro ⟨c, part, passed, call, checks⟩
  obtain rfl := Option.some.inj (h.2.symm.trans call)
  exact nomatch checks.2.1

theorem Overtakes.not_vouched {t₁ t₂ : Nat} (h : s.Overtakes t₁ t₂ key name p) :
    ¬ s.Vouched (t₂ + 1) name p := by
  -- Whatever has kept the instance registered until now began after it came.
  have hlater {t₀ : Nat} (hsince : s.RegisteredThroughout t₀ (t₂ + 1) name p) : t₁ < t₀ := by
    refine Nat.lt_of_not_le fun hnot => ?_
    exact h.before (hsince t₁ hnot (Nat.le_succ_of_le (Nat.le_of_lt h.earlier)))
  rintro (⟨t₃, t₄, q, confirmed, own, past, registered⟩ |
    ⟨t₃, t₄, t₅, q, fresh, probes, confirmed, own, before, past, event, publishes, registered⟩)
  · exact h.unconfirmed t₃ t₄ q (hlater registered) (Nat.le_of_lt_succ past) own confirmed
  · have hle : t₁ ≤ t₅ := Nat.le_of_lt_succ (hlater registered)
    have hchecking := h.checking t₅ hle (Nat.le_of_lt_succ past)
    have hfits := (s.orderly t₅).fits q.key _ publishes.2
    have hholder : (s.registry t₅).lock.holder = some q.key := hfits.locked nofun
    obtain rfl := Option.some.inj (hholder.symm.trans (holder_of_checking hchecking))
    exact Publishes.not_checking publishes hchecking

theorem get?_of_register (hevent : s.event? t = some (.register p)) :
    (s.registry (t + 1)).get? p.name = some p ∧
      ((s.registry t).get? p.name = none → p.name ∈ (s.registry t).active →
        p.name ∈ (s.registry (t + 1)).active) := by
  cases change hevent with
  | altered core event plugins active =>
      cases event
      refine ⟨(get?_congr plugins p.name).trans (Keyed.get?_put_self _ _ _), fun hnone hmem => ?_⟩
      rw [active]
      change p.name ∈ if (s.registry t).plugins.has p.name then _ else (s.registry t).active
      rw [(Keyed.has_eq_false_iff _ _).2 hnone]
      exact hmem
  | kept event plugins active => cases event
  | activated k n passes plugins active =>
      rcases passes with ⟨c, i, heq, _⟩ | ⟨purpose, probes, heq, _⟩ <;> cases heq
  | settled k purpose probes unaltered event alone gone plugins active => cases unaltered

theorem not_vouched_of_register (hevent : s.event? t = some (.register p))
    (missing : (s.registry t).get? p.name = none) : ¬ s.Vouched (t + 1) p.name p := by
  -- The instance was not there a moment ago.
  have hnow {t₀ : Nat} (hle : t₀ ≤ t) (hsince : s.RegisteredThroughout t₀ (t + 1) p.name p) :
      False :=
    nomatch missing.symm.trans (hsince t hle (Nat.le_succ t))
  rintro (⟨t₁, t₂, q, confirmed, own, past, registered⟩ |
    ⟨t₁, t₂, t₃, q, fresh, probes, confirmed, own, before, past, event, publishes, registered⟩)
  · exact hnow (Nat.le_of_lt_succ (Nat.lt_trans confirmed.earlier past)) registered
  · rcases Nat.lt_or_eq_of_le (Nat.le_of_lt_succ past) with hlt | rfl
    · exact hnow hlt registered
    · cases hevent.symm.trans event

/-- Every active instance has passed a check of its own at all times, exactly when no call activates
an instance that has overtaken the one it had asked, and no name is registered that a call has left
active. -/
theorem active_vouched_iff (s : Schedule) :
    (∀ t name p, name ∈ (s.registry t).active → (s.registry t).get? name = some p →
      s.Vouched t name p) ↔ s.Clean := by
  constructor
  · intro hall
    constructor
    · rintro ⟨t₁, t₂, key, name, p, hovertakes⟩
      obtain ⟨e, hevent, hpasses⟩ := hovertakes.passes
      obtain ⟨hplugins, hactive⟩ := passes_active hevent hpasses
      have hnow : (s.registry (t₂ + 1)).get? name = some p := by
        rw [get?_congr hplugins]
        exact hovertakes.registered t₂ hovertakes.earlier (Nat.le_refl t₂)
      exact hovertakes.not_vouched (hall (t₂ + 1) name p hactive hnow)
    · rintro ⟨t, name, ⟨t₁, t₂, key, _, hlt, hleft⟩, p, hevent, rfl⟩
      obtain ⟨hactive, hmissing⟩ := hleft t hlt (Nat.le_refl t)
      obtain ⟨hnow, hstays⟩ := get?_of_register hevent
      exact not_vouched_of_register hevent hmissing
        (hall (t + 1) p.name p (hstays hmissing hactive) hnow)
  · exact fun clean t name p => clean.vouched t

/-- A new linter takes the place of the one that a call is asking; the old one is available. -/
def replacedWhileAsked : Schedule :=
  ofMoves [.host (.register (lint 0)), .host (.call (.host 0) (.activate "lint")),
    .host (.register (lint 1)), .answer 0 (.available true)]

/-- Nobody has asked the new linter. -/
theorem exists_active_unvouched :
    ¬ ∀ (s : Schedule) (t : Nat) (name : String) (p : Plugin), name ∈ (s.registry t).active →
      (s.registry t).get? name = some p → s.Vouched t name p := by
  intro h
  have hyes {t : Nat} {q : Inquiry} (hconfirms : replacedWhileAsked.Confirms t q) (past : t < 4)
      (own : q.plugin = lint 1) : False := by
    obtain ⟨n, hmove, hq⟩ := hconfirms
    obtain rfl | rfl | rfl | rfl : t = 0 ∨ t = 1 ∨ t = 2 ∨ t = 3 := by omega
    · cases hmove
    · cases hmove
    · cases hmove
    · cases hmove
      cases hq
      exact absurd (congrArg Plugin.id own) (by decide)
  cases h replacedWhileAsked 4 "lint" (lint 1) (by decide) rfl with
  | registered t₁ t₂ q confirmed own past registered => exact hyes confirmed.confirms past own
  | published t₁ t₂ t₃ q fresh probes confirmed own before past event publishes registered =>
      exact hyes confirmed.confirms (Nat.lt_trans before past) own

end Shellwright.Registry.Schedule
