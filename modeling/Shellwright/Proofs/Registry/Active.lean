import Shellwright.Proofs.Registry.History
/-!
# Active names and registered names

A name is active without being registered exactly when a call made it active that had begun to check
it before it was removed.
-/

namespace Shellwright.Registry.Schedule

variable (s : Schedule)

def Removes (t : Nat) (name : String) : Prop :=
  s.event? t = some (.unregister name) ∨ s.event? t = some .clear

def Registers (t : Nat) (name : String) : Prop :=
  ∃ p, s.event? t = some (.register p) ∧ p.name = name

/-- From one moment to another the call checks the plugin of this name among the registered ones. -/
def ChecksThroughout (t₁ t₂ : Nat) (key : CallKey) (name : String) : Prop :=
  ∀ u, t₁ ≤ u → u ≤ t₂ → (s.registry u).Checking key none name

/-- While the call checks the name, it is removed and not registered again; then the call makes it
active. -/
structure Orphans (t₁ t₂ : Nat) (key : CallKey) (name : String) : Prop where
  earlier : t₁ < t₂
  checking : s.ChecksThroughout t₁ t₂ key name
  removed : s.Removes t₁ name
  unregistered : ∀ u, t₁ < u → u < t₂ → ¬ s.Registers u name
  passes : ∃ e, s.event? t₂ = some e ∧ (s.registry t₂).Passes e key name

variable {s} {t : Nat} {e : Event} {key : CallKey} {name : String}

/-! ## What a check may see -/

theorem holder_of_checking {source : Option (Keyed String Plugin)}
    (h : (s.registry t).Checking key source name) : (s.registry t).lock.holder = some key := by
  obtain ⟨c, part, passed, call, checks⟩ := h
  exact ((s.orderly t).fits key c call).locked checks.locks

/-- While a call checks, only the host changes the plugins. -/
theorem plugins_of_checking {source : Option (Keyed String Plugin)} {other : String}
    (hevent : s.event? t = some e) (before : (s.registry t).Checking key source name)
    (after : (s.registry (t + 1)).Checking key source other) :
    (∃ core, (s.registry t).altered e = some core ∧
      (s.registry (t + 1)).plugins = core.plugins) ∨
    (s.registry t).altered e = none ∧ (s.registry (t + 1)).plugins = (s.registry t).plugins := by
  cases change hevent with
  | altered core event plugins active => exact .inl ⟨core, event, plugins⟩
  | kept event plugins active => exact .inr ⟨event, plugins⟩
  | activated k n passes plugins active =>
      refine .inr ⟨?_, plugins⟩
      rcases passes with ⟨c, i, rfl, _⟩ | ⟨purpose, probes, rfl, _⟩ <;> rfl
  | settled k purpose probes unaltered event alone gone plugins active =>
      rcases alone with rfl | alone
      · exact .inr ⟨unaltered, plugins⟩
      -- Only the call that holds the lock settles, and that one is still under way.
      · obtain rfl := alone key (holder_of_checking before)
        obtain ⟨c, _, _, call, _⟩ := after
        rw [gone] at call
        cases call

theorem ChecksThroughout.succ {t₁ t₂ : Nat} (h : s.ChecksThroughout t₁ t₂ key name)
    (still : (s.registry (t₂ + 1)).Checking key none name) :
    s.ChecksThroughout t₁ (t₂ + 1) key name :=
  throughout_succ h still

theorem get?_of_registers (h : s.Registers t name) : (s.registry (t + 1)).get? name ≠ none := by
  obtain ⟨p, hevent, rfl⟩ := h
  cases change hevent with
  | altered core event plugins active =>
      cases event
      rw [get?_congr plugins]
      change (Keyed.put _ _ _).get? p.name ≠ none
      rw [Keyed.get?_put_self]
      nofun
  | kept event plugins active => cases event
  | activated k n passes plugins active =>
      rcases passes with ⟨c, i, heq, _⟩ | ⟨purpose, probes, heq, _⟩ <;> cases heq
  | settled k purpose probes unaltered event alone gone plugins active => cases unaltered

/-- The name has been removed while the call was checking it, and not been registered since. -/
def Removed (s : Schedule) (t : Nat) (key : CallKey) (name : String) : Prop :=
  ∃ t₁ < t, s.ChecksThroughout t₁ t key name ∧ s.Removes t₁ name ∧
    ∀ u, t₁ < u → u < t → ¬ s.Registers u name

theorem Removed.succ (h : s.Removed t key name) (quiet : ¬ s.Registers t name)
    (still : (s.registry (t + 1)).Checking key none name) : s.Removed (t + 1) key name := by
  obtain ⟨t₁, hlt, hchecks, hremoves, hnot⟩ := h
  refine ⟨t₁, Nat.lt_succ_of_lt hlt, hchecks.succ still, hremoves, fun u hu hlt' => ?_⟩
  rcases Nat.lt_or_eq_of_le (Nat.le_of_lt_succ hlt') with hlt' | rfl
  · exact hnot u hu hlt'
  · exact quiet

/-- A name that a call checks is registered, unless it has been removed meanwhile. -/
theorem removed_of_checking (s : Schedule) (t : Nat) {key : CallKey} {name : String}
    (h : (s.registry t).Checking key none name) :
    (s.registry t).get? name ≠ none ∨ s.Removed t key name := by
  induction t with
  | zero =>
      obtain ⟨c, _, _, call, _⟩ := h
      cases call
  | succ t ih =>
      by_cases hregisters : s.Registers t name
      · exact .inl (get?_of_registers hregisters)
      have hcarry (before : (s.registry t).Checking key none name)
          (same : (s.registry (t + 1)).get? name = (s.registry t).get? name) :
          (s.registry (t + 1)).get? name ≠ none ∨ s.Removed (t + 1) key name := by
        rw [same]
        exact (ih before).imp_right fun hremoved => hremoved.succ hregisters h
      cases hevent : s.event? t with
      | none =>
          have hsame := registry_of_none hevent
          exact hcarry (hsame ▸ h) (by rw [hsame])
      | some e =>
          -- The check was under way before, unless the name has only now been looked up and found.
          have hbefore : (s.registry t).Checking key none name ∨
              (s.registry (t + 1)).get? name ≠ none := by
            obtain ⟨c, part, passed, call, checks⟩ := h
            cases since hevent call checks with
            | before _ c₀ call₀ checks₀ quiet =>
                rw [World.spend_registry] at call₀
                exact .inl ⟨c₀, part, passed, call₀, checks₀⟩
            | passed c₀ event call₀ checks₀ =>
                rw [World.spend_registry] at call₀
                exact .inl ⟨c₀, part, false, call₀, checks₀⟩
            | asked p found named asks apart plugins =>
                refine .inr ?_
                have hfound : ((s.world t).spend (s t)).registry.get? name = some p := found
                rw [registry, world_of_some hevent]
                rw [← get?_congr plugins name] at hfound
                intro hnone
                exact Option.some_ne_none p (hfound.symm.trans hnone)
          rcases hbefore with hbefore | hfound
          · rcases plugins_of_checking hevent hbefore h with ⟨core, haltered, hplugins⟩ |
              ⟨_, hplugins⟩
            · rcases altered_get? haltered name with hsame | ⟨p, _, _, hfound⟩ | ⟨hremoves, _⟩
              · exact hcarry hbefore ((get?_congr hplugins name).trans hsame)
              · refine .inl ?_
                rw [get?_congr hplugins, hfound]
                exact Option.some_ne_none p
              · refine .inr ⟨t, Nat.lt_succ_self t, ?_, ?_, fun u hu hlt => ?_⟩
                · intro u hu hle
                  rcases Nat.lt_or_eq_of_le hle with hlt | rfl
                  · obtain rfl := Nat.le_antisymm (Nat.le_of_lt_succ hlt) hu
                    exact hbefore
                  · exact h
                · unfold Removes
                  rw [hevent]
                  exact hremoves.imp (congrArg some) (congrArg some)
                · omega
            · exact hcarry hbefore (get?_congr hplugins name)
          · exact .inl hfound

/-! ## What a call leaves behind -/

/-- The name is active and not registered ever since a call left it so. -/
def LeftBehind (s : Schedule) (t : Nat) (name : String) : Prop :=
  ∃ t₁ t₂ key, s.Orphans t₁ t₂ key name ∧ t₂ < t ∧
    ∀ u, t₂ < u → u ≤ t → name ∈ (s.registry u).active ∧ (s.registry u).get? name = none

theorem LeftBehind.succ (h : s.LeftBehind t name) (active : name ∈ (s.registry (t + 1)).active)
    (missing : (s.registry (t + 1)).get? name = none) : s.LeftBehind (t + 1) name := by
  obtain ⟨t₁, t₂, key, horphans, hlt, hsince⟩ := h
  exact ⟨t₁, t₂, key, horphans, Nat.lt_succ_of_lt hlt, throughout_succ hsince ⟨active, missing⟩⟩

/-- A replacement activates only names that it registers. -/
theorem get?_of_published {fresh : Keyed String Plugin} {probes : List (String × Progress Bool)}
    (h : (s.registry t).Publishes e key fresh probes) (passed : name ∈ probed probes true) :
    ∃ p, fresh.get? name = some p := by
  obtain ⟨_, call⟩ := h
  have hprobes := ((s.orderly t).fits key _ call).probing _ _ rfl
  obtain ⟨i, hi⟩ := mem_probed.1 passed
  refine (Keyed.has_iff _ _).1 ((hprobes.suits fresh rfl).1 name ?_)
  exact List.mem_map.2 ⟨_, List.mem_of_getElem? hi, rfl⟩

theorem leftBehind_of_active (s : Schedule) (t : Nat) {name : String}
    (active : name ∈ (s.registry t).active) (missing : (s.registry t).get? name = none) :
    s.LeftBehind t name := by
  induction t with
  | zero => cases active
  | succ t ih =>
      have hcarry (hactive : name ∈ (s.registry t).active)
          (hmissing : (s.registry t).get? name = none) : s.LeftBehind (t + 1) name :=
        (ih hactive hmissing).succ active missing
      cases hevent : s.event? t with
      | none =>
          have hsame := registry_of_none hevent
          exact hcarry (hsame ▸ active) (hsame ▸ missing)
      | some e =>
          cases (change hevent).comes active with
          | altered core event plugins hactive =>
              rw [get?_congr plugins] at missing
              obtain ⟨hactive, hsame | ⟨_, p, _, _, hfound⟩⟩ := altered_active event hactive
              · exact hcarry hactive (hsame.symm.trans missing)
              · exact nomatch hfound.symm.trans missing
          | stays plugins hactive =>
              exact hcarry hactive ((get?_congr plugins name).symm.trans missing)
          | passes key passes plugins =>
              have hmissing := (get?_congr plugins name).symm.trans missing
              rcases s.removed_of_checking t passes.checking with hfound |
                ⟨t₁, hlt, hchecks, hremoves, hnot⟩
              · exact absurd hmissing hfound
              · refine ⟨t₁, t, key, ⟨hlt, hchecks, hremoves, hnot, e, hevent, passes⟩,
                  Nat.lt_succ_self t, fun u hu hle => ?_⟩
                obtain rfl := Nat.le_antisymm hle hu
                exact ⟨active, missing⟩
          | published key fresh probes publishes plugins passed =>
              obtain ⟨p, hfound⟩ := get?_of_published publishes passed
              have hnone : fresh.get? name = none := plugins ▸ missing
              exact nomatch hfound.symm.trans hnone

theorem get?_of_removes (h : s.Removes t name) : (s.registry (t + 1)).get? name = none := by
  have hnone {e : Event} (hevent : s.event? t = some e) {core : Registry}
      (haltered : (s.registry t).altered e = some core) (lost : core.get? name = none) :
      (s.registry (t + 1)).get? name = none := by
    cases change hevent with
    | altered core' event plugins active =>
        obtain rfl := Option.some.inj (haltered.symm.trans event)
        rw [get?_congr plugins, lost]
    | kept event plugins active => exact nomatch haltered.symm.trans event
    | activated k n passes plugins active =>
        rcases passes with ⟨c, i, rfl, _⟩ | ⟨purpose, probes, rfl, _⟩ <;> cases haltered
    | settled k purpose probes unaltered event alone gone plugins active =>
        exact nomatch haltered.symm.trans unaltered
  rcases h with hevent | hevent
  · refine hnone hevent rfl ?_
    split
    · exact (Keyed.get?_drop _ name name).trans (if_pos rfl)
    · rename_i hhas
      exact (Keyed.has_eq_false_iff _ _).1 (by simpa using hhas)
  · exact hnone hevent rfl rfl

/-- Until the call makes it active the name stays unregistered. -/
theorem Orphans.missing {t₁ t₂ : Nat} (h : s.Orphans t₁ t₂ key name) {u : Nat} (after : t₁ < u)
    (until' : u ≤ t₂) : (s.registry u).get? name = none := by
  induction after with
  | refl => exact get?_of_removes h.removed
  | @step u hu ih =>
      have hmissing := ih (Nat.le_of_succ_le until')
      have hlt : t₁ ≤ u := Nat.le_of_succ_le hu
      have hbefore := h.checking u hlt (Nat.le_of_succ_le until')
      have hafter := h.checking (u + 1) (Nat.le_succ_of_le hlt) until'
      cases hevent : s.event? u with
      | none => rw [registry_of_none hevent, hmissing]
      | some e =>
          rcases plugins_of_checking hevent hbefore hafter with ⟨core, haltered, hplugins⟩ |
            ⟨_, hplugins⟩
          · rw [get?_congr hplugins]
            rcases altered_get? haltered name with hsame | ⟨p, rfl, hname, _⟩ | ⟨_, hnone⟩
            · rw [hsame, hmissing]
            · exact absurd ⟨p, hevent, hname⟩ (h.unregistered u hu until')
            · exact hnone
          · rw [get?_congr hplugins, hmissing]

theorem passes_active (hevent : s.event? t = some e) (passes : (s.registry t).Passes e key name) :
    (s.registry (t + 1)).plugins = (s.registry t).plugins ∧
      name ∈ (s.registry (t + 1)).active := by
  have hspent := World.spend_registry (s.world t) (s t)
  have hpasses : ((s.world t).spend (s t)).registry.Passes e key name := by
    rw [hspent]
    exact passes
  obtain ⟨hplugins, hactive⟩ := passes_step (Leaves.start (spend_orderly s t).outbox) hpasses
    ((s.world t).spend (s t)).buffers
  rw [registry, world_of_some hevent]
  exact ⟨hplugins.trans (congrArg _ hspent), hactive⟩

/-- Every active name is registered at all times, exactly when no call makes a name active that was
removed while the call was checking it. -/
theorem active_registered_iff (s : Schedule) :
    (∀ t name, name ∈ (s.registry t).active → (s.registry t).plugins.has name = true) ↔
      ¬ ∃ t₁ t₂ key name, s.Orphans t₁ t₂ key name := by
  constructor
  -- What a call has orphaned is active and missing right after.
  · rintro hall ⟨t₁, t₂, key, name, horphans⟩
    obtain ⟨e, hevent, hpasses⟩ := horphans.passes
    obtain ⟨hplugins, hactive⟩ := passes_active hevent hpasses
    have hhas := hall (t₂ + 1) name hactive
    obtain ⟨p, hfound⟩ := (Keyed.has_iff _ _).1 hhas
    have hmissing := horphans.missing horphans.earlier (Nat.le_refl t₂)
    rw [← get?_congr hplugins] at hmissing
    exact nomatch hfound.symm.trans hmissing
  · intro hnone t name hactive
    cases hhas : (s.registry t).plugins.has name with
    | true => rfl
    | false =>
        have hmissing : (s.registry t).get? name = none := (Keyed.has_eq_false_iff _ _).1 hhas
        obtain ⟨t₁, t₂, key, horphans, _⟩ := s.leftBehind_of_active t hactive hmissing
        exact absurd ⟨t₁, t₂, key, name, horphans⟩ hnone

/-- A linter that the host supplies. -/
def lint (id : Nat) : Plugin :=
  ⟨id, "lint", "Lint", "1.0", false, supportAll, .external id⟩

/-- The linter is removed while a call waits for its answer, which is that it is available. -/
def removedWhileAsked : Schedule :=
  ofMoves [.host (.register (lint 0)), .host (.call (.host 0) (.activate "lint")),
    .host (.unregister "lint"), .answer 0 (.available true)]

/-- Names can be active without being registered. -/
theorem exists_active_unregistered :
    ¬ ∀ (s : Schedule) (t : Nat) (name : String), name ∈ (s.registry t).active →
      (s.registry t).plugins.has name = true := by
  intro h
  have hhas := h removedWhileAsked 4 "lint" (by decide)
  exact absurd hhas (by decide)

end Shellwright.Registry.Schedule
