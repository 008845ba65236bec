import Shellwright.Proofs.Registry.Checking
/-!
# Changes of what is active

What a single step does to the plugins and to the names that are active.
-/

namespace Shellwright.Registry

/-- What a step makes of the plugins and of the active names. -/
inductive Change (r : Registry) (e : Event) (r' : Registry) : Prop
  | altered (core : Registry) (event : r.altered e = some core)
      (plugins : r'.plugins = core.plugins) (active : r'.active = core.active)
  | kept (event : r.altered e = none) (plugins : r'.plugins = r.plugins)
      (active : r'.active = r.active)
  | activated (key : CallKey) (name : String) (passes : r.Passes e key name)
      (plugins : r'.plugins = r.plugins) (active : r'.active = (r.withActive name).active)
  /-- No other call holds the lock. -/
  | settled (key : CallKey) (purpose : ProbePurpose) (probes : List (String × Progress Bool))
      (unaltered : r.altered e = none)
      (event : e = .gathered key ∧ r.calls.get? key = some ⟨.probing purpose probes, false⟩ ∨
        probes = [])
      (alone : purpose = .available ∨ ∀ k, r.lock.holder = some k → k = key)
      (gone : r'.calls.get? key = none) (plugins : r'.plugins = (r.settle purpose probes).plugins)
      (active : r'.active = (r.settle purpose probes).active)

namespace World

variable {w : World} {e : Event} {r r' : Registry}

theorem Orderly.goes_change (h : w.Orderly) (unaltered : w.registry.altered e = none)
    {key : CallKey} (reaches : w.Reaches r)
    (active : r.active = w.registry.active)
    (alone : ∀ k, w.registry.lock.holder = some k → r.Holds e key → r.Starts e key → k = key)
    (goes : Goes r e key r') : w.registry.Change e (w.after r').registry := by
  have hkept (plugins : r'.plugins = r.plugins) (active' : r'.active = r.active) :
      w.registry.Change e (w.after r').registry :=
    .kept unaltered (plugins.trans reaches.plugins) (active'.trans active)
  cases goes with
  | activated i c name event call stage leaves =>
      refine .activated key name (.inl ⟨c, i, event, reaches.call call, stage⟩)
        (leaves.plugins.trans reaches.plugins) (leaves.active.trans ?_)
      change (if r.isActive name then r.active else r.active ++ [name]) = _
      rw [isActive, active]
      rfl
  | completing purpose probes reply event leaves =>
      have hsettle : (r.settle purpose probes).plugins = (w.registry.settle purpose probes).plugins ∧
          (r.settle purpose probes).active = (w.registry.settle purpose probes).active := by
        unfold settle
        cases purpose with
        | activateAll => exact ⟨reaches.plugins, by simp only [active]⟩
        | reactivate => exact ⟨reaches.plugins, rfl⟩
        | replace fresh => exact ⟨rfl, rfl⟩
        | available => exact ⟨reaches.plugins, active⟩
      refine .settled key purpose probes unaltered ?_ ?_ ?_ (leaves.plugins.trans hsettle.1)
        (leaves.active.trans hsettle.2)
      · rcases event with ⟨event, call⟩ | ⟨rfl, _⟩
        · exact .inl ⟨event, reaches.call call⟩
        · exact .inr rfl
      · rcases event with ⟨_, call⟩ | ⟨_, starts, holds, _⟩
        · by_cases hpurpose : purpose = .available
          · exact .inl hpurpose
          · have hfits := h.fits key _ (reaches.call call)
            have hholder : w.registry.lock.holder = some key := hfits.locked hpurpose
            exact .inr fun k hk => Option.some.inj (hk.symm.trans hholder)
        · exact holds.imp_right fun holds k hk => alone k hk holds starts
      · change r'.calls.get? key = none
        rw [leaves.calls]
        exact (Keyed.get?_drop _ key key).trans (if_pos rfl)
  | activating name p starts holds found leaves =>
      exact hkept leaves.plugins leaves.active
  | probing purpose names starts holds distinct suits leaves =>
      exact hkept leaves.plugins leaves.active
  | asking i purpose probes name progress p event call part found leaves =>
      exact hkept leaves.plugins leaves.active
  | settling i c purpose probes name progress ok event call stage part leaves =>
      exact hkept leaves.plugins leaves.active
  | marking c event call leaves =>
      exact hkept leaves.plugins leaves.active
  | reading c ls as stage since later asked leaves =>
      exact hkept leaves.plugins leaves.active
  | ending outcome leaves =>
      exact hkept leaves.plugins leaves.active

theorem Orderly.change (h : w.Orderly) (ready : w.Ready e) :
    w.registry.Change e (w.react e).registry := by
  rw [react_eq_after]
  cases haltered : w.registry.altered e with
  | some core =>
      have hleaves := altered_leaves (Leaves.start h.outbox) w.buffers haltered
      exact .altered core haltered hleaves.plugins hleaves.active
  | none =>
      cases step_reacts h.outbox w.buffers e with
      | changed core event leaves =>
          rw [haltered] at event
          cases event
      | idle leaves => exact .kept haltered leaves.plugins leaves.active
      | queued key request held event busy leaves =>
          exact .kept haltered leaves.plugins leaves.active
      | withdrawn key event leaves => exact .kept haltered leaves.plugins leaves.active
      | enters key request event free goes =>
          refine h.goes_change haltered (reaches_taken free key) rfl ?_ goes
          exact fun k hk _ _ => absurd (free.symm.trans hk) nofun
      | goes key goes =>
          refine h.goes_change haltered h.reaches rfl (fun k hk holds starts => ?_) goes
          exact Option.some.inj (hk.symm.trans (h.reaches.holds ready starts holds))

end World

/-! ## Changes of the host -/

theorem get?_congr {r r' : Registry} (h : r'.plugins = r.plugins) (name : String) :
    r'.get? name = r.get? name := by
  unfold Registry.get?
  rw [h]

/-- What is found under a name after a change of the host. -/
theorem altered_get? {r core : Registry} {e : Event} (h : r.altered e = some core)
    (name : String) :
    core.get? name = r.get? name ∨
      (∃ p, e = .register p ∧ p.name = name ∧ core.get? name = some p) ∨
      (e = .unregister name ∨ e = .clear) ∧ core.get? name = none := by
  cases e with
  | register p =>
      cases h
      have hput := Keyed.get?_put r.plugins p.name name p
      by_cases heq : name = p.name
      · rw [if_pos heq] at hput
        exact .inr (.inl ⟨p, rfl, heq.symm, hput⟩)
      · rw [if_neg heq] at hput
        exact .inl hput
  | unregister n =>
      cases h
      split
      · have hdrop := Keyed.get?_drop r.plugins n name
        by_cases heq : name = n
        · rw [if_pos heq] at hdrop
          exact .inr (.inr ⟨.inl (by rw [heq]), hdrop⟩)
        · rw [if_neg heq] at hdrop
          exact .inl hdrop
      · exact .inl rfl
  | clear =>
      cases h
      exact .inr (.inr ⟨.inr rfl, rfl⟩)
  | deactivate n =>
      cases h
      exact .inl rfl
  | deactivateAll =>
      cases h
      exact .inl rfl
  | _ => cases h

/-- A change of the host activates nothing. What is active afterwards has kept its plugin, or had none
and has been given one. -/
theorem altered_active {r core : Registry} {e : Event} (h : r.altered e = some core)
    {name : String} (active : name ∈ core.active) :
    name ∈ r.active ∧ (core.get? name = r.get? name ∨
      r.get? name = none ∧ ∃ p, e = .register p ∧ p.name = name ∧ core.get? name = some p) := by
  have hget := altered_get? h name
  cases e with
  | register p =>
      cases h
      change name ∈ (if r.plugins.has p.name then r.active.filter (· != p.name) else r.active)
        at active
      have hactive : name ∈ r.active := by
        split at active
        · exact (List.mem_filter.1 active).1
        · exact active
      refine ⟨hactive, hget.imp_right ?_⟩
      rintro (⟨q, ⟨⟩, rfl, hfound⟩ | ⟨⟨⟨⟩⟩ | ⟨⟨⟩⟩, _⟩)
      refine ⟨?_, p, rfl, rfl, hfound⟩
      split at active
      · simp at active
      · rename_i hhas
        exact (Keyed.has_eq_false_iff _ _).1 (by simpa using hhas)
  | unregister n =>
      cases h
      split at active
      · rename_i hhas
        obtain ⟨hactive, hne⟩ := List.mem_filter.1 active
        refine ⟨hactive, .inl ?_⟩
        rw [if_pos hhas]
        exact (Keyed.get?_drop _ n name).trans (if_neg (by simpa using hne))
      · rename_i hhas
        rw [if_neg hhas]
        exact ⟨active, .inl rfl⟩
  | clear =>
      cases h
      cases active
  | deactivate n =>
      cases h
      exact ⟨(List.mem_filter.1 active).1, .inl rfl⟩
  | deactivateAll =>
      cases h
      cases active
  | _ => cases h

/-! ## Names that are active afterwards -/

/-- How it comes that a name is active after a step. -/
inductive Comes (r : Registry) (e : Event) (r' : Registry) (name : String) : Prop
  | altered (core : Registry) (event : r.altered e = some core)
      (plugins : r'.plugins = core.plugins) (active : name ∈ core.active)
  | stays (plugins : r'.plugins = r.plugins) (active : name ∈ r.active)
  | passes (key : CallKey) (passes : r.Passes e key name) (plugins : r'.plugins = r.plugins)
  | published (key : CallKey) (fresh : Keyed String Plugin)
      (probes : List (String × Progress Bool)) (publishes : r.Publishes e key fresh probes)
      (plugins : r'.plugins = fresh) (passed : name ∈ probed probes true)

theorem Change.comes {r r' : Registry} {e : Event} {name : String} (h : r.Change e r')
    (active : name ∈ r'.active) : r.Comes e r' name := by
  cases h with
  | altered core event plugins hactive =>
      rw [hactive] at active
      exact .altered core event plugins active
  | kept event plugins hactive =>
      rw [hactive] at active
      exact .stays plugins active
  | activated key n passes plugins hactive =>
      rw [hactive] at active
      change name ∈ (if r.isActive n then r.active else r.active ++ [n]) at active
      split at active
      · exact .stays plugins active
      · rcases List.mem_append.1 active with active | active
        · exact .stays plugins active
        · obtain rfl := List.mem_singleton.1 active
          exact .passes key passes plugins
  | settled key purpose probes unaltered event alone gone plugins hactive =>
      rw [hactive] at active
      have hpasses (kind : purpose = .activateAll ∨ purpose = .reactivate)
          (hmem : name ∈ probed probes true) : r.Passes e key name := by
        rcases event with ⟨event, call⟩ | rfl
        · exact .inr ⟨purpose, probes, event, call, kind, hmem⟩
        · cases hmem
      cases purpose with
      | activateAll =>
          rcases List.mem_append.1 active with active | active
          · exact .stays plugins active
          · exact .passes key (hpasses (.inl rfl) (List.mem_filter.1 active).1) plugins
      | reactivate => exact .passes key (hpasses (.inr rfl) active) plugins
      | replace fresh =>
          rcases event with event | rfl
          · exact .published key fresh probes event plugins active
          · cases active
      | available => exact .stays plugins active

/-- A name that passes is active afterwards, and the plugins stay. -/
theorem passes_step {r : Registry} {e : Event} {key : CallKey} {name : String}
    (h : r.Leaves r [] [] []) (passes : r.Passes e key name) (buffers : Buffers) :
    (r.step buffers e).plugins = r.plugins ∧ name ∈ (r.step buffers e).active := by
  rcases passes with ⟨c, i, rfl, call, stage⟩ | ⟨purpose, probes, rfl, call, kind, hmem⟩
  · have hleaves := (h.withActive (r.withActive name).active).finish key (.done (.flag true))
    have hstep : r.step buffers (.answered key i (.available true)) =
        { r with active := (r.withActive name).active }.finish key (.done (.flag true)) := by
      simp only [step, withCall, call, answered, stage, availability]
      rfl
    rw [hstep, hleaves.plugins, hleaves.active]
    refine ⟨rfl, ?_⟩
    change name ∈ if r.isActive name then r.active else r.active ++ [name]
    split
    · rename_i hactive
      simpa [isActive] using hactive
    · simp
  · obtain ⟨reply, hleaves⟩ := completeProbes_leaves h key purpose probes
    have hstep : r.step buffers (.gathered key) = r.completeProbes key purpose probes := by
      simp only [step, withCall, call, gathered]
      rfl
    rw [hstep, hleaves.plugins, hleaves.active]
    rcases kind with rfl | rfl
    · refine ⟨rfl, ?_⟩
      change name ∈ r.active ++ (probed probes true).filter (!r.active.contains ·)
      by_cases hactive : name ∈ r.active
      · exact List.mem_append_left _ hactive
      · exact List.mem_append_right _ (List.mem_filter.2 ⟨hmem, by simpa using hactive⟩)
    · exact ⟨rfl, hmem⟩

end Shellwright.Registry
