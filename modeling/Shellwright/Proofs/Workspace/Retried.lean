import Shellwright.Proofs.Workspace.Configured
import Shellwright.Proofs.Workspace.Retrying
/-!
# Settings that are applied once more

A call that fails while it builds plugins leaves its settings in force, so that the next call with the same
settings finds nothing changed. It builds no plugins either, and the old ones stay.
-/

namespace Shellwright

/-- The plugin without the number by which it is told from others of its name. -/
def Plugin.unnumbered (p : Plugin) : Plugin :=
  { p with id := 0 }

/-- Plugins that differ in their numbers at most are registered under the same names, and the same are
active. -/
structure Registry.Matches (r r' : Registry) : Prop where
  plugins : ∀ name, (r.plugins.get? name).map Plugin.unnumbered =
    (r'.plugins.get? name).map Plugin.unnumbered
  active : ∀ name, name ∈ r.activeNames ↔ name ∈ r'.activeNames

namespace Workspace

open Review

namespace Chronicle

/-- No settings are applied from move `t` on and before `t'`. -/
def Steady (c : Chronicle) (t t' : Nat) : Prop :=
  ∀ u n settings documents, t ≤ u → u < t' → c.event? u ≠ some (.call n (.apply settings documents))

/-- The call `n` applies the settings with move `t₀` and fails with move `t₁`: the loader raises, or the
call is called off that waits for its plugins. -/
structure Fails (c : Chronicle) (n : Nat) (settings : Settings) (documents : List String) (t₀ t₁ : Nat) :
    Prop where
  call : c.event? t₀ = some (.call n (.apply settings documents))
  ends : (t₁ = t₀ ∧ (c.workspace t₀).settings.affectsPlugins settings = true ∧
      ∃ failure, (n, .raised (.loading failure)) ∈ c.replies t₁) ∨
    (t₀ < t₁ ∧ (c.workspace t₁).calls.get? n = some .rebuilding ∧ (n, .aborted) ∈ c.replies t₁)

/-- The two begin alike, and go on alike before move `t`. -/
structure Shares (c c' : Chronicle) (t : Nat) : Prop where
  settings : c'.settings = c.settings
  loader : c'.loader = c.loader
  buffers : c'.buffers = c.buffers
  moves : ∀ u, u < t → c'.move u = c.move u

variable {c c' : Chronicle} {n t t' t₀ t₁ t₂ : Nat} {settings : Settings} {documents : List String}

theorem Shares.site (h : c.Shares c' t) (le : t' ≤ t) : c'.site t' = c.site t' := by
  induction t' with
  | zero => simp only [Chronicle.site, h.settings, h.loader, h.buffers]
  | succ t' ih => simp only [Chronicle.site, ih (Nat.le_of_lt le), h.moves t' le]

theorem workspace_of_event {e : Event} (event : c.event? t = some e) :
    c.workspace (t + 1) = { (c.workspace t).step e with outbox := [] } :=
  Site.step_workspace event

theorem steady_of_moves (h : ∀ u, t ≤ u → u < t' → (c.move u).applies = false) : c.Steady t t' := by
  intro u n settings documents hu hlt event
  have hmove := h u hu hlt
  unfold event? Site.event? at event
  cases hm : c.move u with
  | host e =>
      rw [hm] at event hmove
      obtain ⟨_, ⟨⟩⟩ := Option.ite_none_right_eq_some.1 event
      cases hmove
  | load loader =>
      rw [hm] at event
      cases event
  | chore k =>
      rw [hm] at event
      obtain ⟨_, _, ⟨⟩⟩ := Option.map_eq_some_iff.1 (Option.filter_eq_some_iff.1 event).1
  | _ =>
      rw [hm] at event
      obtain ⟨_, _, ⟨⟩⟩ := Option.map_eq_some_iff.1 event

/-- While no settings are applied those in force stay. -/
theorem Steady.keeps (h : c.Steady t t') (le : t ≤ t') : (c.workspace t).Keeps (c.workspace t') := by
  induction le with
  | refl => exact .refl _
  | @step t' since ih =>
      have hbefore : (c.workspace t).Keeps (c.workspace t') :=
        ih fun u n settings documents hu hlt => h u n settings documents hu (Nat.lt_succ_of_lt hlt)
      refine hbefore.trans ?_
      cases event : c.event? t' with
      | none =>
          have hstep : c.site (t' + 1) = (c.site t').spend (c.move t') := by
            rw [site, Site.step, show (c.site t').event? (c.move t') = none from event]
          unfold workspace
          rw [hstep]
          cases c.move t' with
          | load loader => exact .of_eq rfl rfl
          | _ => exact .refl _
      | some e =>
          have hother (n : Nat) (settings : Settings) (documents : List String) :
              e ≠ .call n (.apply settings documents) := by
            rintro rfl
            exact h t' n settings documents since (Nat.lt_succ_self t') event
          rw [workspace_of_event event]
          exact (step_keeps hother).trans (.of_eq rfl rfl)

/-- The settings are in force as soon as they are applied. -/
theorem settings_applied (call : c.event? t = some (.call n (.apply settings documents))) :
    (c.workspace (t + 1)).settings = settings := by
  rw [workspace_of_event call]
  exact apply_settings _ n settings documents

/-- The call had plugins to build. -/
theorem Fails.affects (h : c.Fails n settings documents t₀ t₁) (steady : c.Steady (t₀ + 1) t₁) :
    (c.workspace t₀).settings.affectsPlugins settings = true := by
  rcases h.ends with ⟨-, haffects, -⟩ | ⟨hlt, hcall, -⟩
  · exact haffects
  · have hwaits := (steady.keeps hlt).rebuilding n hcall
    rw [workspace_of_event h.call] at hwaits
    exact affects_of_rebuilding hwaits

/-- Until the call fails it waits for its plugins, and the registry stays as it was. -/
theorem Fails.waits (h : c.Fails n settings documents t₀ t₁) (steady : c.Steady (t₀ + 1) t₁)
    (idle : (c.site t₀).Idle) (leaves : ∀ t, t₀ < t → t < t₁ → (c.move t).Leaves n)
    (call : (c.workspace t₁).calls.get? n = some .rebuilding) (past : t₀ < t) (le : t ≤ t₁) :
    (c.site t).Waits n ∧ (c.site t₀).Same (c.site t) := by
  have hcall {t : Nat} (past : t₀ < t) (le : t ≤ t₁) :
      (c.workspace t).calls.get? n = some .rebuilding := by
    have hsteady : c.Steady t t₁ := fun u n settings documents hu =>
      steady u n settings documents (Nat.le_trans past hu)
    exact (hsteady.keeps le).rebuilding n call
  induction past with
  | refl =>
      have hfate := idle.fate (c.regular t₀) h.call (h.affects steady)
      exact hfate.waits_of_rebuilding (hcall (Nat.lt_succ_self t₀) le)
  | @step t past ih =>
      obtain ⟨hwaits, hsame⟩ := ih (Nat.le_of_lt le)
      have hfate := hwaits.leaves (c.regular t) (leaves t past le)
      obtain ⟨hwaits', hsame'⟩ := hfate.waits_of_rebuilding (hcall (Nat.lt_succ_of_lt past) le)
      exact ⟨hwaits', hsame.trans hsame'⟩

/-- The call leaves nothing behind in the registry. -/
theorem Fails.same (h : c.Fails n settings documents t₀ t₁) (steady : c.Steady (t₀ + 1) t₁)
    (idle : (c.site t₀).Idle) (leaves : ∀ t, t₀ < t → t < t₂ → (c.move t).Leaves n) (past : t₁ < t₂) :
    (c.site t₀).Same (c.site t₂) := by
  have hfailed : (c.site (t₁ + 1)).Idle ∧ (c.site t₀).Same (c.site (t₁ + 1)) := by
    rcases h.ends with ⟨rfl, haffects, failure, hraised⟩ | ⟨hlt, hcall, haborted⟩
    · exact (idle.fate (c.regular t₁) h.call haffects).fails_of_reply hraised nofun
    · obtain ⟨hwaits, hsame⟩ := h.waits steady idle
        (fun t ht hlt => leaves t ht (Nat.lt_trans hlt past)) hcall hlt (Nat.le_refl t₁)
      obtain ⟨hidle, hsame'⟩ := (hwaits.leaves (c.regular t₁)
        (leaves t₁ hlt past)).fails_of_reply haborted nofun
      exact ⟨hidle, hsame.trans hsame'⟩
  have hstays : (c.site t₂).Idle ∧ (c.site t₀).Same (c.site t₂) := by
    induction past with
    | refl => exact hfailed
    | @step t past ih =>
        obtain ⟨hidle, hsame⟩ := ih fun u hu hlt => leaves u hu (Nat.lt_succ_of_lt hlt)
        have hsince : t₀ < t := by
          rcases h.ends with ⟨rfl, -⟩ | ⟨hlt, -⟩
          · exact past
          · exact Nat.lt_trans hlt past
        obtain ⟨hidle', hsame'⟩ := hidle.leaves (c.regular t) (leaves t hsince (Nat.lt_succ_self t))
        exact ⟨hidle', hsame.trans hsame'⟩
  exact hstays.2

/-- When a call that applies settings has failed while it built plugins, the next call with the same settings
changes neither what is registered nor what is active, and the failed call has changed nothing either.
What is in place is therefore the same as without the failed call exactly if the plugins that the settings
call for, and no others to be active, were in place already. -/
theorem retried_iff (c c' : Chronicle) (n k k' : Nat) (settings : Settings)
    (documents documents₂ documents' : List String) (available available' : Plugin → Bool)
    (t₀ t₁ t₂ t₃ t₂' t₃' : Nat) (failed : c.Fails n settings documents t₀ t₁) (past : t₁ < t₂)
    (steady : c.Steady (t₀ + 1) t₂) (retried : c.Applies k settings documents₂ available t₂ t₃)
    (shares : c.Shares c' t₀) (since : t₀ ≤ t₂') (steady' : c'.Steady t₀ t₂')
    (applied : c'.Applies k' settings documents' available' t₂' t₃') :
    ((c.registry (t₃ + 1)).plugins = (c.registry t₂).plugins ∧
      (c.registry (t₃ + 1)).active = (c.registry t₂).active) ∧
    ((c.site t₀).Idle → (∀ t, t₀ < t → t < t₂ → (c.move t).Leaves n) →
      (c.registry t₂).plugins = (c.registry t₀).plugins ∧
        (c.registry t₂).active = (c.registry t₀).active) ∧
    ((c.registry (t₃ + 1)).Matches (c'.registry (t₃' + 1)) ↔
      (∀ name, ((c.registry t₂).plugins.get? name).map Plugin.unnumbered =
        ((c'.built settings t₂').get? name).map Plugin.unnumbered) ∧
      ∀ name, name ∈ (c.registry t₂).activeNames ↔
        (∃ p, (c'.built settings t₂').get? name = some p ∧ available' p = true) ∧
          (name ∈ (c'.registry t₂').activeNames ∨ (c.workspace t₀).settings.Retries settings name)) := by
  have hsteady : c.Steady (t₀ + 1) t₁ := fun u n settings documents hu hlt =>
    steady u n settings documents hu (Nat.lt_trans hlt past)
  have hle : t₀ + 1 ≤ t₂ := by
    rcases failed.ends with ⟨rfl, -⟩ | ⟨hlt, -⟩
    · exact past
    · exact Nat.lt_trans hlt past
  have hforce : (c.workspace t₂).settings = settings :=
    (steady.keeps hle).settings.trans (settings_applied failed.call)
  have hforce' : (c'.workspace t₂').settings = (c.workspace t₀).settings := by
    refine (steady'.keeps since).settings.trans ?_
    rw [workspace, shares.site (Nat.le_refl t₀), workspace]
  obtain ⟨hplugins, hactive⟩ := retried.keeps (hforce ▸ Settings.affectsPlugins_self settings)
  obtain ⟨hplugins', hactive'⟩ := applied.builds (hforce' ▸ failed.affects hsteady)
  rw [hforce'] at hactive'
  refine ⟨⟨hplugins, hactive⟩, fun idle leaves => ?_, ?_⟩
  · have hsame := failed.same hsteady idle leaves past
    exact ⟨hsame.plugins, hsame.active⟩
  · have hnames : (c.registry (t₃ + 1)).activeNames = (c.registry t₂).activeNames := by
      unfold Registry.activeNames Registry.isActive
      rw [hplugins, hactive]
    constructor
    · rintro ⟨hsame, hnamed⟩
      refine ⟨fun name => ?_, fun name => ?_⟩
      · rw [← hplugins, ← hplugins']
        exact hsame name
      · rw [← hnames, ← hactive' name]
        exact hnamed name
    · rintro ⟨hsame, hnamed⟩
      refine ⟨fun name => ?_, fun name => ?_⟩
      · rw [hplugins, hplugins']
        exact hsame name
      · rw [hnames, hactive' name]
        exact hnamed name

/-- The linter is enabled, but the call is called off that enables it; it is made once more. -/
def enabledTwice : Chronicle where
  settings := { linter := { enabled := false } }
  loader := .none
  buffers := []
  move t :=
    [.host (.call 0 .start), .next 0, .answer 0 (.available true), .next 0, .host (.call 1 (.apply {} [])),
      .next 0, .next 0, .host (.abort 1), .stop 0, .host (.call 2 (.apply {} []))].getD t (.ring 0)

/-- The linter is enabled, and the call goes through. -/
def enabledOnce : Chronicle where
  settings := { linter := { enabled := false } }
  loader := .none
  buffers := []
  move t :=
    [.host (.call 0 .start), .next 0, .answer 0 (.available true), .next 0, .host (.call 1 (.apply {} [])),
      .next 0, .next 0, .answer 0 (.available true), .answer 0 (.available true), .next 0].getD t (.ring 0)

theorem idle_of_isEmpty (calls : (c.workspace t).calls.isEmpty = true)
    (reviews : (c.workspace t).reviewer.calls.isEmpty = true)
    (registry : (c.registry t).calls.isEmpty = true) : (c.site t).Idle := by
  refine ⟨List.isEmpty_iff.1 calls, List.isEmpty_iff.1 reviews, fun n => ?_⟩
  change (c.registry t).calls.get? _ = none
  rw [List.isEmpty_iff.1 registry]
  rfl

theorem enabledTwice_fails : enabledTwice.Fails 1 {} [] 4 8 where
  call := event?_of_host rfl rfl (by decide +kernel)
  ends := .inr (by decide +kernel)

theorem enabledTwice_applies : enabledTwice.Applies 2 {} [] (fun _ => true) 9 9 where
  call := event?_of_host rfl rfl (by decide +kernel)
  idle := idle_of_isEmpty (by decide +kernel) (by decide +kernel) (by decide +kernel)
  le := Nat.le_refl 9
  alone t hpast hle := absurd hpast (Nat.not_lt_of_le hle)
  answers t hpast hle := absurd hpast (Nat.not_lt_of_le hle)
  returns := by decide +kernel

theorem enabledOnce_applies : enabledOnce.Applies 1 {} [] (fun _ => true) 4 9 where
  call := event?_of_host rfl rfl (by decide +kernel)
  idle := idle_of_isEmpty (by decide +kernel) (by decide +kernel) (by decide +kernel)
  le := by decide
  alone := by
    have halone : ∀ t < 10, 4 < t → (enabledOnce.move t).inner = true := by decide
    exact fun t hpast hle => halone t (Nat.lt_succ_of_le hle) hpast
  answers := by
    have haffirms : ∀ t < 10, 4 < t → enabledOnce.affirms t = true := by decide +kernel
    intro t hpast hle k a q hmove hq hquestion
    exact answers_of_affirms (haffirms t (Nat.lt_succ_of_le hle) hpast) hmove hq hquestion
  returns := by decide +kernel

theorem enabledTwice_steady : enabledTwice.Steady 5 9 := by
  have hmoves : ∀ u < 9, 5 ≤ u → (enabledTwice.move u).applies = false := by decide
  exact steady_of_moves fun u hu hlt => hmoves u hlt hu

theorem enabledOnce_shares : enabledTwice.Shares enabledOnce 4 where
  settings := rfl
  loader := rfl
  buffers := rfl
  moves u hu := by
    obtain rfl | rfl | rfl | rfl : u = 0 ∨ u = 1 ∨ u = 2 ∨ u = 3 := by omega
    all_goals rfl

/-- Once the linter has been enabled with two calls it is still neither registered nor active. -/
theorem enabledTwice_unchanged :
    (enabledTwice.registry 10).plugins = (enabledTwice.registry 4).plugins ∧
      (enabledTwice.registry 10).active = (enabledTwice.registry 4).active := by
  obtain ⟨⟨hplugins, hactive⟩, hbefore, -⟩ :=
    retried_iff enabledTwice enabledOnce 1 2 1 {} [] [] [] (fun _ => true) (fun _ => true) 4 8 9 9 4 9
      enabledTwice_fails (by decide) enabledTwice_steady enabledTwice_applies enabledOnce_shares
      (Nat.le_refl 4) (fun _ _ _ _ hle hlt => absurd hlt (Nat.not_lt_of_le hle)) enabledOnce_applies
  have hleaves (t : Nat) (past : 4 < t) (before : t < 9) : (enabledTwice.move t).Leaves 1 := by
    obtain rfl | rfl | rfl | rfl : t = 5 ∨ t = 6 ∨ t = 7 ∨ t = 8 := by omega
    · exact .inl rfl
    · exact .inl rfl
    · exact .inr rfl
    · exact .inl rfl
  have hidle : (enabledTwice.site 4).Idle :=
    idle_of_isEmpty (by decide +kernel) (by decide +kernel) (by decide +kernel)
  obtain ⟨hplugins', hactive'⟩ := hbefore hidle hleaves
  exact ⟨hplugins.trans hplugins', hactive.trans hactive'⟩

/-- After a call that failed, one that succeeds need not lead to what it leads to without it. -/
theorem exists_retried_apart :
    ∃ (c c' : Chronicle) (n k k' : Nat) (settings : Settings)
      (documents documents₂ documents' : List String) (available available' : Plugin → Bool)
      (t₀ t₁ t₂ t₃ t₂' t₃' : Nat), c.Fails n settings documents t₀ t₁ ∧ t₁ < t₂ ∧
        c.Steady (t₀ + 1) t₂ ∧ c.Applies k settings documents₂ available t₂ t₃ ∧ c.Shares c' t₀ ∧
        t₀ ≤ t₂' ∧ c'.Steady t₀ t₂' ∧ c'.Applies k' settings documents' available' t₂' t₃' ∧
        ¬(c.registry (t₃ + 1)).Matches (c'.registry (t₃' + 1)) := by
  refine ⟨enabledTwice, enabledOnce, 1, 2, 1, {}, [], [], [], fun _ => true, fun _ => true, 4, 8, 9, 9, 4,
    9, enabledTwice_fails, by decide, enabledTwice_steady, enabledTwice_applies, enabledOnce_shares,
    Nat.le_refl 4, fun _ _ _ _ hle hlt => absurd hlt (Nat.not_lt_of_le hle), enabledOnce_applies, ?_⟩
  intro h
  have honce : linterName ∈ (enabledOnce.registry 10).activeNames := by decide +kernel
  have htwice : linterName ∉ (enabledTwice.registry 10).activeNames := by decide +kernel
  exact htwice ((h.active linterName).2 honce)

end Chronicle

end Workspace

end Shellwright
