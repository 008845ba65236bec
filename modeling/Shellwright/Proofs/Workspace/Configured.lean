import Mathlib.Data.List.Forall2
import Shellwright.Proofs.Workspace.Books
/-!
# Plugins and the settings in force

Between two orders only settings change that do not concern the plugins. The plugins that are
registered are those that the settings in force would have built, apart from whether they report
failures of their tools: a change of that setting alone orders nothing.
-/

namespace Shellwright

/-- Two backends run the same commands with the same limit and report failures alike. -/
def Backend.Alike : Backend → Backend → Prop
  | .tool t reports, .tool t' reports' =>
    t.path = t'.path ∧ (∀ task, t.commandLine task = t'.commandLine task) ∧ t.timeout = t'.timeout ∧
      reports = reports'
  | _, _ => False

namespace Settings

variable {a b c : Settings}

theorem affectsPlugins_eq_false : a.affectsPlugins b = false ↔ a.formatter = b.formatter ∧
    a.linter = b.linter ∧ a.effectiveIndent = b.effectiveIndent ∧
      a.diagnosis.timeout = b.diagnosis.timeout := by
  simp [affectsPlugins, and_assoc]

theorem affectsPlugins_self (a : Settings) : a.affectsPlugins a = false :=
  affectsPlugins_eq_false.2 ⟨rfl, rfl, rfl, rfl⟩

theorem affectsPlugins_trans (h : a.affectsPlugins b = false) (h' : b.affectsPlugins c = false) :
    a.affectsPlugins c = false := by
  obtain ⟨hformatter, hlinter, hindent, htimeout⟩ := affectsPlugins_eq_false.1 h
  obtain ⟨hformatter', hlinter', hindent', htimeout'⟩ := affectsPlugins_eq_false.1 h'
  exact affectsPlugins_eq_false.2 ⟨hformatter.trans hformatter', hlinter.trans hlinter',
    hindent.trans hindent', htimeout.trans htimeout'⟩

theorem formatterTool_eq (h : a.affectsPlugins b = false) : a.formatterTool = b.formatterTool := by
  obtain ⟨hformatter, _, hindent, htimeout⟩ := affectsPlugins_eq_false.1 h
  unfold formatterTool formatterStyle
  rw [hformatter, hindent, htimeout]

theorem linterTool_eq (h : a.affectsPlugins b = false) : a.linterTool = b.linterTool := by
  obtain ⟨_, hlinter, _, htimeout⟩ := affectsPlugins_eq_false.1 h
  unfold linterTool lintFilter
  rw [hlinter, htimeout]

/-- The tools that both settings enable are used alike, unless no tool is enabled, if and only if their
failures are reported alike. -/
theorem alike_iff (h : a.affectsPlugins b = false) :
    ((b.formatter.enabled = true → (Backend.tool (.formatter a.formatterTool) a.reportFailures).Alike
        (.tool (.formatter b.formatterTool) b.reportFailures)) ∧
      (b.linter.enabled = true → (Backend.tool (.linter a.linterTool) a.reportFailures).Alike
        (.tool (.linter b.linterTool) b.reportFailures))) ↔
      b.enabledTools = [] ∨ a.reportFailures = b.reportFailures := by
  rw [formatterTool_eq h, linterTool_eq h]
  have halike (tool : Tool) : (Backend.tool tool a.reportFailures).Alike
      (.tool tool b.reportFailures) ↔ a.reportFailures = b.reportFailures :=
    ⟨fun hsame => hsame.2.2.2, fun hsame => ⟨rfl, fun _ => rfl, rfl, hsame⟩⟩
  rw [halike, halike]
  unfold enabledTools
  cases b.formatter.enabled <;> cases b.linter.enabled <;> simp

end Settings

namespace Plugin

/-- The same plugin, apart from the number by which it was made. -/
def Alike (q p : Plugin) : Prop :=
  q.name = p.name ∧ q.backend.Alike p.backend

variable {a b : Settings}

theorem mem_builtins {s : Settings} {next : Nat} {p : Plugin} : p ∈ builtins s next ↔
    s.formatter.enabled = true ∧ p = ofFormatter next s.formatterTool s.reportFailures ∨
      s.linter.enabled = true ∧ p = ofLinter (next + 1) s.linterTool s.reportFailures := by
  unfold builtins
  cases s.formatter.enabled <;> cases s.linter.enabled <;> simp

/-- Settings that require no new plugins build the same ones if failures are reported alike. -/
theorem builtins_alike_iff (h : a.affectsPlugins b = false) (next next' : Nat) :
    List.Forall₂ Alike (builtins a next) (builtins b next') ↔
      b.enabledTools = [] ∨ a.reportFailures = b.reportFailures := by
  rw [← Settings.alike_iff h]
  obtain ⟨hformatter, hlinter, _⟩ := Settings.affectsPlugins_eq_false.1 h
  unfold builtins Alike
  rw [hformatter, hlinter]
  cases b.formatter.enabled <;> cases b.linter.enabled <;> simp [ofFormatter, ofLinter]

end Plugin

namespace Workspace

variable {s : Settings} {next : Nat}

theorem blueprint_plugins (b : Blueprint) :
    b.plugins [] = Plugin.builtins b.settings b.made :=
  List.append_nil _

/-- What is found under the names of the tools among the plugins of an order. -/
theorem fresh_get? (o : Order) :
    (o.replacement []).fresh.get? formatterName =
        (if o.blueprint.settings.formatter.enabled then
          some (.ofFormatter o.blueprint.made o.blueprint.settings.formatterTool
            o.blueprint.settings.reportFailures) else none) ∧
      (o.replacement []).fresh.get? linterName =
        if o.blueprint.settings.linter.enabled then
          some (.ofLinter (o.blueprint.made + 1) o.blueprint.settings.linterTool
            o.blueprint.settings.reportFailures) else none := by
  unfold Registry.Replacement.fresh Order.replacement
  rw [blueprint_plugins]
  unfold Plugin.builtins
  cases o.blueprint.settings.formatter.enabled <;> cases o.blueprint.settings.linter.enabled <;>
    simp [Keyed.ofList, Keyed.put, Keyed.get?, Plugin.ofFormatter, Plugin.ofLinter, formatterName,
      linterName]

/-- The settings of the last order require no other plugins than those in force. -/
def Books.Current (b : Books) : Prop :=
  ∀ last ∈ b.blueprints.getLast?, last.settings.affectsPlugins b.settings = false

theorem Books.Current.note {loader : FactoryLoader} {b : Books} (h : b.Current)
    {log : List LogRecord} {factories : List Factory} (loads : loader.load = .ok (factories, log))
    (r : Request) : (b.note loader r).Current := by
  have hkept (settings : Settings) (made : Nat) (same : b.settings.affectsPlugins settings = false) :
      Books.Current ⟨settings, made, b.blueprints⟩ :=
    fun last hlast => Settings.affectsPlugins_trans (h last hlast) same
  have hnew (settings : Settings) (made : Nat) (last : Blueprint)
      (own : last.settings = settings) :
      Books.Current ⟨settings, made, b.blueprints ++ [last]⟩ := by
    intro last' hlast
    rw [List.getLast?_concat] at hlast
    cases hlast
    rw [own]
    exact Settings.affectsPlugins_self settings
  cases r with
  | start =>
      simp only [Books.note, Request.blueprint?, loads]
      exact hnew _ _ _ rfl
  | apply settings documents =>
      simp only [Books.note, Request.blueprint?, loads]
      cases haffects : b.settings.affectsPlugins settings with
      | true => exact hnew _ _ _ rfl
      | false =>
          simp only [Bool.false_eq_true, if_false, Option.toList_none, List.append_nil]
          exact hkept _ _ haffects
  | _ =>
      simp only [Books.note, Request.blueprint?, loads, Option.toList_none, List.append_nil]
      exact hkept _ _ (Settings.affectsPlugins_self _)

theorem Books.Current.foldl {loader : FactoryLoader} {b : Books} (h : b.Current)
    {log : List LogRecord} {factories : List Factory} (loads : loader.load = .ok (factories, log))
    (requests : List Request) : (requests.foldl (Books.note loader) b).Current := by
  induction requests generalizing b with
  | nil => exact h
  | cons r rest ih => exact ih (h.note loads r)

theorem Books.foldl_ne_nil {loader : FactoryLoader} {b : Books} (h : b.blueprints ≠ [])
    (requests : List Request) : (requests.foldl (Books.note loader) b).blueprints ≠ [] := by
  induction requests generalizing b with
  | nil => exact h
  | cons r rest ih => exact ih (by simp [Books.note, h])

/-- A start orders plugins. -/
theorem Books.ne_nil_of_start {loader : FactoryLoader} {log : List LogRecord}
    {factories : List Factory} (loads : loader.load = .ok (factories, log)) {requests : List Request}
    (started : .start ∈ requests) (b : Books) :
    (requests.foldl (Books.note loader) b).blueprints ≠ [] := by
  obtain ⟨before, after, rfl⟩ := List.append_of_mem started
  rw [List.foldl_append, List.foldl_cons]
  exact Books.foldl_ne_nil (by simp [Books.note, Request.blueprint?, loads]) after

namespace Schedule

variable {s : Schedule} {t : Nat}

/-- The last order, whose plugins are registered once no call is under way. -/
theorem exists_last_order (s : Schedule) {log : List LogRecord} {factories : List Factory}
    (loads : s.loader.load = .ok (factories, log)) (started : .start ∈ s.requests t)
    (settled : s.Settled t) :
    ∃ o : Order, (s.books t).blueprints.getLast? = some o.blueprint ∧
      (s.registry t).plugins = (o.replacement factories).fresh ∧
      o.blueprint.settings.affectsPlugins (s.workspace t).settings = false := by
  have hne : (s.books t).blueprints ≠ [] := Books.ne_nil_of_start loads started _
  have hbooked := s.booked t
  have hfactories : loaded s.loader = factories := by rw [loaded, loads]
  have hcurrent : (s.books t).Current := Books.Current.foldl (fun _ h => by cases h) loads _
  cases hlast : (s.orders t).getLast? with
  | none =>
      rw [List.getLast?_eq_none_iff] at hlast
      rw [← hbooked.blueprints, hlast] at hne
      exact absurd rfl hne
  | some o =>
      have hblueprint : (s.books t).blueprints.getLast? = some o.blueprint := by
        rw [← hbooked.blueprints, List.getLast?_map, hlast]
        rfl
      refine ⟨o, hblueprint, ?_, ?_⟩
      · rw [s.settled_plugins settled, hlast, hfactories]
        rfl
      · rw [hbooked.settings]
        exact hcurrent o.blueprint hblueprint

/-- Once all calls have ended no disabled tool is registered, and the enabled ones are as the settings in
force would build them if and only if these report failures as the settings do that were last built for.
Settings that require no new plugins build the same ones under that condition only. -/
theorem builtins_current_iff (s : Schedule) (t : Nat) (log : List LogRecord)
    (unsupplied : s.loader.load = .ok ([], log)) (started : .start ∈ s.requests t)
    (settled : s.Settled t) :
    (∀ name ∈ [formatterName, linterName], name ∉ (s.workspace t).settings.enabledTools →
      (s.registry t).get? name = none) ∧
    ((∀ p ∈ Plugin.builtins (s.workspace t).settings 0,
        ∃ q, (s.registry t).get? p.name = some q ∧ q.Alike p) ↔
      (s.workspace t).settings.enabledTools = [] ∨ ∀ b ∈ (s.books t).blueprints.getLast?,
        b.settings.reportFailures = (s.workspace t).settings.reportFailures) ∧
    ∀ a b : Settings, a.affectsPlugins b = false → ∀ next next',
      (List.Forall₂ Plugin.Alike (Plugin.builtins a next) (Plugin.builtins b next') ↔
        b.enabledTools = [] ∨ a.reportFailures = b.reportFailures) := by
  obtain ⟨o, hlast, hplugins, hcurrent⟩ := s.exists_last_order unsupplied started settled
  obtain ⟨hformatter, hlinter⟩ := fresh_get? o
  rw [← hplugins] at hformatter hlinter
  obtain ⟨hsame, hsame', _⟩ := Settings.affectsPlugins_eq_false.1 hcurrent
  rw [hsame] at hformatter
  rw [hsame'] at hlinter
  generalize (s.workspace t).settings = settings at *
  refine ⟨?_, ?_, fun a b h next next' => Plugin.builtins_alike_iff h next next'⟩
  · intro name hname hdisabled
    rcases List.mem_pair.1 hname with rfl | rfl
    · refine hformatter.trans (if_neg fun henabled => hdisabled ?_)
      simp [Settings.enabledTools, henabled]
    · refine hlinter.trans (if_neg fun henabled => hdisabled ?_)
      simp [Settings.enabledTools, henabled]
  · have hreports : (∀ b ∈ (s.books t).blueprints.getLast?,
        b.settings.reportFailures = settings.reportFailures) ↔
        o.blueprint.settings.reportFailures = settings.reportFailures := by
      rw [hlast]
      exact ⟨fun h => h _ rfl, fun h b hb => Option.some.inj hb ▸ h⟩
    rw [hreports, ← Settings.alike_iff hcurrent]
    constructor
    · intro halike
      refine ⟨fun henabled => ?_, fun henabled => ?_⟩
      · obtain ⟨q, hq, halike⟩ := halike _ (Plugin.mem_builtins.2 (.inl ⟨henabled, rfl⟩))
        have hfound := hformatter.trans (if_pos henabled)
        cases Option.some.inj (hq.symm.trans hfound)
        exact halike.2
      · obtain ⟨q, hq, halike⟩ := halike _ (Plugin.mem_builtins.2 (.inr ⟨henabled, rfl⟩))
        have hfound := hlinter.trans (if_pos henabled)
        cases Option.some.inj (hq.symm.trans hfound)
        exact halike.2
    · rintro ⟨hfirst, hsecond⟩ p hp
      rcases Plugin.mem_builtins.1 hp with ⟨henabled, rfl⟩ | ⟨henabled, rfl⟩
      · exact ⟨_, hformatter.trans (if_pos henabled), rfl, hfirst henabled⟩
      · exact ⟨_, hlinter.trans (if_pos henabled), rfl, hsecond henabled⟩

/-- The workspace is started, and then the settings say that failures are to be kept quiet. -/
def silenced : Schedule where
  settings := {}
  loader := .none
  buffers := []
  move t :=
    [.event (.call 0 .start), .next 0, .next 0, .answer 0 (.available true),
      .answer 0 (.available true), .next 0,
      .event (.call 1 (.apply { diagnosis := { onError := .ignore } } []))].getD t (.next 0)

/-- The plugins go on reporting failures. -/
theorem silenced_outdated : ¬∀ p ∈ Plugin.builtins (silenced.workspace 7).settings 0,
    ∃ q, (silenced.registry 7).get? p.name = some q ∧ q.Alike p := by
  rw [(builtins_current_iff silenced 7 [] rfl (by decide) (by decide)).2.1]
  decide

/-- Plugins can be held that are not those that the settings in force would have built, and settings that
require no new plugins can build other ones. -/
theorem exists_builtin_outdated :
    (¬ ∀ (s : Schedule) (t : Nat) (log : List LogRecord), s.loader.load = .ok ([], log) →
      .start ∈ s.requests t → s.Settled t → ∀ p ∈ Plugin.builtins (s.workspace t).settings 0,
        ∃ q, (s.registry t).get? p.name = some q ∧ q.Alike p) ∧
    ¬ ∀ a b : Settings, a.affectsPlugins b = false →
      List.Forall₂ Plugin.Alike (Plugin.builtins a 0) (Plugin.builtins b 0) := by
  constructor
  · intro h
    have hbuilt : (silenced.workspace 7).settings.formatter.enabled = true := by decide
    obtain ⟨q, hq, _, halike⟩ := h silenced 7 [] rfl (by decide) (by decide) _
      (Plugin.mem_builtins.2 (.inl ⟨hbuilt, rfl⟩))
    have hreports : ((silenced.registry 7).get? formatterName).map (·.backend) =
        some (.tool (.formatter (Settings.formatterTool {})) true) := by decide
    have hbackend : q.backend = .tool (.formatter (Settings.formatterTool {})) true := by
      rw [show (silenced.registry 7).get? formatterName = some q from hq] at hreports
      exact Option.some.inj hreports
    rw [hbackend] at halike
    exact absurd halike.2.2.2 (by decide)
  · intro h
    have halike := h {} { diagnosis := { onError := .ignore } } (by decide)
    rw [Plugin.builtins_alike_iff (by decide)] at halike
    exact absurd halike (by decide)

end Schedule

end Workspace

end Shellwright
