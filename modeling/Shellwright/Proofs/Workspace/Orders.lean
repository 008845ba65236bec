import Shellwright.Proofs.Registry.Serial
import Shellwright.Proofs.Workspace.Passing
/-!
# Orders for plugins

A call that starts a workspace, or that applies settings which concern the plugins, orders new plugins.
The order is settled when the call is made: from what the plugins are built, and which names were
active at that time.
-/

namespace Shellwright.Workspace

open Review

/-- What plugins are built from, and which tools are tried again even if they were not active; with none
named all plugins are tried. -/
structure Blueprint where
  settings : Settings
  made : Nat
  retried : Option (List String)
  deriving DecidableEq

def Blueprint.plugins (b : Blueprint) (factories : List Factory) : List Plugin :=
  (Plugin.build b.settings b.made factories).1

/-- A call that has plugins put in place. -/
structure Order where
  number : Nat
  blueprint : Blueprint
  /-- The names that were active when the call was made. -/
  active : List String

def Order.replacement (o : Order) (factories : List Factory) : Registry.Replacement :=
  ⟨o.number, o.blueprint.plugins factories, o.blueprint.retried.map (o.active ++ ·)⟩

def factories (w : Workspace) : List Factory :=
  match w.loader.load with
  | .ok (factories, _) => factories
  | .error _ => []

/-- The call that an event begins. -/
def Event.number? : Event → Option Nat
  | .call n _ => some n
  | .review e => e.number?
  | _ => none

/-- No call is called off with the event, and the workspace is not shut down. -/
def Event.tame : Event → Bool
  | .call _ .shutdown => false
  | .review (.abort _) => false
  | .abort _ => false
  | _ => true

/-- The workspace is to be started, or settings are to be applied. -/
def Request.configures : Request → Bool
  | .start => true
  | .apply .. => true
  | _ => false

def Request.settings? : Request → Option Settings
  | .apply settings _ => some settings
  | _ => none

/-- The settings that are applied with an event. -/
def Event.settings? : Event → Option Settings
  | .call _ request => request.settings?
  | _ => none

/-- What a request orders, under the settings in force; nothing when there is no telling which factories
there are. -/
def Request.blueprint? (r : Request) (loader : FactoryLoader) (settings : Settings) (made : Nat) :
    Option Blueprint :=
  match loader.load, r with
  | .ok _, .start => some ⟨settings, made, none⟩
  | .ok _, .apply settings' _ =>
    if settings.affectsPlugins settings' then
      some ⟨settings', made, some (settings.retriedTools settings')⟩
    else none
  | _, _ => none

def order? (w : Workspace) : Event → Option Order
  | .call n request =>
    (request.blueprint? w.loader w.settings w.made).map fun b => ⟨n, b, w.registry.activeNames⟩
  | _ => none

/-- What the registry is told with an event. -/
def conveyed (w : Workspace) (e : Event) : Option Registry.Event :=
  match w.order? e with
  | some o =>
    some (.call (o.replacement w.factories).key (o.replacement w.factories).request)
  | none =>
    match e with
    | .review e => w.reviewer.conveyed e
    | .call n (.format document token) => w.reviewer.conveyed (.call n (.format document token))
    | .call n (.fixAll document token editable) =>
      w.reviewer.conveyed (.call n (.fixAll document token editable))
    | _ => none

/-- The registry as its step leaves it, with what it wants done. -/
def reached (w : Workspace) (e : Event) : Registry :=
  match w.conveyed e with
  | some event => w.registry.step w.reviewer.buffers event
  | none => w.registry

theorem conveyed_of_order {w : Workspace} {e : Event} {o : Order} (h : w.order? e = some o) :
    w.conveyed e =
      some (.call (o.replacement w.factories).key (o.replacement w.factories).request) := by
  unfold conveyed
  rw [h]

/-- The calls that a step may end or carry on. A call that has ordered plugins only goes on when the
registry ends its own. -/
def Concerns (w : Workspace) (e : Event) (n : Nat) : Prop :=
  w.reviewer.calls.get? n ≠ none ∨ (e.number? = some n ∧ w.order? e = none) ∨
    ∃ outcome, (.host n, outcome) ∈ (w.reached e).finishes

/-- What one step does to the registry and to the calls. -/
structure Turns (w : Workspace) (e : Event) (w' : Workspace) : Prop where
  registry : w'.registry = { w.reached e with outbox := [] }
  passed : w'.passed = w.passed ++ (w.reached e).outbox.filter Registry.Effect.passes
  loader : w'.loader = w.loader
  settings : w'.settings = e.settings?.getD w.settings
  made : w'.made = w.made + (w.order? e).elim 0 fun _ => 2 + w.factories.length
  ordered : ∀ o, w.order? e = some o → ¬w.Concerns e o.number →
    w'.calls.get? o.number = some .starting ∨ w'.calls.get? o.number = some .rebuilding
  others : ∀ n, ¬w.Concerns e n → (∀ o, w.order? e = some o → n ≠ o.number) →
    w'.calls.get? n = w.calls.get? n
  reviews : ∀ n, ¬w.Concerns e n → w.reviewer.calls.get? n = none →
    w'.reviewer.calls.get? n = none
  closing : ∀ n, w'.calls.get? n ≠ some .closing
  calm : w'.Calm

/-- The workspace has got ready for what its review is going to do. -/
structure Readies (w : Workspace) (e : Event) (w₁ : Workspace) : Prop where
  registry : w₁.registry = w.registry
  calls : w₁.reviewer.calls = w.reviewer.calls
  buffers : w₁.reviewer.buffers = w.reviewer.buffers
  passed : w₁.passed = w.passed
  loader : w₁.loader = w.loader
  settings : w₁.settings = e.settings?.getD w.settings
  made : w₁.made = w.made + (w.order? e).elim 0 fun _ => 2 + w.factories.length
  ordered : ∀ o, w.order? e = some o →
    w₁.calls.get? o.number = some .starting ∨ w₁.calls.get? o.number = some .rebuilding
  others : ∀ n, ¬w.Concerns e n → (∀ o, w.order? e = some o → n ≠ o.number) →
    w₁.calls.get? n = w.calls.get? n
  closing : ∀ n, w₁.calls.get? n ≠ some .closing
  calm : w₁.reviewer.outbox = []

variable {w w₁ w' : Workspace} {e : Event} {n : Nat}

theorem Readies.turns (h : Readies w e w₁) {own : Nat → Prop}
    (leads : Leads own { w.reached e with outbox := [] } (w.reached e).outbox w₁ w')
    (mine : ∀ n, own n → w.Concerns e n) : Turns w e w' where
  registry := leads.registry
  passed := by rw [leads.passed, h.passed]
  loader := leads.loader.trans h.loader
  settings := leads.settings.trans h.settings
  made := leads.made.trans h.made
  ordered o ho hconcerns := by
    rw [leads.calls _ fun hown => hconcerns (mine _ hown)]
    exact h.ordered o ho
  others n hconcerns hn :=
    (leads.calls n fun hown => hconcerns (mine n hown)).trans (h.others n hconcerns hn)
  reviews n hconcerns hnone := by
    refine leads.reviews n (fun hown => hconcerns (mine n hown)) ?_
    rw [h.calls]
    exact hnone
  closing n hcall := h.closing n (leads.closing n hcall)
  calm := ⟨leads.calm, by rw [leads.registry]⟩

/-- Nothing has to be got ready. -/
theorem readies_self (calm : w.Calm) (running : ∀ n, w.calls.get? n ≠ some .closing)
    (unordered : w.order? e = none) (unset : e.settings? = none) : Readies w e w where
  registry := rfl
  calls := rfl
  buffers := rfl
  passed := rfl
  loader := rfl
  settings := by rw [unset]; rfl
  made := by rw [unordered]; rfl
  ordered o ho := by
    rw [unordered] at ho
    cases ho
  others _ _ _ := rfl
  closing := running
  calm := calm.reviewer

/-! ## Steps of the review -/

/-- The registry is told what the review tells it. -/
theorem Readies.tells (h : Readies w e w₁) (calm : w.Calm) {event : Review.Event}
    (kept : ∀ n, event ≠ .abort n) (conveyed : w.conveyed e = w₁.reviewer.conveyed event)
    (own : ∀ n, event.number? = some n → w.Concerns e n) : Turns w e (w₁.tellReview event) := by
  have hreached : w₁.reviewer.reached event = w.reached e := by
    have hregistry : w₁.reviewer.registry = w.registry := h.registry
    unfold reached Reviewer.reached
    rw [conveyed]
    cases w₁.reviewer.conveyed event with
    | none => exact hregistry
    | some told => simp only [hregistry, h.buffers]
  have hcalm : w₁.Calm := ⟨h.calm, by rw [h.registry]; exact calm.registry⟩
  have hleads := tellReview_leads hcalm (Reviewer.step_leads hcalm.registry kept) h.closing
  rw [hreached] at hleads
  refine h.turns hleads fun n hconcerns => ?_
  rcases hconcerns with (hcall | hnumber) | hended
  · rw [h.calls] at hcall
    exact .inl hcall
  · exact own n hnumber
  · rw [hreached] at hended
    exact .inr (.inr hended)

theorem Request.blueprint?_eq_none {r : Request} (h : r.configures = false) (loader : FactoryLoader)
    (settings : Settings) (made : Nat) : r.blueprint? loader settings made = none := by
  unfold Request.blueprint?
  split
  · cases h
  · cases h
  · rfl

theorem order?_eq_none {request : Request} (h : request.configures = false) :
    w.order? (.call n request) = none := by
  rw [order?, Request.blueprint?_eq_none h]
  rfl

theorem number?_of_order {o : Order} (h : w.order? e = some o) : e.number? = some o.number := by
  cases e with
  | call n request =>
      obtain ⟨b, _, rfl⟩ := Option.map_eq_some_iff.1 h
      rfl
  | _ => cases h

/-- The event is passed on to the review as it is. -/
theorem passes_turns (calm : w.Calm) (running : ∀ n, w.calls.get? n ≠ some .closing)
    {event : Review.Event} (kept : ∀ n, event ≠ .abort n) (unordered : w.order? e = none)
    (unset : e.settings? = none) (conveyed : w.conveyed e = w.reviewer.conveyed event)
    (number : ∀ n, event.number? = some n → e.number? = some n) :
    Turns w e (w.tellReview event) :=
  (readies_self calm running unordered unset).tells calm kept conveyed
    fun n hn => .inr (.inl ⟨number n hn, unordered⟩)

/-- Which documents count as open is all that has been got ready. -/
theorem documents_turns (calm : w.Calm) (running : ∀ n, w.calls.get? n ≠ some .closing)
    (documents : Keyed String String) {event : Review.Event} (kept : ∀ n, event ≠ .abort n)
    (unordered : w.order? e = none) (unset : e.settings? = none)
    (conveyed : w.conveyed e = w.reviewer.conveyed event)
    (number : ∀ n, event.number? = some n → e.number? = some n) :
    Turns w e ({ w with documents := documents }.tellReview event) := by
  have hself := readies_self calm running unordered unset
  have hready : Readies w e { w with documents := documents } :=
    ⟨hself.registry, hself.calls, hself.buffers, hself.passed, hself.loader, hself.settings,
      hself.made, hself.ordered, hself.others, hself.closing, hself.calm⟩
  exact hready.tells calm kept conveyed fun n hn => .inr (.inl ⟨number n hn, unordered⟩)

/-! ## Calls that order plugins -/

theorem passed_foldl_log (records : List LogRecord) (w : Workspace) :
    (records.foldl (fun w record => w.emit (.log record)) w).passed = w.passed := by
  induction records generalizing w with
  | nil => rfl
  | cons record rest ih =>
      rw [List.foldl_cons, ih, passed_emit]
      exact List.append_nil _

/-- The settings are in force, and nothing else has changed that concerns plugins. -/
structure Applies (w : Workspace) (e : Event) (w₀ : Workspace) : Prop where
  registry : w₀.registry = w.registry
  calls : w₀.reviewer.calls = w.reviewer.calls
  buffers : w₀.reviewer.buffers = w.reviewer.buffers
  passed : w₀.passed = w.passed
  loader : w₀.loader = w.loader
  settings : w₀.settings = e.settings?.getD w.settings
  made : w₀.made = w.made
  same : w₀.calls = w.calls
  calm : w₀.reviewer.outbox = []

variable {w₀ : Workspace} {stage : Stage}

theorem Applies.readies (h : Applies w e w₀) (running : ∀ n, w.calls.get? n ≠ some .closing)
    (unordered : w.order? e = none) : Readies w e w₀ where
  registry := h.registry
  calls := h.calls
  buffers := h.buffers
  passed := h.passed
  loader := h.loader
  settings := h.settings
  made := by rw [h.made, unordered]; rfl
  ordered o ho := by
    rw [unordered] at ho
    cases ho
  others n _ _ := by rw [h.same]
  closing n := by
    rw [h.same]
    exact running n
  calm := h.calm

theorem Applies.rebuild_turns (h : Applies w e w₀) (retried : Option (List String)) (calm : w.Calm)
    (running : ∀ n, w.calls.get? n ≠ some .closing) (number : e.number? = some n)
    (stage_eq : stage = .starting ∨ stage = .rebuilding)
    (order : w.order? e = match w.loader.load with
      | .ok _ => some ⟨n, ⟨e.settings?.getD w.settings, w.made, retried⟩, w.registry.activeNames⟩
      | .error _ => none)
    (unordered : w.order? e = none → w.conveyed e = none) :
    Turns w e (w₀.rebuild n stage (retried.map (w.registry.activeNames ++ ·))) := by
  unfold rebuild
  rw [h.loader]
  cases hload : w.loader.load with
  | error failure =>
      rw [hload] at order
      have hreached : w.reached e = w.registry := by rw [reached, unordered order]
      have hclear : { w.registry with outbox := [] } = w.registry := by rw [← calm.registry]
      have hleads : Leads (fun m => m = n) { w.reached e with outbox := [] } (w.reached e).outbox w₀
          (w₀.finish n (.raised (.loading failure))) := by
        rw [hreached, calm.registry, hclear, ← h.registry]
        refine finish_leads h.calm ?_ _
        rfl
      exact (h.readies running order).turns hleads fun m hm => .inr (.inl ⟨hm ▸ number, order⟩)
  | ok loaded =>
      obtain ⟨factories, log⟩ := loaded
      have hfactories : w.factories = factories := by rw [Workspace.factories, hload]
      rw [hload] at order
      simp only
      obtain ⟨out, hout⟩ := foldl_emit_eq (log ++ (Plugin.build w₀.settings w₀.made factories).2.2) w₀
      have hpassed := passed_foldl_log (log ++ (Plugin.build w₀.settings w₀.made factories).2.2) w₀
      rw [hout] at hpassed ⊢
      have hready : Readies w e ({ w₀ with
          outbox := out, made := (Plugin.build w₀.settings w₀.made factories).2.1 }.setCall n
            stage) := by
        refine ⟨h.registry, h.calls, h.buffers, hpassed.trans h.passed, h.loader, h.settings, ?_, ?_, ?_, ?_,
          h.calm⟩
        · rw [order, Option.elim, hfactories, ← h.made]
          exact Nat.add_assoc _ _ _
        · intro o ho
          rw [order] at ho
          cases ho
          change (w₀.calls.put n stage).get? n = _ ∨ (w₀.calls.put n stage).get? n = _
          rw [Keyed.get?_put_self]
          exact stage_eq.imp (congrArg some) (congrArg some)
        · intro m _ hm
          have hne := hm _ order
          exact (Keyed.get?_put_of_ne stage hne).trans (by rw [h.same])
        · intro m hcall
          change (w₀.calls.put n stage).get? m = _ at hcall
          rw [Keyed.get?_put] at hcall
          split at hcall
          · rcases stage_eq with rfl | rfl <;> cases hcall
          · rw [h.same] at hcall
            exact running m hcall
      refine hready.tells calm ?_ ?_ ?_
      · rintro m ⟨⟩
      · rw [conveyed_of_order order, hfactories, h.settings, h.made]
        rfl
      · rintro m ⟨⟩

/-! ## Every event -/

theorem foldl_trackNew_eq (documents : List String) (w : Workspace) :
    ∃ open_, documents.foldl trackNew w = { w with documents := open_ } := by
  induction documents generalizing w with
  | nil => exact ⟨w.documents, rfl⟩
  | cons document rest ih =>
      have hfirst : ∃ open_, w.trackNew document = { w with documents := open_ } := by
        unfold trackNew
        split
        · exact ⟨w.documents, rfl⟩
        · exact ⟨_, rfl⟩
      obtain ⟨open₁, hopen₁⟩ := hfirst
      obtain ⟨open₂, hopen₂⟩ := ih (w.trackNew document)
      refine ⟨open₂, ?_⟩
      rw [List.foldl_cons, hopen₂, hopen₁]

theorem configure_applies (calm : w.Calm) (n : Nat) (settings : Settings) (documents : List String)
    (open_ : Keyed String String) (debounce : Option Int) (timeout : Option Execution.Limit)
    (onChange : Bool) :
    Applies w (.call n (.apply settings documents))
      ({ w with documents := open_, settings := settings }.tellReview
        (.configure debounce timeout onChange)) := by
  have hout : (w.reviewer.step (.configure debounce timeout onChange)).outbox = [] := calm.reviewer
  unfold tellReview tell
  simp only [hout]
  exact ⟨rfl, rfl, rfl, rfl, rfl, rfl, rfl, rfl, rfl⟩

theorem apply_turns (calm : w.Calm) (running : ∀ n, w.calls.get? n ≠ some .closing) (n : Nat)
    (settings : Settings) (documents : List String) :
    Turns w (.call n (.apply settings documents)) (w.apply n settings documents) := by
  obtain ⟨open_, hopen⟩ := foldl_trackNew_eq documents w
  have happlies := configure_applies calm n settings documents open_
    (some (settings.diagnosis.debounce : Int)) (some (.milliseconds settings.diagnosis.timeout))
    settings.diagnosis.onChange
  unfold apply
  simp only [hopen]
  generalize { w with documents := open_, settings := settings }.tellReview _ = w₀ at happlies ⊢
  cases haffects : w.settings.affectsPlugins settings with
  | true =>
      rw [if_pos rfl, happlies.registry]
      refine happlies.rebuild_turns (some (w.settings.retriedTools settings)) calm running rfl
        (.inr rfl) ?_ ?_
      · unfold order? Request.blueprint?
        cases w.loader.load <;> simp [haffects, Event.settings?, Request.settings?]
      · intro hnone
        simp only [conveyed, hnone]
  | false =>
      have hnone : w.order? (.call n (.apply settings documents)) = none := by
        unfold order? Request.blueprint?
        cases w.loader.load <;> simp [haffects]
      rw [if_neg (by simp)]
      have hready := happlies.readies running hnone
      have hmine : w.Concerns (.call n (.apply settings documents)) n := .inr (.inl ⟨rfl, hnone⟩)
      have hset : Readies w (.call n (.apply settings documents)) (w₀.setCall n .diagnosing) := by
        refine ⟨hready.registry, hready.calls, hready.buffers, hready.passed, hready.loader,
          hready.settings, hready.made, ?_, ?_, ?_, hready.calm⟩
        · intro o ho
          rw [hnone] at ho
          cases ho
        · intro m hm ho
          refine (Keyed.get?_put_of_ne _ ?_).trans (hready.others m hm ho)
          rintro rfl
          exact hm hmine
        · intro m hcall
          change (w₀.calls.put n .diagnosing).get? m = _ at hcall
          rw [Keyed.get?_put] at hcall
          split at hcall
          · cases hcall
          · exact hready.closing m hcall
      refine hset.tells calm ?_ ?_ ?_
      · rintro m ⟨⟩
      · simp only [conveyed, hnone]
        rfl
      · intro m hm
        cases hm
        exact hmine

/-- What one step of a workspace does that concerns plugins. -/
theorem step_turns (calm : w.Calm) (running : ∀ n, w.calls.get? n ≠ some .closing)
    (tame : e.tame = true) : Turns w e (w.step e) := by
  cases e with
  | abort n => cases tame
  | change document =>
      have hnone : w.order? (.change document) = none := rfl
      refine documents_turns calm running _ nofun hnone rfl ?_ nofun
      simp only [conveyed, hnone]
      rfl
  | close document =>
      have hnone : w.order? (.close document) = none := rfl
      refine documents_turns calm running _ nofun hnone rfl ?_ nofun
      simp only [conveyed, hnone]
      rfl
  | review event =>
      have hnone : w.order? (.review event) = none := rfl
      refine passes_turns calm running ?_ hnone rfl ?_ fun _ hn => hn
      · rintro n rfl
        cases tame
      · simp only [conveyed, hnone]
  | call n request =>
      cases request with
      | shutdown => cases tame
      | apply settings documents => exact apply_turns calm running n settings documents
      | start =>
          have happlies : Applies w (.call n .start) w :=
            ⟨rfl, rfl, rfl, rfl, rfl, rfl, rfl, rfl, calm.reviewer⟩
          refine happlies.rebuild_turns none calm running rfl (.inl rfl) ?_ ?_
          · unfold order? Request.blueprint?
            cases w.loader.load <;> rfl
          · intro hnone
            simp only [conveyed, hnone]
      | openDocument document =>
          have hnone : w.order? (.call n (.openDocument document)) = none :=
            order?_eq_none rfl
          refine documents_turns calm running _ nofun hnone rfl ?_ fun _ hn => hn
          simp only [conveyed, hnone]
          rfl
      | saveDocument document =>
          have hnone : w.order? (.call n (.saveDocument document)) = none :=
            order?_eq_none rfl
          refine documents_turns calm running _ nofun hnone rfl ?_ fun _ hn => hn
          simp only [conveyed, hnone]
          rfl
      | format document token =>
          have hnone : w.order? (.call n (.format document token)) = none :=
            order?_eq_none rfl
          refine passes_turns calm running nofun hnone rfl ?_ fun _ hn => hn
          simp only [conveyed, hnone]
      | fixAll document token editable =>
          have hnone : w.order? (.call n (.fixAll document token editable)) = none :=
            order?_eq_none rfl
          refine passes_turns calm running nofun hnone rfl ?_ fun _ hn => hn
          simp only [conveyed, hnone]

theorem Turns.laters (h : Turns w e w') (outbox : w.outbox = []) :
    w'.passed.filterMap Registry.Effect.event? = (w.reached e).laters := by
  have hnone : w.passed = [] := by rw [Workspace.passed, outbox]; rfl
  rw [h.passed, hnone, List.nil_append]
  exact Registry.filterMap_filter_passes
    (by intro effect hpasses; cases effect <;> first | rfl | cases hpasses) _

theorem Turns.asks (h : Turns w e w') (outbox : w.outbox = []) :
    w'.passed.filterMap Registry.Effect.inquiry? = (w.reached e).asks := by
  have hnone : w.passed = [] := by rw [Workspace.passed, outbox]; rfl
  rw [h.passed, hnone, List.nil_append]
  exact Registry.filterMap_filter_passes
    (by intro effect hpasses; cases effect <;> first | rfl | cases hpasses) _

end Shellwright.Workspace
