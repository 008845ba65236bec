import Shellwright.Proofs.Workspace.World
/-!
# The orders of a run

Orders take effect one after another, in the order in which they were made. What they are for follows
from the requests of the host alone, and so does what is registered in the end.
-/

namespace Shellwright.Workspace

/-- The settings in force, the number of plugins made, and what was ordered so far. -/
structure Books where
  settings : Settings
  made : Nat := 0
  blueprints : List Blueprint := []

/-- The factories that a loader supplies. -/
def loaded (loader : FactoryLoader) : List Factory :=
  match loader.load with
  | .ok (factories, _) => factories
  | .error _ => []

def Books.note (loader : FactoryLoader) (b : Books) (r : Request) : Books where
  settings := r.settings?.getD b.settings
  made := b.made + (r.blueprint? loader b.settings b.made).elim 0 fun _ => 2 + (loaded loader).length
  blueprints := b.blueprints ++ (r.blueprint? loader b.settings b.made).toList

/-- The plugins of a blueprint take the place of those registered, and those of the active names and of
the retried ones become active that are available. -/
def Blueprint.publish (factories : List Factory) (available : Plugin → Bool) (r : Registry)
    (b : Blueprint) : Registry :=
  let o : Registry.Replacement := Order.replacement ⟨0, b, r.activeNames⟩ factories
  { r with plugins := o.fresh, active := o.passing available }

/-- What is registered after orders that were made and took effect one after another. -/
def serial (factories : List Factory) (available : Plugin → Bool) (blueprints : List Blueprint) :
    Registry :=
  blueprints.foldl (Blueprint.publish factories available) {}

/-- The request to start the workspace or to apply settings. -/
def Event.request? : Event → Option Request
  | .call _ request => if request.configures then some request else none
  | _ => none

theorem Event.settings?_eq (e : Event) : e.settings? = e.request?.bind Request.settings? := by
  cases e with
  | call n request => cases request <;> rfl
  | _ => rfl

theorem order?_blueprint (w : Workspace) (e : Event) :
    (w.order? e).map Order.blueprint =
      e.request?.bind fun r => r.blueprint? w.loader w.settings w.made := by
  cases e with
  | call n request =>
      rw [order?, Option.map_map]
      cases hconfigures : request.configures with
      | true =>
          rw [Event.request?, if_pos hconfigures, Option.bind_some]
          exact congrFun Option.map_id _
      | false =>
          rw [Event.request?, if_neg (by simp [hconfigures]), Option.bind_none,
            Request.blueprint?_eq_none hconfigures]
          rfl
  | _ => rfl

/-- How a workspace begins, and the moves of a run. -/
structure Schedule where
  settings : Settings
  loader : FactoryLoader
  buffers : Buffers
  move : Nat → Move

namespace Schedule

/-- The world after the first `t` moves. -/
def world (s : Schedule) : Nat → World
  | 0 => { workspace := create s.settings s.loader s.buffers }
  | t + 1 => (s.world t).step (s.move t)

def workspace (s : Schedule) (t : Nat) : Workspace :=
  (s.world t).workspace

def registry (s : Schedule) (t : Nat) : Registry :=
  (s.workspace t).registry

/-- The request of the host, with move `t`, to start the workspace or to apply settings. -/
def request? (s : Schedule) (t : Nat) : Option Request :=
  ((s.world t).event? (s.move t)).bind Event.request?

def requests (s : Schedule) : Nat → List Request
  | 0 => []
  | t + 1 => s.requests t ++ (s.request? t).toList

def orders (s : Schedule) : Nat → List Order
  | 0 => []
  | t + 1 => s.orders t ++ ((s.world t).order? (s.move t)).toList

def books (s : Schedule) (t : Nat) : Books :=
  (s.requests t).foldl (Books.note s.loader) { settings := s.settings }

/-- No call is under way that starts the workspace or waits for its new plugins. -/
def Settled (s : Schedule) (t : Nat) : Prop :=
  ∀ stage ∈ (s.workspace t).calls.values, stage ≠ .starting ∧ stage ≠ .rebuilding

/-- Before time `t` every instance answers the question of availability as `available` says. -/
def Answers (s : Schedule) (available : Plugin → Bool) (t : Nat) : Prop :=
  ∀ u < t, (s.world u).Fair (fun p ok => ok = available p) (s.move u)

/-- Before time `t` the workspace is started and settings are applied only when no such call is under
way. -/
def OneByOne (s : Schedule) (t : Nat) : Prop :=
  ∀ u < t, s.request? u ≠ none → s.Settled u

instance (s : Schedule) (t : Nat) : Decidable (s.Settled t) :=
  inferInstanceAs (Decidable (∀ stage ∈ (s.workspace t).calls.values,
    stage ≠ .starting ∧ stage ≠ .rebuilding))

instance (s : Schedule) (t : Nat) : Decidable (s.OneByOne t) :=
  inferInstanceAs (Decidable (∀ u < t, s.request? u ≠ none → s.Settled u))

variable {s : Schedule} {t : Nat} {may : Plugin → Bool → Prop} {available : Plugin → Bool}
  {os : List Order}

/-! ## Orders that are under way -/

theorem serial_start (s : Schedule) : (s.world 0).Serial may [] where
  calm := ⟨rfl, rfl⟩
  outbox := rfl
  line := Registry.World.line_start.less rfl (.refl _) (.refl _) fun _ hk => hk
  pending _ ho := by cases ho
  fresh _ _ := ⟨rfl, rfl⟩
  closing _ hcall := by cases hcall

/-- The orders that have taken effect, and those that are under way. -/
structure Stands (may : Plugin → Bool → Prop) (s : Schedule) (t : Nat) (past pending : List Order) :
    Prop where
  orders : s.orders t = past ++ pending
  serial : (s.world t).Serial may pending
  loader : (s.workspace t).loader = s.loader
  plugins : (s.registry t).plugins =
    past.getLast?.elim [] fun o => (o.replacement (loaded s.loader)).fresh
  active : ∀ available : Plugin → Bool, (∀ p ok, may p ok → ok = available p) →
    (s.registry t).active =
      past.getLast?.elim [] fun o => (o.replacement (loaded s.loader)).passing available

theorem loader_succ (h : (s.world t).Serial may os) :
    (s.workspace (t + 1)).loader = (s.workspace t).loader := by
  change ((s.world t).step (s.move t)).workspace.loader = (s.world t).workspace.loader
  unfold World.step
  cases hevent : (s.world t).event? (s.move t) with
  | none => exact congrArg Workspace.loader (World.spend_workspace _ _)
  | some e =>
      have hturns := step_turns h.calm h.closing (World.tame_of_event hevent)
      simp only [World.react, World.spend_workspace]
      exact hturns.loader

theorem stands (s : Schedule) (t : Nat) (fair : ∀ u < t, (s.world u).Fair may (s.move u)) :
    ∃ past pending, s.Stands may t past pending := by
  induction t with
  | zero => exact ⟨[], [], rfl, s.serial_start, rfl, rfl, fun _ _ => rfl⟩
  | succ t ih =>
      obtain ⟨past, pending, hstands⟩ := ih fun u hu => fair u (Nat.lt_succ_of_lt hu)
      have hloader := (loader_succ hstands.serial).trans hstands.loader
      have hfactories : (s.world t).workspace.factories = loaded s.loader := by
        change factories (s.workspace t) = _
        rw [factories, hstands.loader]
        rfl
      have horders : s.orders (t + 1) =
          past ++ (pending ++ ((s.world t).order? (s.move t)).toList) := by
        rw [orders, hstands.orders, List.append_assoc]
      cases hstands.serial.advances (fair t (Nat.lt_succ_self t)) with
      | stays serial plugins active =>
          refine ⟨past, _, horders, serial, hloader, plugins.trans hstands.plugins, ?_⟩
          exact fun available fixed => active.trans (hstands.active available fixed)
      | replaced o rest first serial plugins active =>
          rw [hfactories] at plugins active
          rw [first] at horders
          refine ⟨past ++ [o], rest, ?_, serial, hloader, ?_, ?_⟩
          · rw [horders, List.append_cons]
          · rw [List.getLast?_concat]
            exact plugins
          · rw [List.getLast?_concat]
            exact active

/-- Once no call is under way all orders have taken effect. -/
theorem Stands.settled {past pending : List Order} (h : s.Stands may t past pending)
    (settled : s.Settled t) : pending = [] := by
  cases pending with
  | nil => rfl
  | cons o rest =>
      have hcall := (h.serial.pending o List.mem_cons_self).1
      have hmem (stage : Stage) (hget : (s.workspace t).calls.get? o.number = some stage) :
          stage ∈ (s.workspace t).calls.values :=
        List.mem_map.2 ⟨_, Keyed.mem_of_get? hget, rfl⟩
      rcases hcall with hstarting | hrebuilding
      · exact absurd rfl (settled _ (hmem _ hstarting)).1
      · exact absurd rfl (settled _ (hmem _ hrebuilding)).2

/-- Once no call is under way the plugins of the last order are registered. -/
theorem settled_plugins (s : Schedule) (settled : s.Settled t) :
    (s.registry t).plugins =
      (s.orders t).getLast?.elim [] fun o => (o.replacement (loaded s.loader)).fresh := by
  have hany : ∃ past pending, s.Stands (fun _ _ => True) t past pending :=
    s.stands t fun _ _ _ _ _ _ _ _ => trivial
  obtain ⟨past, pending, hstands⟩ := hany
  have hnone := hstands.settled settled
  rw [hstands.orders, hnone, List.append_nil]
  exact hstands.plugins

theorem settled_active (settled : s.Settled t) (answers : s.Answers available t) :
    (s.registry t).active =
      (s.orders t).getLast?.elim [] fun o => (o.replacement (loaded s.loader)).passing available := by
  obtain ⟨past, pending, hstands⟩ := s.stands t answers
  have hnone := hstands.settled settled
  rw [hstands.orders, hnone, List.append_nil]
  exact hstands.active available fun _ _ h => h

/-! ## What was ordered -/

/-- The books say what the settings are and what was ordered. -/
structure Booked (s : Schedule) (t : Nat) : Prop where
  settings : (s.workspace t).settings = (s.books t).settings
  made : (s.workspace t).made = (s.books t).made
  blueprints : (s.orders t).map Order.blueprint = (s.books t).blueprints

theorem books_succ (s : Schedule) (t : Nat) :
    s.books (t + 1) = (s.request? t).elim (s.books t) ((s.books t).note s.loader) := by
  rw [books, requests, List.foldl_append]
  cases s.request? t <;> rfl

theorem Booked.succ (h : s.Booked t) {past pending : List Order}
    (stands : s.Stands may t past pending) : s.Booked (t + 1) := by
  have hworkspace : s.workspace (t + 1) = ((s.world t).step (s.move t)).workspace := rfl
  have horders : s.orders (t + 1) = s.orders t ++ ((s.world t).order? (s.move t)).toList := rfl
  cases hevent : (s.world t).event? (s.move t) with
  | none =>
      have hrequest : s.request? t = none := by rw [request?, hevent]; rfl
      have hnone : (s.world t).order? (s.move t) = none := by rw [World.order?, hevent]; rfl
      have hsame : s.workspace (t + 1) = s.workspace t := by
        rw [hworkspace, World.step, hevent]
        exact World.spend_workspace _ _
      have hbooks : s.books (t + 1) = s.books t := by rw [books_succ, hrequest]; rfl
      refine ⟨?_, ?_, ?_⟩
      · rw [hsame, hbooks, h.settings]
      · rw [hsame, hbooks, h.made]
      · rw [horders, hnone, hbooks, ← h.blueprints, Option.toList_none, List.append_nil]
  | some e =>
      have hrequest : s.request? t = e.request? := by rw [request?, hevent]; rfl
      have horder : (s.world t).order? (s.move t) = (s.workspace t).order? e := by
        rw [World.order?, hevent]
        rfl
      have hturns := step_turns stands.serial.calm stands.serial.closing
        (World.tame_of_event hevent)
      have hstep : s.workspace (t + 1) = { (s.workspace t).step e with outbox := [] } := by
        rw [hworkspace, World.step, hevent]
        simp only [World.react, World.spend_workspace]
        rfl
      have hblueprint : ((s.workspace t).order? e).map Order.blueprint =
          e.request?.bind fun r => r.blueprint? s.loader (s.books t).settings (s.books t).made := by
        rw [order?_blueprint, stands.loader, h.settings, h.made]
      have hfactories : (s.workspace t).factories = loaded s.loader := by
        rw [factories, stands.loader]
        rfl
      have hsettings : (s.workspace (t + 1)).settings =
          (e.request?.bind Request.settings?).getD (s.books t).settings := by
        rw [hstep, ← h.settings, ← Event.settings?_eq]
        exact hturns.settings
      have hmade : (s.workspace (t + 1)).made = (s.books t).made +
          (e.request?.bind fun r => r.blueprint? s.loader (s.books t).settings
            (s.books t).made).elim 0 fun _ => 2 + (loaded s.loader).length := by
        rw [hstep, ← hblueprint, ← h.made, ← hfactories, Option.elim_map]
        exact hturns.made
      have hlist : ((s.workspace t).order? e).toList.map Order.blueprint =
          (((s.workspace t).order? e).map Order.blueprint).toList := by
        cases (s.workspace t).order? e <;> rfl
      refine ⟨?_, ?_, ?_⟩
      · rw [hsettings, books_succ, hrequest]
        cases e.request? <;> rfl
      · rw [hmade, books_succ, hrequest]
        cases e.request? <;> rfl
      · rw [horders, horder, List.map_append, hlist, hblueprint, h.blueprints, books_succ, hrequest]
        cases e.request? with
        | none => exact List.append_nil _
        | some r => rfl

theorem booked (s : Schedule) (t : Nat) : s.Booked t := by
  induction t with
  | zero => exact ⟨rfl, rfl, rfl⟩
  | succ t ih =>
      have hany : ∃ past pending, s.Stands (fun _ _ => True) t past pending :=
        s.stands t fun _ _ _ _ _ _ _ _ => trivial
      obtain ⟨past, pending, hstands⟩ := hany
      exact ih.succ hstands

end Schedule

end Shellwright.Workspace
