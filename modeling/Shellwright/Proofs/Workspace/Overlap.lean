import Shellwright.Proofs.Workspace.Books
/-!
# Orders that overlap

Orders that are made while others are under way take effect in the order in which they were made, and
the plugins of the last one are registered, as if each had waited for the one before it. What is active
can differ: an order keeps active what was active when it was made, which the orders before it may
not have changed yet.
-/

namespace Shellwright.Workspace

variable {factories : List Factory} {available : Plugin → Bool}

/-- The names that become active with an order: those that were active when it was made and those that
it retries, as far as they are available. -/
theorem mem_passing (o : Order) (name : String) :
    name ∈ (o.replacement factories).passing available ↔
      (∀ retried, o.blueprint.retried = some retried → name ∈ o.active ∨ name ∈ retried) ∧
        ∃ p, (o.replacement factories).fresh.get? name = some p ∧ available p = true := by
  have hhas {p : Plugin} (hp : (o.replacement factories).fresh.get? name = some p) :
      (o.replacement factories).fresh.has name = true :=
    (Keyed.has_iff _ name).2 ⟨p, hp⟩
  rw [Registry.Replacement.passing, List.mem_filter, Option.any_eq_true]
  refine and_congr_left fun hfresh => ?_
  obtain ⟨p, hp, -⟩ := hfresh
  unfold Registry.Replacement.wanted
  change name ∈ Registry.wantedNames _ (o.blueprint.retried.map (o.active ++ ·)) ↔ _
  cases o.blueprint.retried with
  | none =>
      refine iff_of_true (List.mem_map.2 ⟨_, Keyed.mem_of_get? hp, rfl⟩) ?_
      rintro retried ⟨⟩
  | some retried =>
      simp only [Option.map_some, Registry.wantedNames, List.mem_filter, mem_distinct,
        List.mem_append, hhas hp, and_true, Option.some.injEq]
      exact ⟨fun h _ heq => heq ▸ h, fun h => h retried rfl⟩

/-- Two orders for the same plugins leave the same names active unless one of them found a name active,
available and not retried, that the other did not. -/
theorem passing_congr_iff (number number' : Nat) (b : Blueprint) (active active' : List String) :
    (∀ name, name ∈ (Order.replacement ⟨number, b, active⟩ factories).passing available ↔
        name ∈ (Order.replacement ⟨number', b, active'⟩ factories).passing available) ↔
      ¬∃ retried, b.retried = some retried ∧ ∃ name p,
        (Order.replacement ⟨number, b, active⟩ factories).fresh.get? name = some p ∧
          available p = true ∧ name ∉ retried ∧ ¬(name ∈ active ↔ name ∈ active') := by
  simp only [mem_passing]
  constructor
  · rintro hsame ⟨retried, hretried, name, p, hp, havailable, hnot, hdiffer⟩
    have hboth := and_congr_left_iff.1 (hsame name) ⟨p, hp, havailable⟩
    simp only [hretried, Option.some.injEq, forall_eq', hnot, or_false] at hboth
    exact hdiffer hboth
  · intro hnone name
    refine and_congr_left fun hfresh => forall_congr' fun retried =>
      imp_congr_right fun hretried => ?_
    obtain ⟨p, hp, havailable⟩ := hfresh
    by_cases hmem : name ∈ retried
    · exact iff_of_true (.inr hmem) (.inr hmem)
    · refine or_congr_left (Decidable.of_not_not fun hdiffer => hnone ?_)
      exact ⟨retried, hretried, name, p, hp, havailable, hmem, hdiffer⟩

theorem serial_concat (blueprints : List Blueprint) (b : Blueprint) :
    serial factories available (blueprints ++ [b]) =
      b.publish factories available (serial factories available blueprints) := by
  rw [serial, List.foldl_append]
  rfl

namespace Schedule

variable {s s' : Schedule} {t t' : Nat}

/-- The last call that ordered plugins found other names active than the orders before it leave that are
made and take effect one after another: a name that it builds, that is available and that it does not
retry anyway. -/
def Stale (s : Schedule) (available : Plugin → Bool) (t : Nat) : Prop :=
  ∃ o ∈ (s.orders t).getLast?, ∃ retried, o.blueprint.retried = some retried ∧
    ∃ name p, (o.replacement (loaded s.loader)).fresh.get? name = some p ∧ available p = true ∧
      name ∉ retried ∧ ¬(name ∈ o.active ↔ name ∈ (serial (loaded s.loader) available
        ((s.orders t).dropLast.map Order.blueprint)).activeNames)

/-- Each order found active what those before it have left. -/
def Chained (s : Schedule) (available : Plugin → Bool) (t : Nat) : Prop :=
  ∀ k o, (s.orders t)[k]? = some o → o.active = (serial (loaded s.loader) available
    (((s.orders t).take k).map Order.blueprint)).activeNames

/-- When all orders have taken effect the result is that of a serial run. -/
theorem Chained.registry (h : s.Chained available t) (settled : s.Settled t)
    (answers : s.Answers available t) :
    (s.registry t).plugins =
        (serial (loaded s.loader) available (s.books t).blueprints).plugins ∧
      (s.registry t).active =
        (serial (loaded s.loader) available (s.books t).blueprints).active := by
  have hplugins := s.settled_plugins settled
  have hactive := settled_active settled answers
  rw [← (s.booked t).blueprints]
  rcases List.eq_nil_or_concat (s.orders t) with hnil | ⟨past, o, hlast⟩
  · rw [hnil] at hplugins hactive ⊢
    exact ⟨hplugins, hactive⟩
  · have hfound := h past.length o (by rw [hlast, List.concat_eq_append]; simp)
    rw [hlast, List.concat_eq_append, List.getLast?_concat] at hplugins hactive
    rw [hlast, List.concat_eq_append, List.take_left] at hfound
    rw [hlast, List.concat_eq_append, List.map_append, List.map_singleton, serial_concat]
    obtain ⟨n, b, active⟩ := o
    cases hfound
    exact ⟨hplugins, hactive⟩

theorem activeNames_congr {r r' : Registry} (plugins : r.plugins = r'.plugins)
    (active : r.active = r'.active) : r.activeNames = r'.activeNames := by
  unfold Registry.activeNames Registry.isActive
  rw [plugins, active]

theorem orders_succ (s : Schedule) (t : Nat) :
    s.orders (t + 1) = s.orders t ++ ((s.world t).order? (s.move t)).toList := rfl

/-- Who waits for each call to end before the next finds active what the orders before have left. -/
theorem chained (oneByOne : s.OneByOne t) (answers : s.Answers available t) :
    s.Chained available t := by
  induction t with
  | zero => exact fun k o ho => by simp [orders] at ho
  | succ t ih =>
      have hanswers : s.Answers available t := fun u hu => answers u (Nat.lt_succ_of_lt hu)
      have hchained := ih (fun u hu => oneByOne u (Nat.lt_succ_of_lt hu)) hanswers
      intro k o ho
      rw [orders_succ] at ho ⊢
      cases horder : (s.world t).order? (s.move t) with
      | none =>
          rw [horder] at ho
          rw [Option.toList_none, List.append_nil] at ho ⊢
          exact hchained k o ho
      | some new =>
          rw [horder] at ho
          rw [Option.toList_some] at ho ⊢
          rcases Nat.lt_or_ge k (s.orders t).length with hlt | hge
          · rw [List.getElem?_append_left hlt] at ho
            rw [List.take_append_of_le_length (Nat.le_of_lt hlt)]
            exact hchained k o ho
          -- The new order comes when all before it have taken effect.
          · have hk : k = (s.orders t).length := by
              have hle := (List.getElem?_eq_some_iff.1 ho).1
              simp at hle
              omega
            subst hk
            rw [List.getElem?_concat_length] at ho
            cases ho
            rw [List.take_left]
            obtain ⟨e, hevent, hnew⟩ := Option.bind_eq_some_iff.1 horder
            have hrequest : s.request? t ≠ none := by
              rw [request?, hevent, Option.bind_some]
              intro hnone
              have hblueprint := order?_blueprint (s.world t).workspace e
              rw [hnew, hnone] at hblueprint
              cases hblueprint
            have hsettled := oneByOne t (Nat.lt_succ_self t) hrequest
            obtain ⟨hplugins, hactive⟩ := hchained.registry hsettled hanswers
            rw [(s.booked t).blueprints, ← activeNames_congr hplugins hactive]
            cases e with
            | call n request =>
                obtain ⟨b, _, rfl⟩ := Option.map_eq_some_iff.1 hnew
                rfl
            | _ => cases hnew

/-- Calls that are made while others are under way leave the plugins registered that the same calls
leave when each waits for the one before it. The same names are active as well if and only if the last
call that ordered plugins did not find what others had still to change. -/
theorem overlapping_serial_iff (s s' : Schedule) (t t' : Nat) (available : Plugin → Bool)
    (settings : s.settings = s'.settings) (loader : s.loader = s'.loader)
    (requests : s.requests t = s'.requests t') (answers : s.Answers available t)
    (answers' : s'.Answers available t') (oneByOne : s'.OneByOne t') (settled : s.Settled t)
    (settled' : s'.Settled t') :
    (s.registry t).plugins = (s'.registry t').plugins ∧
      ((∀ name, (s.registry t).isActive name = (s'.registry t').isActive name) ↔
        ¬s.Stale available t) := by
  have hbooks : s'.books t' = s.books t := by
    unfold books
    rw [requests, settings, loader]
  obtain ⟨hplugins', hactive'⟩ := (chained oneByOne answers').registry settled' answers'
  rw [hbooks, ← loader, ← (s.booked t).blueprints] at hplugins' hactive'
  have hplugins := s.settled_plugins settled
  have hactive := settled_active settled answers
  unfold Registry.isActive Stale
  rcases List.eq_nil_or_concat (s.orders t) with hnil | ⟨past, o, hlast⟩
  · rw [hnil] at hplugins hactive hplugins' hactive' ⊢
    rw [hplugins, hactive, hplugins', hactive']
    exact ⟨rfl, iff_of_true (fun _ => rfl) (by simp)⟩
  · rw [hlast, List.concat_eq_append, List.getLast?_concat] at hplugins hactive
    rw [hlast, List.concat_eq_append, List.map_append, List.map_singleton, serial_concat]
      at hplugins' hactive'
    rw [hlast, List.concat_eq_append, List.getLast?_concat, List.dropLast_concat]
    refine ⟨hplugins.trans hplugins'.symm, ?_⟩
    simp only [hactive, hactive', List.contains_eq_mem, decide_eq_decide, Option.mem_def,
      Option.some.injEq, exists_eq_left']
    exact passing_congr_iff ..

/-- Other settings are applied while the tools are still asked whether they are available. -/
def impatient : Schedule where
  settings := {}
  loader := .none
  buffers := []
  move t :=
    [.event (.call 0 .start), .event (.call 1 (.apply { formatter := { path := "other" } } [])),
      .next 0, .next 0, .answer 0 (.available true), .answer 0 (.available true), .next 0, .next 0,
      .next 0, .answer 0 (.available true), .next 0].getD t (.next 0)

/-- The same settings are applied once the workspace has started. -/
def patient : Schedule where
  settings := {}
  loader := .none
  buffers := []
  move t :=
    [.event (.call 0 .start), .next 0, .next 0, .answer 0 (.available true),
      .answer 0 (.available true), .next 0,
      .event (.call 1 (.apply { formatter := { path := "other" } } [])), .next 0, .next 0,
      .answer 0 (.available true), .answer 0 (.available true), .next 0].getD t (.next 0)

/-- The instance that is asked is available. -/
def affirmed : Move → Bool
  | .answer _ a => a.affirms
  | _ => true

theorem answers_of_affirmed (s : Schedule) (affirms : ∀ u < t, affirmed (s.move u) = true) :
    s.Answers (fun _ => true) t := by
  intro u hu n a _ hmove _ _
  have haffirmed := affirms u hu
  rw [hmove] at haffirmed
  exact haffirmed

theorem impatient_requests : impatient.requests 11 = patient.requests 12 := by
  decide

theorem impatient_answers : impatient.Answers (fun _ => true) 11 :=
  answers_of_affirmed _ (by decide)

theorem patient_answers : patient.Answers (fun _ => true) 12 :=
  answers_of_affirmed _ (by decide)

theorem patient_oneByOne : patient.OneByOne 12 := by
  decide

/-- The tool that was still being asked is not active in the end. -/
theorem impatient_stale : impatient.Stale (fun _ => true) 11 := by
  refine Classical.byContradiction fun hnone => ?_
  have hsame := ((overlapping_serial_iff impatient patient 11 12 (fun _ => true) rfl rfl
    impatient_requests impatient_answers patient_answers patient_oneByOne (by decide)
    (by decide)).2.2 hnone) linterName
  exact absurd hsame (by decide)

/-- Calls that overlap can leave other names active than the same calls one after another. -/
theorem exists_overlap_lost : ¬ ∀ (s s' : Schedule) (t t' : Nat) (available : Plugin → Bool),
    s.settings = s'.settings → s.loader = s'.loader → s.buffers = s'.buffers →
      s.requests t = s'.requests t' → s.Answers available t → s'.Answers available t' →
        s'.OneByOne t' → s.Settled t → s'.Settled t' →
          ∀ name, (s.registry t).isActive name = (s'.registry t').isActive name := by
  intro h
  have hsame := h impatient patient 11 12 (fun _ => true) rfl rfl rfl impatient_requests
    impatient_answers patient_answers patient_oneByOne (by decide) (by decide) linterName
  exact absurd hsame (by decide)

end Schedule

end Shellwright.Workspace
