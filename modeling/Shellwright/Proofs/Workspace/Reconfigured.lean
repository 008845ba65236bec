import Shellwright.Proofs.Workspace.Reconfiguring
/-!
# Workspaces that have been reconfigured

When the call returns that applies settings, exactly the plugins that the settings call for are in place,
and every open document has been checked once more.
-/

namespace Shellwright

/-- A tool that `t` enables and whose own settings differ between `s` and `t`. -/
def Settings.Retries (s t : Settings) (name : String) : Prop :=
  (name = formatterName ∧ t.formatter.enabled = true ∧
      (s.formatter ≠ t.formatter ∨ s.effectiveIndent ≠ t.effectiveIndent)) ∨
    (name = linterName ∧ t.linter.enabled = true ∧ s.linter ≠ t.linter)

theorem Settings.mem_retriedTools {s t : Settings} {name : String} :
    name ∈ s.retriedTools t ↔ s.Retries t name := by
  have henabled (name : String) : name ∈ t.enabledTools ↔
      name = formatterName ∧ t.formatter.enabled = true ∨
        name = linterName ∧ t.linter.enabled = true := by
    unfold enabledTools
    cases t.formatter.enabled <;> cases t.linter.enabled <;> simp
  have hapart : formatterName ≠ linterName := by decide
  unfold retriedTools Retries
  rw [List.mem_filter, List.contains_iff_mem, henabled, List.mem_append]
  constructor
  · rintro ⟨hlisted, htool⟩
    rcases hlisted with hlisted | hlisted
    · obtain ⟨hchanged, hname⟩ := List.mem_ite_nil_right.1 hlisted
      obtain rfl := List.mem_singleton.1 hname
      obtain ⟨-, hon⟩ := htool.resolve_right fun h => hapart h.1
      exact .inl ⟨rfl, hon, by simpa using hchanged⟩
    · obtain ⟨hchanged, hname⟩ := List.mem_ite_nil_right.1 hlisted
      obtain rfl := List.mem_singleton.1 hname
      obtain ⟨-, hon⟩ := htool.resolve_left fun h => hapart h.1.symm
      exact .inr ⟨rfl, hon, by simpa using hchanged⟩
  · rintro (⟨rfl, hon, hchanged⟩ | ⟨rfl, hon, hchanged⟩)
    · exact ⟨.inl (by simpa using hchanged), .inl ⟨rfl, hon⟩⟩
    · exact ⟨.inr (by simpa using hchanged), .inr ⟨rfl, hon⟩⟩

namespace Workspace

open Review

/-! ## Documents that are open -/

theorem get?_foldl_trackNew (documents : List String) (w : Workspace) (uri : String) :
    (documents.foldl trackNew w).documents.get? uri = (w.documents.get? uri).or
      (documents.find? fun name => (w.reviewer.document name).uri == uri) := by
  induction documents generalizing w with
  | nil => simp
  | cons document rest ih =>
      have hplaces (name : String) : ((w.trackNew document).reviewer.document name).uri =
          (w.reviewer.document name).uri := by
        unfold trackNew
        split <;> rfl
      rw [List.foldl_cons, ih, List.find?_cons]
      simp only [hplaces]
      unfold trackNew
      by_cases hhas : w.documents.has (w.reviewer.document document).uri = true
      · rw [if_pos hhas]
        obtain ⟨known, hknown⟩ := (Keyed.has_iff _ _).1 hhas
        split
        · rename_i huri
          rw [← eq_of_beq huri, hknown]
          rfl
        · rfl
      · rw [if_neg hhas]
        change Option.or ((w.documents.put (w.reviewer.document document).uri document).get? uri) _ = _
        rw [Keyed.get?_put]
        split
        · rename_i huri
          subst huri
          have hnone := (Keyed.has_eq_false_iff _ _).1 (by simpa using hhas)
          rw [hnone, beq_self_eq_true]
          rfl
        · rename_i huri
          rw [beq_eq_false_iff_ne.2 (Ne.symm huri)]

namespace Chronicle

/-- The documents whose runs are dispatched with move `t`; what timers dispatch is passed over. -/
def checked (c : Chronicle) (t : Nat) : List String :=
  (c.site t).checked (c.move t)

/-- The documents whose runs are dispatched from move `t₀` on and before `t`. -/
def checkedSince (c : Chronicle) (t₀ t : Nat) : List String :=
  (List.range' t₀ (t - t₀)).flatMap c.checked

/-- The plugins that the settings call for at moment `t`. -/
def built (c : Chronicle) (settings : Settings) (t : Nat) : Keyed String Plugin :=
  Keyed.ofList ((Plugin.build settings (c.workspace t).made (c.workspace t).factories).1.map
    fun p => (p.name, p))

/-- The call `n` applies the settings from move `t₀` to move `t₁`, with nothing else under way; what is
asked meanwhile tells whether it is available. -/
structure Applies (c : Chronicle) (n : Nat) (settings : Settings) (documents : List String)
    (available : Plugin → Bool) (t₀ t₁ : Nat) : Prop where
  call : c.event? t₀ = some (.call n (.apply settings documents))
  idle : (c.site t₀).Idle
  le : t₀ ≤ t₁
  alone : ∀ t, t₀ < t → t ≤ t₁ → (c.move t).inner = true
  answers : ∀ t, t₀ < t → t ≤ t₁ → ∀ k a q, c.move t = .answer k a →
    (c.site t).inquiries[k]? = some q → q.question = .available → a.affirms = available q.plugin
  returns : (n, .done .settled) ∈ c.replies t₁

variable {c : Chronicle} {n t t₀ t₁ : Nat} {settings : Settings} {documents : List String}
  {available : Plugin → Bool}

/-! ## Runs -/

theorem desk_sound (c : Chronicle) (t : Nat) :
    Sound (c.workspace t).desk ∧ Flagged (c.workspace t).desk ∧ Heeded (c.workspace t).desk := by
  induction t with
  | zero => exact ⟨.start, .start _, .start⟩
  | succ t ih =>
      obtain ⟨hsound, hflagged, hheeded⟩ := ih
      have hspent := Site.spend_reviewer (c.site t) (c.move t)
      have hcalm := ((c.regular t).spend (c.move t)).calm
      unfold workspace at hsound hflagged hheeded ⊢
      rw [site, Site.step]
      unfold desk at hsound hflagged hheeded
      rw [← hspent] at hsound hflagged hheeded
      cases (c.site t).event? (c.move t) with
      | none => exact ⟨hsound, hflagged, hheeded⟩
      | some e =>
          obtain ⟨e', -, hdoes⟩ := (step_acts hcalm e).desk
          exact ⟨hdoes.sound hsound, hdoes.flagged hsound hflagged,
            hdoes.heeded hsound hflagged hheeded⟩

/-! ## The call as a whole -/

theorem checkedSince_succ (c : Chronicle) (le : t₀ ≤ t) :
    c.checkedSince t₀ (t + 1) = c.checkedSince t₀ t ++ c.checked t := by
  unfold checkedSince
  rw [Nat.succ_sub le, List.range'_concat, List.flatMap_append, Nat.one_mul, Nat.add_sub_cancel' le]
  simp

/-- What each move is to the call. -/
theorem Applies.carries (h : c.Applies n settings documents available t₀ t₁) (since : t₀ ≤ t)
    (le : t ≤ t₁) : ∃ w₁ : Workspace,
      w₁.documents = (documents.foldl trackNew (c.workspace t₀)).documents ∧
      w₁.reviewer.buffers = (c.workspace t₀).reviewer.buffers ∧
      Site.Carries available n ((c.workspace t₀).pluginsAfter settings)
        ((c.workspace t₀).activeAfter settings available)
        ((c.workspace t₀).prepare settings documents).shellDocuments (c.checkedSince t₀ t) w₁
        (c.site t) (c.move t) := by
  induction since with
  | refl =>
      have hnone : c.checkedSince t₀ t₀ = [] := by simp [checkedSince]
      rw [hnone]
      exact ⟨(c.workspace t₀).prepare settings documents, rfl, rfl,
        h.idle.carries (c.regular t₀) h.call⟩
  | @step t since ih =>
      obtain ⟨w₁, hdocuments, hbuffers, hcarries⟩ := ih (Nat.le_of_lt le)
      have hpast := Nat.lt_succ_of_le since
      have happlies := hcarries.applies
      change Site.Applies _ _ _ _ _ (c.site (t + 1)) (c.checkedSince t₀ t ++ c.checked t) at happlies
      rw [← checkedSince_succ c since] at happlies
      refine ⟨c.workspace (t + 1), hcarries.documents.trans hdocuments,
        hcarries.buffers.trans hbuffers, ?_⟩
      refine happlies.carries (c.regular (t + 1)) ?_ (h.alone (t + 1) hpast le)
      exact fun k a q hmove hq hquestion => h.answers (t + 1) hpast le k a q hmove hq hquestion

/-- When the call returns the plugins are in place and all documents have been checked. -/
theorem Applies.ends (h : c.Applies n settings documents available t₀ t₁) :
    (c.registry (t₁ + 1)).plugins = (c.workspace t₀).pluginsAfter settings ∧
      (c.registry (t₁ + 1)).active = (c.workspace t₀).activeAfter settings available ∧
      (c.workspace (t₁ + 1)).documents = (documents.foldl trackNew (c.workspace t₀)).documents ∧
      (c.checkedSince t₀ (t₁ + 1)).Perm (c.workspace (t₁ + 1)).shellDocuments := by
  obtain ⟨w₁, hdocuments, hbuffers, hcarries⟩ := h.carries h.le (Nat.le_refl t₁)
  obtain ⟨hholds, hchecked⟩ := hcarries.returns h.returns
  have hafter : (c.workspace (t₁ + 1)).documents =
      (documents.foldl trackNew (c.workspace t₀)).documents :=
    hcarries.documents.trans hdocuments
  refine ⟨hholds.plugins, hholds.active, hafter, ?_⟩
  have hshell : (c.workspace (t₁ + 1)).shellDocuments =
      ((c.workspace t₀).prepare settings documents).shellDocuments := by
    have hplaces : (c.workspace (t₁ + 1)).reviewer.buffers = (c.workspace t₀).reviewer.buffers :=
      hcarries.buffers.trans hbuffers
    unfold shellDocuments Reviewer.document
    rw [hafter, hplaces]
    rfl
  rw [checkedSince_succ c h.le, hshell]
  exact hchecked

theorem mem_activeNames (r : Registry) (name : String) :
    name ∈ r.activeNames ↔ name ∈ r.plugins.keys ∧ name ∈ r.active := by
  unfold Registry.activeNames Registry.isActive
  rw [List.mem_filter, List.contains_iff_mem]

/-- Settings that concern the plugins have theirs put in place. -/
theorem Applies.builds (h : c.Applies n settings documents available t₀ t₁)
    (affects : (c.workspace t₀).settings.affectsPlugins settings = true) :
    (c.registry (t₁ + 1)).plugins = c.built settings t₀ ∧
      ∀ name, name ∈ (c.registry (t₁ + 1)).activeNames ↔
        (∃ p, (c.built settings t₀).get? name = some p ∧ available p = true) ∧
          (name ∈ (c.registry t₀).activeNames ∨
            (c.workspace t₀).settings.Retries settings name) := by
  obtain ⟨hplugins, hactive, -⟩ := h.ends
  rw [pluginsAfter, if_pos affects] at hplugins
  rw [activeAfter, if_pos affects] at hactive
  refine ⟨hplugins, fun name => ?_⟩
  rw [mem_activeNames, hplugins, hactive, mem_passing, ← Settings.mem_retriedTools]
  constructor
  · rintro ⟨-, hwanted, hbuilt⟩
    exact ⟨hbuilt, hwanted _ rfl⟩
  · rintro ⟨⟨p, hp, havailable⟩, hwanted⟩
    refine ⟨List.mem_map.2 ⟨_, Keyed.mem_of_get? hp, rfl⟩, ?_, p, hp, havailable⟩
    rintro retried ⟨⟩
    exact hwanted

/-- Settings that do not concern the plugins leave them as they are. -/
theorem Applies.keeps (h : c.Applies n settings documents available t₀ t₁)
    (affects : (c.workspace t₀).settings.affectsPlugins settings = false) :
    (c.registry (t₁ + 1)).plugins = (c.registry t₀).plugins ∧
      (c.registry (t₁ + 1)).active = (c.registry t₀).active := by
  obtain ⟨hplugins, hactive, -⟩ := h.ends
  rw [pluginsAfter, if_neg (by simp [affects])] at hplugins
  rw [activeAfter, if_neg (by simp [affects])] at hactive
  exact ⟨hplugins, hactive⟩

/-- The linter is not found where it is first looked for, and then it is looked for elsewhere; one document
has been changed by then, and another comes with the new settings. -/
def relocated : Chronicle where
  settings := { formatter := { enabled := false } }
  loader := .none
  buffers := [("a", { uri := "file:///a.sh" }), ("b", { uri := "file:///b.sh" })]
  move t :=
    [.host (.call 0 .start), .next 0, .answer 0 (.available false), .next 0, .host (.change "a"),
      .host (.call 1 (.apply
        { formatter := { enabled := false }, linter := { path := "other" } } ["b"])),
      .next 0, .answer 0 (.available true), .next 0, .chore 0, .chore 0, .chore 0, .chore 0, .next 0,
      .next 0, .answer 0 (.raised ""), .answer 0 (.raised ""), .next 0, .next 0, .chore 0, .chore 0,
      .chore 0].getD t (.ring 0)

theorem event?_of_host {e : Event} (move : c.move t = .host e) (hosted : e.hosted = true)
    (admits : (c.site t).admits e = true) : c.event? t = some e := by
  unfold event? Site.event?
  rw [move]
  exact if_pos (by rw [hosted, admits]; rfl)

/-- Whoever is asked with move `t` whether it is available says so. -/
def affirms (c : Chronicle) (t : Nat) : Bool :=
  match c.move t with
  | .answer k a => ((c.site t).inquiries[k]?).all fun q => q.question != .available || a.affirms
  | _ => true

theorem answers_of_affirms {k : Nat} {a : Answer} {q : Registry.Inquiry} (h : c.affirms t = true)
    (move : c.move t = .answer k a) (inquiry : (c.site t).inquiries[k]? = some q)
    (question : q.question = .available) : a.affirms = true := by
  unfold affirms at h
  simpa [move, inquiry, question] using h

theorem relocated_applies : relocated.Applies 1
    { formatter := { enabled := false }, linter := { path := "other" } } ["b"] (fun _ => true) 5 21 where
  call := event?_of_host rfl rfl (by decide +kernel)
  idle := by
    have hcalls : (relocated.registry 5).calls.isEmpty = true := by decide +kernel
    refine ⟨List.isEmpty_iff.1 (by decide +kernel), List.isEmpty_iff.1 (by decide +kernel), fun n => ?_⟩
    change (relocated.registry 5).calls.get? _ = none
    rw [List.isEmpty_iff.1 hcalls]
    rfl
  le := by decide
  alone := by
    have halone : ∀ t < 22, 5 < t → (relocated.move t).inner = true := by decide
    exact fun t hpast hle => halone t (Nat.lt_succ_of_le hle) hpast
  answers := by
    have haffirms : ∀ t < 22, 5 < t → relocated.affirms t = true := by decide +kernel
    intro t hpast hle k a q hmove hq hquestion
    exact answers_of_affirms (haffirms t (Nat.lt_succ_of_le hle) hpast) hmove hq hquestion
  returns := by decide +kernel

end Chronicle

end Workspace

end Shellwright
