import Shellwright.Proofs.Workspace.Site
import Shellwright.Proofs.Workspace.Sweeping
/-!
# Sites that the host leaves alone

While the host does nothing, only what has been asked for still happens. Replacements take effect in the
order in which they came, and the registry ends no other call of the host.
-/

namespace Shellwright.Workspace

open Review

/-- With no call under way none shuts the workspace down. -/
theorem not_closing_of_nil {w : Workspace} (calls : w.calls = []) (k : Nat) :
    w.calls.get? k ≠ some .closing := by
  rw [calls]
  nofun

/-- Nor does the only call that is under way, when it does something else. -/
theorem not_closing {w : Workspace} {n : Nat} {stage : Stage} (calls : w.calls = [(n, stage)])
    (other : stage ≠ .closing) (k : Nat) : w.calls.get? k ≠ some .closing := by
  intro hcall
  obtain ⟨e, hfind, hclosing⟩ := Option.map_eq_some_iff.1 hcall
  rw [calls] at hfind
  obtain rfl := List.mem_singleton.1 (List.mem_of_find?_eq_some hfind)
  exact other hclosing

namespace Site

/-- The move is none of the host's. -/
def Move.inner : Move → Bool
  | .host _ => false
  | .load _ => false
  | _ => true

/-- Answers to the question of availability are such as may be given. -/
def Fair (may : Plugin → Bool → Prop) (s : Site) (m : Move) : Prop :=
  ∀ n a q, m = .answer n a → s.inquiries[n]? = some q → q.question = .available →
    may q.plugin a.affirms

/-- The replacements are all that the host's calls still want of the registry. -/
structure Lined (may : Plugin → Bool → Prop) (s : Site) (os : List Registry.Replacement) : Prop where
  line : s.below.Line may os
  hosts : ∀ n, s.workspace.registry.calls.get? (.host n) ≠ none →
    .host n ∈ os.map Registry.Replacement.key

/-- What a step makes of the replacements: they stay, or the first of them takes effect. -/
inductive Turns (may : Plugin → Bool → Prop) (s : Site) (e : Event) (os : List Registry.Replacement)
    (s' : Site) : Prop
  | stays (lined : s'.Lined may os)
      (plugins : s'.workspace.registry.plugins = s.workspace.registry.plugins)
      (active : s'.workspace.registry.active = s.workspace.registry.active)
      (ends : (s.workspace.reached e).hostEnds = [])
  | replaced (o : Registry.Replacement) (rest : List Registry.Replacement) (first : os = o :: rest)
      (lined : s'.Lined may rest) (plugins : s'.workspace.registry.plugins = o.fresh)
      (active : ∀ available : Plugin → Bool, (∀ p ok, may p ok → ok = available p) →
        s'.workspace.registry.active = o.passing available)
      (count : Nat)
      (ends : (s.workspace.reached e).hostEnds = [.registry o.number (.done (.count count))])

variable {may : Plugin → Bool → Prop} {s : Site} {m : Move} {e : Event}
  {os : List Registry.Replacement}

/-- With a move that is possible the workspace takes its step. -/
theorem step_workspace (event : s.event? m = some e) :
    (s.step m).workspace = { s.workspace.step e with outbox := [] } := by
  rw [Site.step, event]
  change { (s.spend m).workspace.step e with outbox := [] } = _
  rw [spend_workspace event]

theorem Lined.spend (h : s.Lined may os) (m : Move) : (s.spend m).Lined may os := by
  have hknown : ∀ k ∈ s.below.known, k ∈ (s.spend m).below.known := fun _ hk => known_spend hk
  refine ⟨?_, ?_⟩
  · cases m with
    | host e => exact h.line.less rfl (.refl _) (.refl _) hknown
    | load loader => exact h.line.less rfl (.refl _) (.refl _) hknown
    | next n => exact h.line.less rfl (List.eraseIdx_sublist _ _) (.refl _) hknown
    | answer n a => exact h.line.less rfl (.refl _) (List.eraseIdx_sublist _ _) hknown
    | stop n => exact h.line.less rfl (.refl _) (List.eraseIdx_sublist _ _) hknown
    | chore n => exact h.line.less rfl (.refl _) (.refl _) hknown
    | ring n => exact h.line.less rfl (.refl _) (.refl _) hknown
  · intro n hn
    refine h.hosts n ?_
    rwa [registry, spend_reviewer] at hn

/-! ## From the registry to the site -/

/-- A call of the host is under way in the registry after a step only if it was so before, or begins with
the step. -/
theorem reached_calls (calm : s.workspace.Calm) {n : Nat}
    (call : (s.workspace.reached e).calls.get? (.host n) ≠ none) :
    s.workspace.registry.calls.get? (.host n) ≠ none ∨
      ∃ request, s.workspace.conveyed e = some (.call (.host n) request) := by
  unfold reached at call
  cases htold : s.workspace.conveyed e with
  | none =>
      rw [htold] at call
      exact .inl call
  | some event =>
      rw [htold] at call
      refine (Registry.step_calls calm.registry _ call).imp id ?_
      rintro ⟨request, rfl⟩
      exact ⟨request, rfl⟩

/-- A call of the host that ends with a step was under way, or began with the step. -/
theorem reached_ends (calm : s.workspace.Calm) {n : Nat} {outcome : Outcome Registry.Reply}
    (ended : (.host n, outcome) ∈ (s.workspace.reached e).finishes) :
    (s.workspace.reached e).calls.get? (.host n) = none ∧
      (s.workspace.registry.calls.get? (.host n) ≠ none ∨
        ∃ request, s.workspace.conveyed e = some (.call (.host n) request)) := by
  unfold reached at ended ⊢
  cases htold : s.workspace.conveyed e with
  | none =>
      simp only [htold] at ended
      rw [(Registry.Leaves.start calm.registry).finishes] at ended
      cases ended
  | some event =>
      simp only [htold] at ended ⊢
      obtain ⟨hgone, hbefore⟩ := Registry.step_ends calm.registry _ ended
      refine ⟨hgone, hbefore.imp id ?_⟩
      rintro ⟨request, rfl⟩
      exact ⟨request, rfl⟩

theorem hostEnds_eq_nil {r : Registry} (h : ∀ n outcome, (.host n, outcome) ∉ r.finishes) :
    r.hostEnds = [] := by
  refine List.filterMap_eq_nil_iff.2 ?_
  rintro ⟨key, outcome⟩ hmem
  cases key with
  | host n => exact absurd hmem (h n outcome)
  | run k => rfl

/-- What the step of the registry makes of the replacements, the step of the site does. -/
theorem turns_of_advances (h : s.Regular) (event : s.event? m = some e)
    (running : ∀ n, s.workspace.calls.get? n ≠ some .closing) (tame : e.tame = true)
    (hosts : ∀ n, s.workspace.registry.calls.get? (.host n) ≠ none →
      .host n ∈ os.map Registry.Replacement.key)
    (new : ∀ n request, s.workspace.conveyed e = some (.call (.host n) request) →
      .host n ∈ os.map Registry.Replacement.key)
    (advances : Registry.World.Advances may (s.spend m).below os (s.workspace.reached e)) :
    Turns may s e os (s.step m) := by
  have hturns := step_turns h.calm running tame
  have hspent : (s.spend m).workspace = s.workspace := spend_workspace event
  have hstep : s.step m = (s.spend m).react e := by rw [Site.step, event]
  have hregistry : (s.step m).workspace.registry = { s.workspace.reached e with outbox := [] } := by
    rw [step_workspace event]
    exact hturns.registry
  have hline {os' : List Registry.Replacement}
      (line : ((s.spend m).below.after (s.workspace.reached e)).Line may os') :
      (s.step m).below.Line may os' := by
    have hdue : (s.step m).due = (s.spend m).due ++ (s.workspace.reached e).laters := by
      rw [hstep]
      change (s.spend m).due ++ ((s.spend m).workspace.step e).passed.filterMap _ = _
      rw [hspent, hturns.laters h.outbox]
    have hinquiries :
        (s.step m).inquiries = (s.spend m).inquiries ++ (s.workspace.reached e).asks := by
      rw [hstep]
      change (s.spend m).inquiries ++ ((s.spend m).workspace.step e).passed.filterMap _ = _
      rw [hspent, hturns.asks h.outbox]
    have hknown : (s.step m).known = (s.spend m).known := by
      rw [hstep]
      rfl
    refine line.less hregistry ?_ ?_ ?_
    · change (s.step m).due.Sublist _
      rw [hdue]
      exact .refl _
    · change (s.step m).inquiries.Sublist _
      rw [hinquiries]
      exact .refl _
    · change ∀ k ∈ (s.spend m).known, k ∈ (s.step m).known
      rw [hknown]
      exact fun _ hk => hk
  have hwanted {n : Nat} (call : s.workspace.registry.calls.get? (.host n) ≠ none ∨
      ∃ request, s.workspace.conveyed e = some (.call (.host n) request)) :
      .host n ∈ os.map Registry.Replacement.key :=
    call.elim (hosts n) fun ⟨request, htold⟩ => new n request htold
  have hbelow : (s.spend m).below.registry = s.workspace.registry :=
    congrArg Workspace.registry hspent
  cases advances with
  | stays line plugins active quiet =>
      rw [hbelow] at plugins active
      refine .stays ⟨hline line, fun n hn => ?_⟩ ?_ ?_ ?_
      · rw [hregistry] at hn
        exact hwanted (reached_calls h.calm hn)
      · rw [hregistry]
        exact plugins
      · rw [hregistry]
        exact active
      · refine hostEnds_eq_nil fun n outcome hended => ?_
        exact quiet _ hended (hwanted (reached_ends h.calm hended).2)
  | replaced o rest first line apart plugins active count finishes =>
      refine .replaced o rest first ⟨hline line, fun n hn => ?_⟩ ?_ ?_ count ?_
      · rw [hregistry] at hn
        have hmem := hwanted (reached_calls h.calm hn)
        rw [first, List.map_cons] at hmem
        refine (List.mem_cons.1 hmem).resolve_left fun hkey => ?_
        have hended : (.host n, .done (.count count)) ∈ (s.workspace.reached e).finishes := by
          rw [finishes, hkey]
          exact List.mem_singleton.2 rfl
        exact hn (reached_ends h.calm hended).1
      · rw [hregistry]
        exact plugins
      · intro available fixed
        rw [hregistry]
        exact active available fixed
      · unfold Registry.hostEnds
        rw [finishes]
        rfl

/-! ## Moves that are none of the host's -/

/-- What a move is that is none of the host's: an event of the registry, one of those that the review has
put off, or the end of a timer. -/
theorem inner_cases (inner : m.inner = true) (event : s.event? m = some e) :
    (∃ told, e = .review (.registry told)) ∨
      (∃ k e', m = .chore k ∧ s.chores[k]? = some e' ∧ e = .review e') ∨
        ∃ k timer, m = .ring k ∧ e = .review (.elapsed timer) := by
  cases m with
  | host e' => cases inner
  | load loader => cases inner
  | next k =>
      obtain ⟨told, _, rfl⟩ := Option.map_eq_some_iff.1 event
      exact .inl ⟨told, rfl⟩
  | answer k a =>
      obtain ⟨q, _, rfl⟩ := Option.map_eq_some_iff.1 event
      exact .inl ⟨_, rfl⟩
  | stop k =>
      obtain ⟨q, _, rfl⟩ := Option.map_eq_some_iff.1 event
      exact .inl ⟨_, rfl⟩
  | chore k =>
      obtain ⟨e', hchore, rfl⟩ := Option.map_eq_some_iff.1 (Option.filter_eq_some_iff.1 event).1
      exact .inr (.inl ⟨k, e', rfl, hchore, rfl⟩)
  | ring k =>
      obtain ⟨timer, _, rfl⟩ := Option.map_eq_some_iff.1 event
      exact .inr (.inr ⟨k, timer, rfl, rfl⟩)

/-- The event follows from what has been asked for. -/
theorem inner_of_event (h : s.Regular) (inner : m.inner = true) (event : s.event? m = some e) :
    ∃ e', e = .review e' ∧ e'.inner = true := by
  rcases inner_cases inner event with ⟨told, rfl⟩ | ⟨k, e', _, hchore, rfl⟩ | ⟨k, timer, _, rfl⟩
  · exact ⟨_, rfl, rfl⟩
  · have hisChore := h.chores e' (List.mem_of_getElem? hchore)
    exact ⟨e', rfl, by cases e' <;> first | rfl | cases hisChore⟩
  · exact ⟨_, rfl, rfl⟩

/-- A timer runs out with a move of its own. -/
theorem ring_of_elapsed (h : s.Regular) (inner : m.inner = true) {timer : Nat}
    (event : s.event? m = some (.review (.elapsed timer))) : ∃ k, m = .ring k := by
  rcases inner_cases inner event with ⟨told, heq⟩ | ⟨k, e', _, hchore, heq⟩ | ⟨k, _, hring, _⟩
  · cases heq
  · cases heq
    cases h.chores _ (List.mem_of_getElem? hchore)
  · exact ⟨k, hring⟩

/-- Of what the review has put off only a run that begins comes to the registry, as a check. -/
theorem begin_of_conveyed {r : Reviewer} {e : Review.Event} {told : Registry.Event}
    (isChore : e.isChore = true) (conveyed : r.conveyed e = some told) :
    ∃ run request, e = .begin run ∧ told = .call (.run run) request ∧ request.reads = true := by
  cases e with
  | begin run =>
      simp only [Reviewer.conveyed] at conveyed
      split at conveyed
      · split at conveyed
        · cases conveyed
        · cases conveyed
          exact ⟨run, _, rfl, rfl, rfl⟩
      · cases conveyed
  | member n i => cases conveyed
  | ended run => cases conveyed
  | gathered n => cases conveyed
  | _ => cases isChore

/-- The registry notices nothing of the event. -/
theorem Lined.unheard (lined : s.Lined may os)
    (unheard : s.workspace.conveyed e = none) :
    Registry.World.Advances may (s.spend m).below os (s.workspace.reached e) := by
  have hline := (lined.spend m).line
  have hreached : s.workspace.reached e = (s.spend m).below.registry := by
    unfold reached
    rw [unheard]
    exact (congrArg Reviewer.registry (spend_reviewer s m)).symm
  have hstart := Registry.Leaves.start hline.orderly.outbox
  rw [hreached]
  exact hline.idle hstart (hline.orderly.aside hstart rfl rfl hline.orderly.named)

/-- A move of the registry's own world that is the same to the registry. -/
theorem Lined.told (lined : s.Lined may os) {event : Registry.Event}
    (told : s.workspace.conveyed e = some event) (m' : Registry.Move)
    (move : s.below.event? m' = some event) (spent : s.below.spend m' = (s.spend m).below)
    (fair : s.below.Fair may m') (tame : event.tame = true) :
    Registry.World.Advances may (s.spend m).below (os ++ event.replacement?.toList)
      (s.workspace.reached e) := by
  have hdue := lined.line.due fair move
  rw [spent] at hdue
  have hadvances := (lined.spend m).line.advances hdue tame
  have hreviewer := spend_reviewer s m
  have hreached : s.workspace.reached e =
      Registry.step (s.spend m).below.buffers (s.spend m).below.registry event := by
    unfold reached World.below registry
    rw [told, hreviewer]
  rw [hreached]
  exact hadvances

/-- What a move that is none of the host's makes of the replacements in the registry; no call of the host
comes to it. -/
theorem Lined.advances (lined : s.Lined may os) (h : s.Regular) (fair : s.Fair may m)
    (inner : m.inner = true) (event : s.event? m = some e) :
    Registry.World.Advances may (s.spend m).below os (s.workspace.reached e) ∧
      ∀ n request, s.workspace.conveyed e ≠ some (.call (.host n) request) := by
  have hself {event : Registry.Event} (hnone : event.replacement? = none)
      (hadvances : Registry.World.Advances may (s.spend m).below (os ++ event.replacement?.toList)
        (s.workspace.reached e)) :
      Registry.World.Advances may (s.spend m).below os (s.workspace.reached e) := by
    rwa [hnone, Option.toList_none, List.append_nil] at hadvances
  cases m with
  | host e' => cases inner
  | load loader => cases inner
  | next k =>
      obtain ⟨event', hdue, rfl⟩ := Option.map_eq_some_iff.1 event
      have hisDue := (h.below.orderly.due event' (List.mem_of_getElem? hdue)).1
      obtain ⟨htame, hnone⟩ := World.tame_of_isDue hisDue
      have hfair : s.below.Fair may (.next k) := by
        rintro _ _ _ ⟨⟩
      refine ⟨hself hnone (lined.told rfl (.next k) hdue rfl hfair htame), ?_⟩
      rintro n request ⟨⟩
      exact hisDue
  | answer k a =>
      obtain ⟨q, hq, rfl⟩ := Option.map_eq_some_iff.1 event
      have hmove : s.below.event? (.answer k a) = some (.answered q.key q.part a) :=
        Option.map_eq_some_iff.2 ⟨q, hq, rfl⟩
      have hfair : s.below.Fair may (.answer k a) := by
        rintro _ _ q' ⟨⟩ hq' hquestion
        exact fair k a q' rfl hq' hquestion
      exact ⟨hself rfl (lined.told rfl (.answer k a) hmove rfl hfair rfl), nofun⟩
  | stop k =>
      obtain ⟨q, _, rfl⟩ := Option.map_eq_some_iff.1 event
      refine ⟨?_, nofun⟩
      have hstops := (lined.spend (.stop k)).line.stops q.key q.part
      exact hstops
  | chore k =>
      obtain ⟨e', hchore, rfl⟩ := Option.map_eq_some_iff.1 (Option.filter_eq_some_iff.1 event).1
      have hisChore := h.chores e' (List.mem_of_getElem? hchore)
      cases htold : s.workspace.conveyed (.review e') with
      | none => exact ⟨lined.unheard htold, nofun⟩
      | some told =>
          obtain ⟨run, request, rfl, rfl, hreads⟩ := begin_of_conveyed hisChore htold
          obtain ⟨hadmitted, hspent⟩ := admits_of_event h event rfl
          have hnew := (new_of_admits hadmitted rfl).1
          have hmove : s.below.event? (.host (.call (.run run) request)) =
              some (.call (.run run) request) :=
            if_pos (by simpa [Registry.World.admits, World.below] using hnew)
          have hfair : s.below.Fair may (.host (.call (.run run) request)) := by
            rintro _ _ _ ⟨⟩
          refine ⟨hself (Registry.Event.replacement?_of_reads hreads)
            (lined.told htold (.host (.call (.run run) request)) hmove hspent.symm hfair ?_), ?_⟩
          · cases request <;> exact hreads
          · rintro n request' ⟨⟩
  | ring k =>
      obtain ⟨timer, _, rfl⟩ := Option.map_eq_some_iff.1 event
      refine ⟨lined.unheard rfl, ?_⟩
      rintro n request ⟨⟩

/-- While the host does nothing the replacements stay, or the first of them takes effect. -/
theorem Lined.turns (lined : s.Lined may os) (h : s.Regular)
    (running : ∀ n, s.workspace.calls.get? n ≠ some .closing) (fair : s.Fair may m)
    (inner : m.inner = true) (event : s.event? m = some e) : Turns may s e os (s.step m) := by
  obtain ⟨e', rfl, hinner⟩ := inner_of_event h inner event
  obtain ⟨hadvances, hnone⟩ := lined.advances h fair inner event
  refine turns_of_advances h event running ?_ lined.hosts ?_ hadvances
  · cases e' <;> first | rfl | cases hinner
  · exact fun n request htold => absurd htold (hnone n request)

/-! ## Settings that are applied -/

/-- The replacement that settings call for joins those that are under way. -/
theorem Lined.apply (lined : s.Lined may os) (h : s.Regular)
    (running : ∀ n, s.workspace.calls.get? n ≠ some .closing) {n : Nat} {settings : Settings}
    {documents : List String} (event : s.event? m = some (.call n (.apply settings documents))) :
    Turns may s (.call n (.apply settings documents))
      (os ++ ((s.workspace.order? (.call n (.apply settings documents))).map
        (·.replacement s.workspace.factories)).toList) (s.step m) := by
  have hhosts (more : List Registry.Replacement) (n : Nat)
      (hn : s.workspace.registry.calls.get? (.host n) ≠ none) :
      .host n ∈ (os ++ more).map Registry.Replacement.key := by
    rw [List.map_append]
    exact List.mem_append_left _ (lined.hosts n hn)
  cases horder : s.workspace.order? (.call n (.apply settings documents)) with
  | none =>
      have hnone : s.workspace.conveyed (.call n (.apply settings documents)) = none := by
        simp only [conveyed, horder]
      refine turns_of_advances h event running rfl (hhosts _) ?_ ?_
      · intro k request htold
        rw [hnone] at htold
        cases htold
      · rw [Option.map_none, Option.toList_none, List.append_nil]
        exact lined.unheard hnone
  | some o =>
      have hnumber : o.number = n := (Option.some.inj (number?_of_order horder)).symm
      have htold := conveyed_of_order horder
      obtain ⟨hadmitted, hspent⟩ := admits_of_event h event rfl
      have hnew := (new_of_admits hadmitted rfl).1
      rw [← hnumber] at hspent hnew
      change (o.replacement s.workspace.factories).key ∉ s.known at hnew
      have hmove : s.below.event? (.host (.call (o.replacement s.workspace.factories).key
          (o.replacement s.workspace.factories).request)) = some (.call _ _) :=
        if_pos (by simpa [Registry.World.admits, World.below] using hnew)
      have hfair : s.below.Fair may (.host (.call (o.replacement s.workspace.factories).key
          (o.replacement s.workspace.factories).request)) := by
        rintro _ _ _ ⟨⟩
      refine turns_of_advances h event running rfl (hhosts _) ?_
        (lined.told htold _ hmove hspent.symm hfair rfl)
      intro k request heq
      rw [htold] at heq
      cases heq
      rw [List.map_append]
      exact List.mem_append_right _ (List.mem_singleton.2 rfl)

end Site

end Shellwright.Workspace
