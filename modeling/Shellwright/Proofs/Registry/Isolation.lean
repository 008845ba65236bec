import Shellwright.Proofs.Registry.Gathering
/-!
# Isolation of plugins in a check

A plugin that raises an error when it checks costs the other plugins nothing. One that raises when it
is asked whether it handles the document costs the check itself: that question is put while the check
is set up, and nothing guards it.
-/

namespace Shellwright.Registry

/-! ## Who is asked -/

/-- The plugins that are active, in the order of registration. -/
def activePlugins (r : Registry) : List Plugin :=
  r.plugins.values.filter fun p => r.isActive p.name

/-- The plugin does not say that the document is none of its business. -/
def concerned (d : TextDocument) (p : Plugin) : Bool :=
  match p.supports d with
  | .ok fits => fits
  | .error _ => true

theorem supporting_eq {d : TextDocument} {ps : List Plugin}
    (h : ∀ p ∈ ps, ∀ text, p.supports d ≠ .error text) :
    supporting d ps = .ok (ps.filter (concerned d)) := by
  induction ps with
  | nil => rfl
  | cons p rest ih =>
      have hrest := ih fun q hq => h q (List.mem_cons_of_mem _ hq)
      cases hp : p.supports d with
      | error text => exact absurd hp (h p List.mem_cons_self text)
      | ok fits =>
          have hsame : concerned d p = fits := by rw [concerned, hp]
          rw [supporting, hp, hrest, List.filter_cons, hsame]
          rfl

theorem startCheck_nobody {r : Registry} {buffers : Buffers} {document : String}
    (h : supporting (buffers.find document) r.activePlugins = .ok []) (key : CallKey)
    (options : CallOptions) :
    r.startCheck buffers key document options = r.finish key (.done (.checked {})) := by
  have hsnapshot : r.snapshot (buffers.find document) = .ok [] := h
  rw [startCheck, hsnapshot]

theorem startCheck_error {r : Registry} {buffers : Buffers} {document text : String}
    (h : supporting (buffers.find document) r.activePlugins = .error text) (key : CallKey)
    (options : CallOptions) :
    r.startCheck buffers key document options = r.finish key (.raised (.support text)) := by
  have hsnapshot : r.snapshot (buffers.find document) = .error text := h
  rw [startCheck, hsnapshot]

theorem supporting_error {d : TextDocument} {ps : List Plugin} {p : Plugin} {text : String}
    (member : p ∈ ps) (raises : p.supports d = .error text) :
    ∃ first, supporting d ps = .error first := by
  induction ps with
  | nil => cases member
  | cons q rest ih =>
      cases hq : q.supports d with
      | error first => exact ⟨first, by rw [supporting, hq]; rfl⟩
      | ok fits =>
          rcases List.mem_cons.1 member with rfl | hrest
          · rw [raises] at hq
            cases hq
          · obtain ⟨first, hfirst⟩ := ih hrest
            exact ⟨first, by rw [supporting, hq, hfirst]; rfl⟩

/-! ## The beginning and the time after the end -/

theorem allChecked_waiting {ps : List Plugin} (h : ps ≠ []) :
    allChecked (ps.map (·, .waiting)) = false := by
  cases ps with
  | nil => exact absurd rfl h
  | cons p rest => rfl

namespace World

variable {w : World} {key : CallKey} {m : Move} {document : String} {options : CallOptions}
  {ps : List Plugin}

/-- A call is a move of the host, under a key of its own. -/
theorem Orderly.host_of_call (h : w.Orderly) {request : Request}
    (event : w.event? m = some (.call key request)) :
    m = .host (.call key request) ∧ key ∉ w.known := by
  cases m with
  | host e =>
      obtain ⟨hadmits, ⟨⟩⟩ := Option.ite_none_right_eq_some.1 event
      exact ⟨rfl, by simpa [admits] using hadmits⟩
  | edit b => cases event
  | next n => cases (h.due _ (List.mem_of_getElem? event)).1
  | answer n a =>
      obtain ⟨q, _, heq⟩ := Option.map_eq_some_iff.1 event
      cases heq
  | stop n =>
      obtain ⟨q, _, heq⟩ := Option.map_eq_some_iff.1 event
      cases heq

/-- The check begins: all parts are to be asked. -/
theorem Orderly.gathers_of_call (h : w.Orderly)
    (event : w.event? m = some (.call key (.check document options)))
    (snapshot : w.registry.snapshot (w.buffers.find document) = .ok ps) (someone : ps ≠ []) :
    (w.step m).Gathers key document options ps (ps.map (·, .waiting)) [] ∧ w.endings m = [] := by
  obtain ⟨rfl, hnew⟩ := h.host_of_call event
  have hbare := h.bare_of_new hnew
  have hstep : w.registry.step w.buffers (.call key (.check document options)) =
      (List.range ps.length).foldl (fun r i => r.emit (.later (.begin key i)))
        (w.registry.setCall key ⟨.checking document options (ps.map (·, .waiting)), false⟩) := by
    cases ps with
    | nil => exact absurd rfl someone
    | cons p rest => simp only [Registry.step, Registry.call, startCheck, snapshot]
  have hleaves : (w.registry.step w.buffers (.call key (.check document options))).Leaves
      (w.registry.setCall key ⟨.checking document options (ps.map (·, .waiting)), false⟩)
      ((List.range ps.length).map (.begin key ·)) [] [] := by
    rw [hstep]
    exact ((Leaves.start h.outbox).setCall key _).begins key (List.range ps.length)
  have hparts : ((List.range ps.length).map (Event.begin key ·)).filterMap (·.beginning? key) =
      List.range ps.length := by
    simp [List.filterMap_map, Event.beginning?]
  rw [World.endings, World.step, event]
  refine ⟨?_, hleaves.finishes⟩
  change ((w.spend (.host (.call key (.check document options)))).after
    (w.registry.step w.buffers (.call key (.check document options)))).Gathers _ _ _ _ _ _
  refine ⟨?_, ?_, ?_, ?_⟩
  · change (w.registry.step w.buffers _).calls.get? key = _
    rw [hleaves.calls]
    exact Keyed.get?_put_self _ _ _
  · rw [List.map_map]
    exact List.map_id _
  · have hbegins : (w.spend (.host (.call key (.check document options)))).beginning key = [] :=
      hbare.begun
    have hasks : (w.spend (.host (.call key (.check document options)))).inquiriesOf key = [] :=
      hbare.asked
    rw [beginning_after hleaves, inquiriesOf_after hleaves, hbegins, hasks, hparts]
    exact Parts.start key _ ps
  · have hbefore : w.due.countP (·.gathers key) = 0 := hbare.gathered
    have hlaters : ((List.range ps.length).map (Event.begin key ·)).countP (·.gathers key) = 0 := by
      simp [List.countP_map, Function.comp_def, Event.gathers]
    have hdue : ((w.spend (.host (.call key (.check document options)))).after
        (w.registry.step w.buffers (.call key (.check document options)))).due =
        w.due ++ (List.range ps.length).map (.begin key ·) := by
      rw [← hleaves.laters]
      rfl
    rw [allChecked_waiting someone, gatherings, hdue, List.countP_append, hbefore, hlaters]
    rfl

/-- The check ends as it begins, with an error or because there is nobody to ask. -/
theorem Orderly.endings_of_call (h : w.Orderly)
    (event : w.event? m = some (.call key (.check document options))) {outcome : Outcome Reply}
    (starts : w.registry.startCheck w.buffers key document options =
      w.registry.finish key outcome) :
    w.endings m = [(key, outcome)] ∧ (w.step m).registry.calls.get? key = none := by
  obtain ⟨rfl, -⟩ := h.host_of_call event
  have hleaves := (Leaves.start h.outbox).finish key outcome
  have hstep : w.registry.step w.buffers (.call key (.check document options)) =
      w.registry.finish key outcome := starts
  rw [World.endings, World.step, event]
  change (w.registry.step w.buffers _).finishes = _ ∧
    (w.registry.step w.buffers _).calls.get? key = none
  rw [hstep]
  refine ⟨hleaves.finishes, ?_⟩
  rw [hleaves.calls]
  exact (Keyed.get?_drop _ _ _).trans (if_pos rfl)

theorem known_step (w : World) (m : Move) (h : key ∈ w.known) : key ∈ (w.step m).known := by
  have hspend : key ∈ (w.spend m).known := by
    cases m with
    | host e =>
        cases e with
        | call k request => exact List.mem_cons_of_mem _ h
        | _ => exact h
    | _ => exact h
  unfold World.step
  split <;> exact hspend

/-- A call that is over stays so. -/
theorem Orderly.gone (h : w.Orderly) (known : key ∈ w.known)
    (absent : w.registry.calls.get? key = none) (m : Move) :
    (w.step m).registry.calls.get? key = none ∧ ∀ outcome, (key, outcome) ∉ w.endings m := by
  unfold World.step World.endings
  cases hevent : w.event? m with
  | none =>
      rw [spend_registry]
      exact ⟨absent, fun _ hended => nomatch hended⟩
  | some e =>
      have hold : ∀ request, e ≠ .call key request := by
        rintro request rfl
        exact (h.host_of_call hevent).2 known
      have hbefore : (w.spend m).registry.calls.get? key = none := by
        rw [spend_registry]
        exact absent
      have houtbox := (h.spend m).outbox
      constructor
      · by_contra hcall
        rcases step_calls houtbox (w.spend m).buffers hcall with hcall | ⟨request, hnew⟩
        · exact hcall hbefore
        · exact hold request hnew
      · intro outcome hended
        rcases (step_ends houtbox (w.spend m).buffers hended).2 with hcall | ⟨request, hnew⟩
        · exact hcall hbefore
        · exact hold request hnew

theorem Orderly.replies_of_new (h : w.Orderly) (new : key ∉ w.known) : w.replies key m = [] := by
  unfold replies
  split
  · rename_i n a
    cases hq : w.inquiries[n]? with
    | none => rfl
    | some q =>
        have hkey : q.key ≠ key := by
          rintro rfl
          exact new (h.inquiries q (List.mem_of_getElem? hq))
        simp [hkey]
  · rfl

end World

namespace Schedule

variable (s : Schedule)

/-- The answers to a call so far. -/
def answers (s : Schedule) (key : CallKey) : Nat → List (Inquiry × Answer)
  | 0 => []
  | t + 1 => s.answers key t ++ (s.world t).replies key (s t)

def endings (t : Nat) : List (CallKey × Outcome Reply) :=
  (s.world t).endings (s t)

/-- What the plugin that is asked as part `i` has to do with its share of a check: that is what comes
of its answer, or one error when it could not even say whether it handles the document. -/
def Share (key : CallKey) (question : Question) (d : TextDocument)
    (answers : List (Inquiry × Answer)) (i : Nat) (p : Plugin) (v : Verdict) : Prop :=
  (∃ text, p.supports d = .error text ∧ ErrorOf p v) ∨
    ∃ a, (⟨key, i, p, question⟩, a) ∈ answers ∧ Contributes p a v

/-- The verdict `v` is made of the shares of the plugins, in their order and with none left out. -/
structure Complete (key : CallKey) (question : Question) (d : TextDocument) (ps : List Plugin)
    (answers : List (Inquiry × Answer)) (v : Verdict) : Prop where
  once : (answers.map (·.1.part)).Nodup
  shares : ∃ vs : List Verdict, vs.length = ps.length ∧
    v.diagnostics = vs.flatMap (·.diagnostics) ∧ v.hasErrors = vs.any (·.hasErrors) ∧
    ∀ i p w, ps[i]? = some p → vs[i]? = some w → Share key question d answers i p w

/-- The call has ended before the move `t`, or something of it is still to come. -/
def Lives (key : CallKey) (t₀ t : Nat) : Prop :=
  (∃ u outcome, t₀ ≤ u ∧ u < t ∧ (key, outcome) ∈ s.endings u) ∨
    (∃ e ∈ (s.world t).due, e.key? = some key) ∨ ∃ q ∈ (s.world t).inquiries, q.key = key

/-- The check that begins with the move `t₀` does not raise: when it ends, which it does once, its
verdict holds the shares of all plugins that are active and concerned as it begins. -/
structure Isolates (t₀ : Nat) (key : CallKey) (document : String) (options : CallOptions) : Prop where
  ends : ∀ t outcome, t₀ ≤ t → (key, outcome) ∈ s.endings t →
    ∃ v, outcome = .done (.checked v) ∧
      Complete key (.check document options) ((s.world t₀).buffers.find document)
        ((s.registry t₀).activePlugins.filter (concerned ((s.world t₀).buffers.find document)))
        (s.answers key (t + 1)) v
  once : ∀ t t' outcome outcome', t₀ ≤ t → t₀ ≤ t' → (key, outcome) ∈ s.endings t →
    (key, outcome') ∈ s.endings t' → t = t' ∧ outcome = outcome'
  lives : ∀ t, t₀ < t → s.Lives key t₀ t

/-- How far the check has got before the move `t`. -/
inductive Fate (t₀ t : Nat) (key : CallKey) (document : String) (options : CallOptions)
    (ps : List Plugin) : Prop
  | underWay (parts : List (Plugin × Progress Verdict))
      (gathers : (s.world t).Gathers key document options ps parts (s.answers key t))
      (quiet : ∀ u outcome, t₀ ≤ u → u < t → (key, outcome) ∉ s.endings u)
  | settled (u : Nat) (v : Verdict) (since : t₀ ≤ u) (past : u < t)
      (complete : Complete key (.check document options) ((s.world t₀).buffers.find document) ps
        (s.answers key (u + 1)) v)
      (ended : (key, .done (.checked v)) ∈ s.endings u)
      (alone : ∀ u' outcome, t₀ ≤ u' → u' < t → (key, outcome) ∈ s.endings u' →
        u' = u ∧ outcome = .done (.checked v))
      (known : key ∈ (s.world t).known)
      (gone : (s.registry t).calls.get? key = none)

variable {s} {t t₀ : Nat} {key : CallKey} {document : String} {options : CallOptions}
  {ps : List Plugin}

theorem answers_of_new (h : key ∉ (s.world t).known) : s.answers key t = [] := by
  induction t with
  | zero => rfl
  | succ t ih =>
      have hbefore : key ∉ (s.world t).known := fun hknown => h (World.known_step _ _ hknown)
      rw [answers, ih hbefore, (s.orderly t).replies_of_new hbefore]
      rfl

theorem known_of_call {request : Request} (event : s.event? t = some (.call key request)) :
    key ∈ (s.world (t + 1)).known := by
  obtain ⟨hmove, -⟩ := (s.orderly t).host_of_call event
  rw [world_of_some event, hmove]
  exact List.mem_cons_self

/-- When all parts have answered, their verdicts together are complete. -/
theorem complete_of_allChecked {d : TextDocument} {w : World}
    {parts : List (Plugin × Progress Verdict)} {answers : List (Inquiry × Answer)}
    (h : w.Gathers key document options ps parts answers) (all : allChecked parts = true) :
    Complete key (.check document options) d ps answers
      (Verdict.merge (parts.filterMap (·.2.result?))) := by
  obtain ⟨vs, hresults, hprogress⟩ := settled_of_allChecked all
  rw [hresults]
  refine ⟨h.state.unique, vs, ?_, rfl, rfl, fun i p v hp hv => .inr ?_⟩
  · simpa [← h.plugins] using (congrArg List.length hprogress).symm
  · have hsettled : (parts.map (·.2))[i]? = some (.settled v) := by
      rw [hprogress, List.getElem?_map, hv]
      rfl
    rw [← h.plugins, List.getElem?_map] at hp
    obtain ⟨⟨_, progress⟩, hpart, rfl⟩ := Option.map_eq_some_iff.1 hp
    rw [List.getElem?_map, hpart] at hsettled
    cases hsettled
    exact h.state.settled i _ v hpart

/-- What the first move makes of the check. -/
theorem Fate.start (event : s.event? t₀ = some (.call key (.check document options)))
    (able : ∀ p ∈ (s.registry t₀).activePlugins, ∀ text,
      p.supports ((s.world t₀).buffers.find document) ≠ .error text) :
    s.Fate t₀ (t₀ + 1) key document options
      ((s.registry t₀).activePlugins.filter (concerned ((s.world t₀).buffers.find document))) := by
  have horderly := s.orderly t₀
  have hnew := (horderly.host_of_call event).2
  have hanswers : s.answers key (t₀ + 1) = [] := by
    rw [answers, answers_of_new hnew, horderly.replies_of_new hnew]
    rfl
  have hsnapshot := supporting_eq able
  generalize (s.registry t₀).activePlugins.filter
    (concerned ((s.world t₀).buffers.find document)) = ps at hsnapshot ⊢
  have hnow {u : Nat} (since : t₀ ≤ u) (past : u < t₀ + 1) : u = t₀ :=
    Nat.le_antisymm (Nat.le_of_lt_succ past) since
  by_cases hps : ps = []
  · subst hps
    obtain ⟨hended, hgone⟩ :=
      horderly.endings_of_call event (startCheck_nobody hsnapshot key options)
    refine .settled t₀ {} (Nat.le_refl _) (Nat.lt_succ_self _) ?_ ?_ ?_ ?_ hgone
    · rw [hanswers]
      exact ⟨List.nodup_nil, [], rfl, rfl, rfl, fun i p w hp => by simp at hp⟩
    · rw [endings, hended]
      exact List.mem_singleton_self _
    · intro u outcome hfrom hpast hmem
      obtain rfl := hnow hfrom hpast
      rw [endings, hended] at hmem
      cases List.mem_singleton.1 hmem
      exact ⟨rfl, rfl⟩
    · exact known_of_call event
  · obtain ⟨hgathers, hended⟩ := horderly.gathers_of_call event hsnapshot hps
    rw [← hanswers] at hgathers
    refine .underWay _ hgathers fun u outcome hfrom hpast hmem => ?_
    obtain rfl := hnow hfrom hpast
    rw [endings, hended] at hmem
    cases hmem

theorem Fate.succ (h : s.Fate t₀ t key document options ps) (past : t₀ < t)
    (kept : ∀ e, s.event? t = some e → e.callsOff key = false) :
    s.Fate t₀ (t + 1) key document options ps := by
  have horderly := s.orderly t
  cases h with
  | underWay parts gathers quiet =>
      rcases gathers.step horderly kept with
        ⟨⟨parts', hgathers⟩, hnone⟩ | ⟨hall, hsilent, hended, hgone⟩
      · refine .underWay parts' hgathers fun u outcome hfrom hpast hmem => ?_
        rcases Nat.lt_succ_iff_lt_or_eq.1 hpast with hlt | rfl
        · exact quiet u outcome hfrom hlt hmem
        · exact hnone outcome hmem
      · refine .settled t (Verdict.merge (parts.filterMap (·.2.result?))) (Nat.le_of_lt past)
          (Nat.lt_succ_self t) ?_ ?_ ?_ ?_ hgone
        · rw [answers, hsilent, List.append_nil]
          exact complete_of_allChecked gathers hall
        · rw [endings, hended]
          exact List.mem_singleton_self _
        · intro u outcome hfrom hpast hmem
          rcases Nat.lt_succ_iff_lt_or_eq.1 hpast with hlt | rfl
          · exact absurd hmem (quiet u outcome hfrom hlt)
          · rw [endings, hended] at hmem
            cases List.mem_singleton.1 hmem
            exact ⟨rfl, rfl⟩
        · exact World.known_step _ _ (horderly.fits key _ gathers.call).known
  | settled u v since past' complete ended alone known gone =>
      obtain ⟨hgone, hnone⟩ := horderly.gone known gone (s t)
      refine .settled u v since (Nat.lt_succ_of_lt past') complete ended ?_
        (World.known_step _ _ known) hgone
      intro u' outcome hfrom hpast hmem
      rcases Nat.lt_succ_iff_lt_or_eq.1 hpast with hlt | rfl
      · exact alone u' outcome hfrom hlt hmem
      · exact absurd hmem (hnone outcome)

theorem fate (event : s.event? t₀ = some (.call key (.check document options)))
    (kept : ∀ t e, s.event? t = some e → e.callsOff key = false)
    (able : ∀ p ∈ (s.registry t₀).activePlugins, ∀ text,
      p.supports ((s.world t₀).buffers.find document) ≠ .error text) (past : t₀ < t) :
    s.Fate t₀ t key document options
      ((s.registry t₀).activePlugins.filter (concerned ((s.world t₀).buffers.find document))) := by
  induction t with
  | zero => cases past
  | succ t ih =>
      rcases Nat.lt_succ_iff_lt_or_eq.1 past with hlt | rfl
      · exact (ih hlt).succ hlt (kept t)
      · exact Fate.start event able

theorem Fate.ends (h : s.Fate t₀ (t + 1) key document options ps) (since : t₀ ≤ t)
    {outcome : Outcome Reply} (ended : (key, outcome) ∈ s.endings t) :
    ∃ v, outcome = .done (.checked v) ∧ Complete key (.check document options)
      ((s.world t₀).buffers.find document) ps (s.answers key (t + 1)) v := by
  cases h with
  | underWay parts gathers quiet => exact absurd ended (quiet t outcome since (Nat.lt_succ_self t))
  | settled u v _ _ complete _ alone known gone =>
      obtain ⟨rfl, rfl⟩ := alone t outcome since (Nat.lt_succ_self t) ended
      exact ⟨v, rfl, complete⟩

theorem Fate.once (h : s.Fate t₀ t key document options ps) {u u' : Nat}
    {outcome outcome' : Outcome Reply} (since : t₀ ≤ u) (past : u < t)
    (ended : (key, outcome) ∈ s.endings u) (since' : t₀ ≤ u') (past' : u' < t)
    (ended' : (key, outcome') ∈ s.endings u') : u = u' ∧ outcome = outcome' := by
  cases h with
  | underWay parts gathers quiet => exact absurd ended (quiet u outcome since past)
  | settled u₀ v _ _ complete _ alone known gone =>
      obtain ⟨rfl, rfl⟩ := alone u outcome since past ended
      obtain ⟨rfl, rfl⟩ := alone u' outcome' since' past' ended'
      exact ⟨rfl, rfl⟩

/-- A check under way has a part to be asked or to answer, or its verdicts are about to be put
together. -/
theorem Fate.lives (h : s.Fate t₀ t key document options ps) : s.Lives key t₀ t := by
  cases h with
  | settled u v since past complete ended alone known gone => exact .inl ⟨u, _, since, past, ended⟩
  | underWay parts gathers quiet =>
      refine .inr ?_
      cases hall : allChecked parts with
      | true =>
          have hpos : 0 < (s.world t).gatherings key := by
            rw [gathers.gathered, hall]
            exact Nat.one_pos
          obtain ⟨e, hdue, hgathers⟩ := List.countP_pos_iff.1 hpos
          refine .inl ⟨e, hdue, ?_⟩
          cases e with
          | gathered k => exact congrArg some (of_decide_eq_true hgathers)
          | _ => cases hgathers
      | false =>
          rcases gathers.state.unfinished hall with hbegins | hasks
          · obtain ⟨i, hi⟩ := List.exists_mem_of_ne_nil _ hbegins
            obtain ⟨e, hdue, hbegin⟩ := List.mem_filterMap.1 hi
            refine .inl ⟨e, hdue, ?_⟩
            cases e with
            | begin k j =>
                obtain ⟨hkey, -⟩ := Option.ite_none_right_eq_some.1 hbegin
                exact congrArg some hkey
            | _ => cases hbegin
          · obtain ⟨q, hq⟩ := List.exists_mem_of_ne_nil _ hasks
            obtain ⟨hopen, hkey⟩ := List.mem_filter.1 hq
            exact .inr ⟨q, hopen, of_decide_eq_true hkey⟩

/-- The move calls the call off, or ends a plugin that has not answered. -/
def callsOff (key : CallKey) : Move → Bool
  | .host (.abort k) => k = key
  | .stop _ => true
  | _ => false

theorem kept_of_moves (h : ∀ t, callsOff key (s t) = false) :
    ∀ t e, s.event? t = some e → e.callsOff key = false := by
  intro t e event
  have hmove := h t
  unfold event? at event
  cases hm : s t with
  | host e' =>
      rw [hm] at hmove event
      obtain ⟨hadmits, ⟨⟩⟩ := Option.ite_none_right_eq_some.1 event
      cases e with
      | abort k => exact hmove
      | stopped k i => cases hadmits
      | _ => rfl
  | edit b =>
      rw [hm] at event
      cases event
  | next n =>
      rw [hm] at event
      have hdue := ((s.orderly t).due e (List.mem_of_getElem? event)).1
      cases e with
      | abort k => cases hdue
      | stopped k i => cases hdue
      | _ => rfl
  | answer n a =>
      rw [hm] at event
      obtain ⟨q, _, rfl⟩ := Option.map_eq_some_iff.1 event
      rfl
  | stop n =>
      rw [hm] at hmove
      cases hmove

theorem kept_of_list {moves : List Move} (h : moves.all (!callsOff key ·) = true) :
    ∀ t e, (ofMoves moves).event? t = some e → e.callsOff key = false := by
  refine kept_of_moves fun t => ?_
  rw [ofMoves, List.getD_eq_getElem?_getD]
  cases hmove : moves[t]? with
  | none => rfl
  | some m => simpa using List.all_eq_true.1 h m (List.mem_of_getElem? hmove)

/-- A check isolates its plugins exactly when none that is active raises on being asked whether it
handles the document; whatever they raise while they check does no harm. -/
theorem check_isolated_iff (s : Schedule) (t₀ : Nat) (key : CallKey) (document : String)
    (options : CallOptions) (event : s.event? t₀ = some (.call key (.check document options)))
    (kept : ∀ t e, s.event? t = some e → e.callsOff key = false) :
    s.Isolates t₀ key document options ↔
      ∀ p ∈ (s.registry t₀).activePlugins, ∀ text,
        p.supports ((s.world t₀).buffers.find document) ≠ .error text := by
  constructor
  · intro isolates p hp text hraises
    obtain ⟨first, hfirst⟩ := supporting_error hp hraises
    have hended := ((s.orderly t₀).endings_of_call event (startCheck_error hfirst key options)).1
    obtain ⟨v, heq, -⟩ := isolates.ends t₀ _ (Nat.le_refl t₀)
      (hended ▸ List.mem_singleton_self _)
    cases heq
  · intro able
    have hfate {t : Nat} (past : t₀ < t) := fate event kept able past
    refine ⟨fun t outcome hfrom hended => ?_,
      fun t t' outcome outcome' hfrom hfrom' hended hended' => ?_, fun t past => (hfate past).lives⟩
    · exact (hfate (Nat.lt_succ_of_le hfrom)).ends hfrom hended
    · have hmax : t₀ < max t t' + 1 := by omega
      exact (hfate hmax).once hfrom (by omega) hended hfrom' (by omega) hended'

/-- A linter that the host supplies. -/
def linter (id : Nat) (name : String) (supports : Support) : Plugin :=
  ⟨id, name, name, "1.0", false, supports, .external id⟩

/-- Two linters become active, and a document is checked. -/
def checkOfTwo (supports : Support) : List Move :=
  [.host (.register (linter 0 "first" supports)), .host (.register (linter 1 "second" supportAll)),
    .host (.call (.host 0) (.activateAll ["first", "second"])), .next 0, .next 0,
    .answer 0 (.available true), .answer 0 (.available true), .next 0,
    .host (.call (.host 1) (.check "d" {}))]

/-- The first linter raises when it checks, and the second finds nothing. -/
def raisedInCheck : Schedule :=
  ofMoves (checkOfTwo supportAll ++
    [.next 0, .next 0, .answer 1 (.checked {}), .answer 0 (.raised "no such rule"), .next 0])

theorem raisedInCheck_isolates :
    (∃ v, raisedInCheck.endings 13 = [(.host 1, .done (.checked v))] ∧ v.hasErrors = true ∧
      v.diagnostics.map (·.source) = ["first"]) ∧
    raisedInCheck.Isolates 8 (.host 1) "d" {} := by
  refine ⟨⟨_, rfl, rfl, rfl⟩,
    (check_isolated_iff raisedInCheck 8 (.host 1) "d" {} rfl (kept_of_list rfl)).2 ?_⟩
  have hactive : (raisedInCheck.registry 8).activePlugins =
      [linter 0 "first" supportAll, linter 1 "second" supportAll] := rfl
  rw [hactive]
  intro p hp text
  rcases List.mem_pair.1 hp with rfl | rfl <;> exact nofun

/-- The first linter raises when it is asked whether it handles the document. -/
def raisedInSupports : Schedule :=
  ofMoves (checkOfTwo fun _ => .error "expected str, bytes or os.PathLike object, not int")

/-- The second linter is never asked. -/
theorem exists_check_raised :
    ¬ ∀ (s : Schedule) (t₀ : Nat) (key : CallKey) (document : String) (options : CallOptions),
      s.event? t₀ = some (.call key (.check document options)) →
      (∀ t e, s.event? t = some e → e.callsOff key = false) →
      s.Isolates t₀ key document options := by
  intro h
  have hisolates := h raisedInSupports 8 (.host 1) "d" {} rfl (kept_of_list rfl)
  have hended : raisedInSupports.endings 8 = [(.host 1, .raised (.support
      "expected str, bytes or os.PathLike object, not int"))] := rfl
  obtain ⟨v, heq, -⟩ := hisolates.ends 8 _ (Nat.le_refl 8) (hended ▸ List.mem_singleton_self _)
  cases heq

end Schedule

end Shellwright.Registry
