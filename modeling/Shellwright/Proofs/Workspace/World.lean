import Shellwright.Proofs.Workspace.Orders
/-!
# Workspaces at work

A workspace among its host and its plugins. Documents are opened, edited, formatted and closed, runs
begin and end and settings are applied in any order; what the registry has asked for happens in any order
as well. Plugins change by the orders of the workspace only, one order after another.
-/

namespace Shellwright.Workspace

/-- The key under which a call is made with an event. -/
def Event.key? : Event → Option CallKey
  | .call n _ => some (.host n)
  | .review (.call n _) => some (.host n)
  | .review (.begin n) => some (.run n)
  | _ => none

/-- The event comes from the host or from the review, and calls nothing off. -/
def Event.outer : Event → Bool
  | .call _ .shutdown => false
  | .review (.registry _) => false
  | .review (.abort _) => false
  | .abort _ => false
  | _ => true

structure World where
  workspace : Workspace
  /-- What the registry wants done later. -/
  due : List Registry.Event := []
  inquiries : List Registry.Inquiry := []
  /-- The keys of all calls so far. -/
  known : List CallKey := []

inductive Move
  | event (event : Event)
  /-- One of the things happens that are due in the registry. -/
  | next (n : Nat)
  | answer (n : Nat) (answer : Answer)

namespace World

/-- A call is made under a new number, and a run begins once. -/
def admits (w : World) (e : Event) : Bool :=
  e.outer && e.key?.all fun key => !w.known.contains key

/-- What a move is to the workspace. -/
def event? (w : World) : Move → Option Event
  | .event e => if w.admits e then some e else none
  | .next n => w.due[n]?.map fun e => .review (.registry e)
  | .answer n a => w.inquiries[n]?.map fun q => .review (.registry (.answered q.key q.part a))

/-- What a move takes away from the world. -/
def spend (w : World) : Move → World
  | .event e => { w with known := e.key?.toList ++ w.known }
  | .next n => { w with due := w.due.eraseIdx n }
  | .answer n _ => { w with inquiries := w.inquiries.eraseIdx n }

/-- The workspace takes its step, and what it wants done is added to the world. -/
def react (w : World) (e : Event) : World :=
  let workspace := w.workspace.step e
  { w with
    workspace := { workspace with outbox := [] }
    due := w.due ++ workspace.passed.filterMap Registry.Effect.event?
    inquiries := w.inquiries ++ workspace.passed.filterMap Registry.Effect.inquiry? }

/-- A move that is not possible changes nothing of the workspace. -/
def step (w : World) (m : Move) : World :=
  match w.event? m with
  | some e => (w.spend m).react e
  | none => w.spend m

/-- The world of the registry of the workspace. -/
def below (w : World) : Registry.World :=
  ⟨w.workspace.registry, w.workspace.reviewer.buffers, w.due, w.inquiries, w.known⟩

/-- What is ordered with a move. -/
def order? (w : World) (m : Move) : Option Order :=
  (w.event? m).bind w.workspace.order?

/-- Answers to the question of availability are such as may be given. -/
def Fair (may : Plugin → Bool → Prop) (w : World) (m : Move) : Prop :=
  ∀ n a q, m = .answer n a → w.inquiries[n]? = some q → q.question = .available →
    may q.plugin a.affirms

/-- The orders that are under way, the one first whose plugins are tried. -/
structure Serial (may : Plugin → Bool → Prop) (w : World) (os : List Order) : Prop where
  calm : w.workspace.Calm
  outbox : w.workspace.outbox = []
  line : w.below.Line may (os.map (·.replacement w.workspace.factories))
  pending : ∀ o ∈ os, (w.workspace.calls.get? o.number = some .starting ∨
    w.workspace.calls.get? o.number = some .rebuilding) ∧
      w.workspace.reviewer.calls.get? o.number = none
  fresh : ∀ n, .host n ∉ w.known → w.workspace.calls.get? n = none ∧
    w.workspace.reviewer.calls.get? n = none
  closing : ∀ n, w.workspace.calls.get? n ≠ some .closing

/-- What a move makes of the orders: they stay, or the first of them takes effect. -/
inductive Advances (may : Plugin → Bool → Prop) (w : World) (os : List Order) (w' : World) : Prop
  | stays (serial : w'.Serial may os)
      (plugins : w'.workspace.registry.plugins = w.workspace.registry.plugins)
      (active : w'.workspace.registry.active = w.workspace.registry.active)
  | replaced (o : Order) (rest : List Order) (first : os = o :: rest) (serial : w'.Serial may rest)
      (plugins : w'.workspace.registry.plugins = (o.replacement w.workspace.factories).fresh)
      (active : ∀ available : Plugin → Bool, (∀ p ok, may p ok → ok = available p) →
        w'.workspace.registry.active = (o.replacement w.workspace.factories).passing available)

variable {may : Plugin → Bool → Prop} {w w' : World} {e : Event} {m : Move} {os : List Order}
  {o : Order} {n : Nat}

/-! ## What the registry is told -/

theorem key?_of_number (h : e.number? = some n) : e.key? = some (.host n) := by
  cases e with
  | call k request =>
      cases h
      rfl
  | review event =>
      cases event with
      | call k request =>
          cases h
          rfl
      | _ => cases h
  | _ => cases h

/-- An event that is not the registry's own comes to it as a call. -/
theorem conveyed_call {v : Workspace} {event : Registry.Event} (outer : e.outer = true)
    (told : v.conveyed e = some event) :
    (∃ key request, event = .call key request ∧ e.key? = some key) ∧ event.tame = true ∧
      event.replacement? = (v.order? e).map (·.replacement v.factories) := by
  cases horder : v.order? e with
  | some o =>
      rw [conveyed_of_order horder] at told
      cases told
      refine ⟨⟨_, _, rfl, ?_⟩, rfl, rfl⟩
      exact key?_of_number (number?_of_order horder)
  | none =>
      have hreview (event' : Review.Event) (key : Option CallKey)
          (hkey : key = (Event.review event').key?) (houter : (Event.review event').outer = true)
          (h : v.reviewer.conveyed event' = some event) :
          (∃ k request, event = .call k request ∧ key = some k) ∧ event.tame = true ∧
            event.replacement? = none := by
        unfold Reviewer.conveyed at h
        split at h
        · cases houter
        · cases h
          exact ⟨⟨_, _, rfl, hkey⟩, rfl, rfl⟩
        · obtain ⟨_, ⟨⟩⟩ := Option.ite_none_right_eq_some.1 h
          exact ⟨⟨_, _, rfl, hkey⟩, rfl, rfl⟩
        · split at h
          · obtain ⟨_, ⟨⟩⟩ := Option.ite_none_left_eq_some.1 h
            exact ⟨⟨_, _, rfl, hkey⟩, rfl, rfl⟩
          · cases h
        · cases h
      simp only [conveyed, horder] at told
      split at told
      · exact hreview _ _ rfl outer told
      · exact hreview _ _ rfl rfl told
      · exact hreview _ _ rfl rfl told
      · cases told

theorem tame_of_outer (h : e.outer = true) : e.tame = true := by
  cases e with
  | call n request => cases request <;> first | rfl | cases h
  | review event => cases event <;> first | rfl | cases h
  | abort n => cases h
  | _ => rfl

theorem tame_of_event (event : w.event? m = some e) : e.tame = true := by
  cases m with
  | event e' =>
      obtain ⟨hadmits, ⟨⟩⟩ := Option.ite_none_right_eq_some.1 event
      exact tame_of_outer (Bool.and_eq_true_iff.1 hadmits).1
  | next n =>
      obtain ⟨e', _, rfl⟩ := Option.map_eq_some_iff.1 event
      rfl
  | answer n a =>
      obtain ⟨q, _, rfl⟩ := Option.map_eq_some_iff.1 event
      rfl

theorem spend_workspace (w : World) (m : Move) : (w.spend m).workspace = w.workspace := by
  cases m <;> rfl

/-- A call with an event comes under a new key. -/
theorem not_known_of_event (event : w.event? m = some e) {key : CallKey}
    (hkey : e.key? = some key) : key ∉ w.known ∧ key ∈ (w.spend m).known := by
  cases m with
  | event e' =>
      obtain ⟨hadmits, ⟨⟩⟩ := Option.ite_none_right_eq_some.1 event
      have hnew := (Bool.and_eq_true_iff.1 hadmits).2
      rw [hkey] at hnew
      refine ⟨by simpa using hnew, ?_⟩
      change key ∈ e.key?.toList ++ w.known
      rw [hkey]
      exact List.mem_cons_self
  | next n =>
      obtain ⟨e', _, rfl⟩ := Option.map_eq_some_iff.1 event
      cases hkey
  | answer n a =>
      obtain ⟨q, _, rfl⟩ := Option.map_eq_some_iff.1 event
      cases hkey

theorem known_spend {key : CallKey} (h : key ∈ w.known) : key ∈ (w.spend m).known := by
  cases m with
  | event e => exact List.mem_append_right _ h
  | _ => exact h

/-! ## One move -/

theorem Serial.less (h : w.Serial may os) (m : Move) : (w.spend m).Serial may os := by
  refine ⟨?_, ?_, ?_, ?_, ?_, ?_⟩
  · rw [spend_workspace]
    exact h.calm
  · rw [spend_workspace]
    exact h.outbox
  · cases m with
    | event e => exact h.line.less rfl (.refl _) (.refl _) fun k hk => List.mem_append_right _ hk
    | next n => exact h.line.less rfl (List.eraseIdx_sublist _ _) (.refl _) fun _ hk => hk
    | answer n a => exact h.line.less rfl (.refl _) (List.eraseIdx_sublist _ _) fun _ hk => hk
  · rw [spend_workspace]
    exact h.pending
  · rw [spend_workspace]
    exact fun n hn => h.fresh n fun hknown => hn (known_spend hknown)
  · rw [spend_workspace]
    exact h.closing

theorem Serial.line_spend (h : w.Serial may os) (m : Move) :
    (w.spend m).below.Line may (os.map (·.replacement w.workspace.factories)) := by
  have hline := (h.less m).line
  rwa [spend_workspace] at hline

/-- A move of the registry's own world that is the same to the registry. -/
theorem Serial.advances_told (h : w.Serial may os) {event : Registry.Event}
    (told : w.workspace.conveyed e = some event) (m' : Registry.Move)
    (move : w.below.event? m' = some event) (spent : w.below.spend m' = (w.spend m).below)
    (fair : w.below.Fair may m') (tame : event.tame = true)
    (ordered : event.replacement? =
      (w.workspace.order? e).map (·.replacement w.workspace.factories)) :
    Registry.World.Advances may (w.spend m).below
      ((os ++ (w.workspace.order? e).toList).map (·.replacement w.workspace.factories))
      (w.workspace.reached e) := by
  have hdue := h.line.due fair move
  rw [spent] at hdue
  have hadvances := (h.line_spend m).advances hdue tame
  have horders : os.map (·.replacement w.workspace.factories) ++ event.replacement?.toList =
      (os ++ (w.workspace.order? e).toList).map (·.replacement w.workspace.factories) := by
    rw [ordered, List.map_append]
    cases w.workspace.order? e <;> rfl
  have hreached : w.workspace.reached e =
      Registry.step (w.spend m).below.buffers (w.spend m).below.registry event := by
    unfold reached below
    rw [told, spend_workspace]
  rw [hreached, ← horders]
  exact hadvances

theorem tame_of_isDue {event : Registry.Event} (h : event.IsDue) :
    event.tame = true ∧ event.replacement? = none := by
  cases event with
  | granted key => exact ⟨rfl, rfl⟩
  | begin key i => exact ⟨rfl, rfl⟩
  | gathered key => exact ⟨rfl, rfl⟩
  | _ => cases h

/-- What the move is to the line of replacements below. -/
theorem Serial.advances_below (h : w.Serial may os) (fair : w.Fair may m)
    (event : w.event? m = some e) :
    Registry.World.Advances may (w.spend m).below
      ((os ++ (w.workspace.order? e).toList).map (·.replacement w.workspace.factories))
      (w.workspace.reached e) := by
  cases m with
  | next n =>
      obtain ⟨event', hdue, rfl⟩ := Option.map_eq_some_iff.1 event
      obtain ⟨htame, hnone⟩ :=
        tame_of_isDue (h.line.orderly.due event' (List.mem_of_getElem? hdue)).1
      have hfair : w.below.Fair may (.next n) := by
        rintro _ _ _ ⟨⟩
      refine h.advances_told rfl (.next n) hdue rfl hfair htame ?_
      rw [hnone]
      rfl
  | answer n a =>
      obtain ⟨q, hq, rfl⟩ := Option.map_eq_some_iff.1 event
      have hmove : w.below.event? (.answer n a) = some (.answered q.key q.part a) :=
        Option.map_eq_some_iff.2 ⟨q, hq, rfl⟩
      have hfair : w.below.Fair may (.answer n a) := by
        rintro _ _ q' ⟨⟩ hq' hquestion
        exact fair n a q' rfl hq' hquestion
      exact h.advances_told rfl (.answer n a) hmove rfl hfair rfl rfl
  | event e' =>
      obtain ⟨hadmits, ⟨⟩⟩ := Option.ite_none_right_eq_some.1 event
      have houter := (Bool.and_eq_true_iff.1 hadmits).1
      cases htold : w.workspace.conveyed e with
      | some event' =>
          obtain ⟨⟨key, request, rfl, hkey⟩, htame, hordered⟩ := conveyed_call houter htold
          have hnew := (not_known_of_event event hkey).1
          have hfair : w.below.Fair may (.host (.call key request)) := by
            rintro _ _ _ ⟨⟩
          refine h.advances_told htold (.host (.call key request)) ?_ ?_ hfair htame hordered
          · exact if_pos (by simpa [Registry.World.admits, below] using hnew)
          · change _ = World.below { w with known := e.key?.toList ++ w.known }
            rw [hkey]
            rfl
      | none =>
          have hnone : w.workspace.order? e = none := by
            cases horder : w.workspace.order? e with
            | none => rfl
            | some o =>
                rw [conveyed_of_order horder] at htold
                cases htold
          have hreached : w.workspace.reached e = w.workspace.registry := by
            unfold reached
            rw [htold]
          rw [hreached, hnone, Option.toList_none, List.append_nil]
          have hline := h.line_spend (.event e)
          have hstart := Registry.Leaves.start h.calm.registry
          exact hline.idle hstart (hline.orderly.aside hstart rfl rfl hline.orderly.named)

/-- The end of a call in the registry is that of a call that was made before. -/
theorem Serial.ended_known (h : w.Serial may os) (event : w.event? m = some e)
    {outcome : Outcome Registry.Reply} (ended : (.host n, outcome) ∈ (w.workspace.reached e).finishes) :
    .host n ∈ (w.spend m).known := by
  unfold reached at ended
  cases htold : w.workspace.conveyed e with
  | none =>
      rw [htold] at ended
      simp only [(Registry.Leaves.start h.calm.registry).finishes] at ended
      cases ended
  | some event' =>
      rw [htold] at ended
      rcases (Registry.step_ends h.calm.registry _ ended).2 with hcall | ⟨request, rfl⟩
      · cases hget : w.workspace.registry.calls.get? (.host n) with
        | none => exact absurd hget hcall
        | some c => exact known_spend (h.line.orderly.fits (.host n) c hget).known
      · cases m with
        | next k =>
            obtain ⟨event', hdue, rfl⟩ := Option.map_eq_some_iff.1 event
            obtain rfl : event' = .call (.host n) request := Option.some.inj htold
            exact absurd (h.line.orderly.due _ (List.mem_of_getElem? hdue)).1 id
        | answer k a =>
            obtain ⟨q, _, rfl⟩ := Option.map_eq_some_iff.1 event
            exact absurd (Option.some.inj htold) nofun
        | event e' =>
            obtain ⟨hadmits, ⟨⟩⟩ := Option.ite_none_right_eq_some.1 event
            obtain ⟨⟨key, request', heq, hkey⟩, _⟩ :=
              conveyed_call (Bool.and_eq_true_iff.1 hadmits).1 htold
            cases heq
            exact (not_known_of_event event hkey).2

theorem Serial.known_of_mem (h : w.Serial may os) (mem : o ∈ os) : .host o.number ∈ w.known := by
  have hmem : o.replacement w.workspace.factories ∈ os.map (·.replacement w.workspace.factories) :=
    List.mem_map_of_mem mem
  obtain ⟨c, hcall, _⟩ := h.line.call_of_mem hmem
  exact (h.line.orderly.fits _ c hcall).known

/-- An order that is still under way after the move is not what the move is about. -/
theorem Serial.not_concerns (h : w.Serial may os) (event : w.event? m = some e)
    (mem : o ∈ os ++ (w.workspace.order? e).toList)
    (pending : ∀ outcome, (.host o.number, outcome) ∉ (w.workspace.reached e).finishes) :
    ¬w.workspace.Concerns e o.number := by
  rintro (hcall | ⟨hnumber, hnone⟩ | ⟨outcome, hended⟩)
  · refine hcall ?_
    rcases List.mem_append.1 mem with hold | hnew
    · exact (h.pending o hold).2
    · have hkey := key?_of_number (number?_of_order (Option.mem_toList.1 hnew))
      exact (h.fresh o.number (not_known_of_event event hkey).1).2
  · rw [hnone, Option.toList_none, List.append_nil] at mem
    exact (not_known_of_event event (key?_of_number hnumber)).1 (h.known_of_mem mem)
  · exact pending outcome hended

/-- The orders that are still under way after the move. -/
theorem Serial.after (h : w.Serial may os) (event : w.event? m = some e) {os' : List Order}
    (sub : ∀ o ∈ os', o ∈ os ++ (w.workspace.order? e).toList)
    (line : ((w.spend m).below.after (w.workspace.reached e)).Line may
      (os'.map (·.replacement w.workspace.factories)))
    (pending : ∀ o ∈ os', ∀ outcome,
      (.host o.number, outcome) ∉ (w.workspace.reached e).finishes) :
    ((w.spend m).react e).Serial may os' := by
  have hturns := step_turns h.calm h.closing (tame_of_event event)
  have hfactories : (w.workspace.step e).factories = w.workspace.factories := by
    rw [factories, hturns.loader]
    rfl
  rw [react, spend_workspace, hturns.laters h.outbox, hturns.asks h.outbox]
  refine ⟨⟨hturns.calm.reviewer, hturns.calm.registry⟩, rfl, ?_, ?_, ?_, hturns.closing⟩
  · change World.below { w.spend m with
      workspace := { w.workspace.step e with outbox := [] }, due := _, inquiries := _ } |>.Line may
        (os'.map (·.replacement (w.workspace.step e).factories))
    rw [hfactories]
    exact line.less hturns.registry (.refl _) (.refl _) fun _ hk => hk
  · intro o ho
    have hmem := sub o ho
    have hconcerns := h.not_concerns event hmem (pending o ho)
    rcases List.mem_append.1 hmem with hold | hnew
    · have hbefore := h.pending o hold
      have hcalls : (w.workspace.step e).calls.get? o.number =
          w.workspace.calls.get? o.number := by
        refine hturns.others o.number hconcerns fun o' ho' heq => ?_
        have hkey := key?_of_number (number?_of_order ho')
        rw [← heq] at hkey
        exact (not_known_of_event event hkey).1 (h.known_of_mem hold)
      refine ⟨?_, hturns.reviews o.number hconcerns hbefore.2⟩
      change (w.workspace.step e).calls.get? o.number = _ ∨
        (w.workspace.step e).calls.get? o.number = _
      rw [hcalls]
      exact hbefore.1
    · have horder := Option.mem_toList.1 hnew
      have hkey := key?_of_number (number?_of_order horder)
      have hfresh := h.fresh o.number (not_known_of_event event hkey).1
      exact ⟨hturns.ordered o horder hconcerns, hturns.reviews o.number hconcerns hfresh.2⟩
  · intro n hn
    have hbefore := h.fresh n fun hknown => hn (known_spend hknown)
    have hnumber : e.number? ≠ some n := fun hnumber =>
      hn (not_known_of_event event (key?_of_number hnumber)).2
    have hconcerns : ¬w.workspace.Concerns e n := by
      rintro (hcall | ⟨h', _⟩ | ⟨outcome, hended⟩)
      · exact hcall hbefore.2
      · exact hnumber h'
      · exact hn (h.ended_known event hended)
    refine ⟨?_, hturns.reviews n hconcerns hbefore.2⟩
    refine (hturns.others n hconcerns fun o ho heq => ?_).trans hbefore.1
    rw [heq] at hnumber
    exact hnumber (number?_of_order ho)

/-- What one move does to the orders. -/
theorem Serial.advances (h : w.Serial may os) (fair : w.Fair may m) :
    Advances may w (os ++ (w.order? m).toList) (w.step m) := by
  unfold World.order? World.step
  cases hevent : w.event? m with
  | none =>
      rw [Option.bind_none, Option.toList_none, List.append_nil]
      have hregistry : (w.spend m).workspace = w.workspace := spend_workspace w m
      exact .stays (h.less m) (by rw [hregistry]) (by rw [hregistry])
  | some e =>
      rw [Option.bind_some]
      simp only
      have hturns := step_turns h.calm h.closing (tame_of_event hevent)
      have hplugins : ((w.spend m).react e).workspace.registry.plugins =
          (w.workspace.reached e).plugins := by
        change ((w.spend m).workspace.step e).registry.plugins = _
        rw [spend_workspace, hturns.registry]
      have hactive : ((w.spend m).react e).workspace.registry.active =
          (w.workspace.reached e).active := by
        change ((w.spend m).workspace.step e).registry.active = _
        rw [spend_workspace, hturns.registry]
      have hbelow : (w.spend m).below.registry = w.workspace.registry :=
        congrArg Workspace.registry (spend_workspace w m)
      cases h.advances_below fair hevent with
      | stays line plugins active quiet =>
          rw [hbelow] at plugins active
          refine .stays (h.after hevent (fun _ ho => ho) line ?_) (hplugins.trans plugins)
            (hactive.trans active)
          intro o ho outcome hended
          refine quiet _ hended (List.mem_map.2 ⟨o.replacement w.workspace.factories, ?_, rfl⟩)
          exact List.mem_map_of_mem ho
      | replaced r rest first line apart plugins active count finishes =>
          obtain ⟨o, rest', hos, rfl, rfl⟩ := List.map_eq_cons_iff.1 first
          refine .replaced o rest' hos (h.after hevent ?_ line ?_) (hplugins.trans plugins) ?_
          · rw [hos]
            exact fun _ ho => List.mem_cons_of_mem _ ho
          · intro o' ho' outcome hended
            rw [finishes] at hended
            have hkey := congrArg Prod.fst (List.mem_singleton.1 hended)
            refine apart (List.mem_map.2 ⟨o'.replacement w.workspace.factories, ?_, hkey⟩)
            exact List.mem_map_of_mem ho'
          · exact fun available fixed => hactive.trans (active available fixed)

end World

end Shellwright.Workspace
