import Shellwright.Proofs.Registry.Seating
import Shellwright.Proofs.Workspace.World
import Shellwright.Proofs.Workspace.Workshop
/-!
# Workspaces in all that can happen to them

A workspace among its host, its plugins and its timers. The host may do anything at any time, with the
workspace, its review or its registry; it may call off what it has called, and what factories there are
may change. What the workspace has asked for happens in any order.
-/

namespace Shellwright

/-- The event comes from the host. -/
def Registry.Event.hosted : Registry.Event → Bool
  | .register _ => true
  | .unregister _ => true
  | .clear => true
  | .deactivate _ => true
  | .deactivateAll => true
  | .call (.host _) _ => true
  | .abort (.host _) => true
  | _ => false

/-- The event comes from the host. -/
def Review.Event.hosted : Review.Event → Bool
  | .registry e => e.hosted
  | .call .. => true
  | .change _ => true
  | .close _ => true
  | .update .. => true
  | .configure .. => true
  | .abort _ => true
  | _ => false

/-- The event is one of those that a review puts off. -/
def Review.Event.isChore : Review.Event → Bool
  | .member .. => true
  | .begin _ => true
  | .ended _ => true
  | .gathered _ => true
  | _ => false

/-- The call that has a part to be done. -/
def Review.Event.about? : Review.Event → Option Nat
  | .member n _ => some n
  | .gathered n => some n
  | _ => none

namespace Workspace

/-- The event comes from the host. -/
def Event.hosted : Event → Bool
  | .review e => e.hosted
  | _ => true

/-- The key under which a call is made with an event, of the registry as well. -/
def Event.calls? : Event → Option CallKey
  | .review (.registry (.call key _)) => some key
  | e => e.key?

/-- What the review is going to do by itself; it puts off nothing else. -/
def Effect.chore? : Effect → Option Review.Event
  | .later (.review (.member n i)) => some (.member n i)
  | .later (.review (.begin run)) => some (.begin run)
  | .later (.review (.ended run)) => some (.ended run)
  | .later (.review (.gathered n)) => some (.gathered n)
  | _ => none

def Effect.timer? : Effect → Option Nat
  | .timer number _ => some number
  | _ => none

/-- A workspace with all that is still to happen in it. -/
structure Site extends World where
  /-- What is to happen in the review. -/
  chores : List Review.Event := []
  /-- The timers that have been set and have not run out. -/
  timers : List Nat := []

namespace Site

inductive Move
  | host (event : Event)
  /-- What the loader supplies has changed. -/
  | load (loader : FactoryLoader)
  /-- One of the things happens that are due in the registry. -/
  | next (n : Nat)
  | answer (n : Nat) (answer : Answer)
  /-- A plugin stops without an answer. -/
  | stop (n : Nat)
  /-- One of the things happens that are due in the review. -/
  | chore (n : Nat)
  /-- A timer runs out. -/
  | ring (n : Nat)

/-- Nothing that is still to happen is about the call. -/
def unmentioned (s : Site) : CallKey → Bool
  | .host n => s.chores.all fun e => e.about? != some n
  | .run _ => true

/-- A call is made under a new number, and a run begins once. -/
def admits (s : Site) (e : Event) : Bool :=
  e.calls?.all fun key => !s.known.contains key && s.unmentioned key

/-- What a move is to the workspace. -/
def event? (s : Site) : Move → Option Event
  | .host e => if e.hosted && s.admits e then some e else none
  | .load _ => none
  | .next n => s.due[n]?.map fun e => .review (.registry e)
  | .answer n a => s.inquiries[n]?.map fun q => .review (.registry (.answered q.key q.part a))
  | .stop n => s.inquiries[n]?.map fun q => .review (.registry (.stopped q.key q.part))
  | .chore n => (s.chores[n]?.map Event.review).filter s.admits
  | .ring n => s.timers[n]?.map fun timer => .review (.elapsed timer)

/-- The world when a call is known that is made with the event. -/
def knowing (s : Site) (e : Option Event) : Site :=
  { s with known := (e.bind Event.calls?).toList ++ s.known }

/-- What a move takes away from the site. -/
def spend (s : Site) : Move → Site
  | .host e => s.knowing (some e)
  | .load loader => { s with workspace := { s.workspace with loader := loader } }
  | .next n => { s with due := s.due.eraseIdx n }
  | .answer n _ => { s with inquiries := s.inquiries.eraseIdx n }
  | .stop n => { s with inquiries := s.inquiries.eraseIdx n }
  | .chore n =>
    { s.knowing (s.event? (.chore n)) with chores := s.chores.eraseIdx n }
  | .ring n => { s with timers := s.timers.eraseIdx n }

/-- The workspace takes its step, and what it wants done is added to the site. -/
def react (s : Site) (e : Event) : Site :=
  { s with
    toWorld := s.toWorld.react e
    chores := s.chores ++ (s.workspace.step e).outbox.filterMap Effect.chore?
    timers := s.timers ++ (s.workspace.step e).outbox.filterMap Effect.timer? }

/-- A move that is not possible changes nothing of the workspace. -/
def step (s : Site) (m : Move) : Site :=
  match s.event? m with
  | some e => (s.spend m).react e
  | none => s.spend m

/-- The calls that end with a move, and how. -/
def replies (s : Site) (m : Move) : List (Nat × Outcome Reply) :=
  match s.event? m with
  | some e => (s.workspace.step e).outbox.filterMap Effect.reply?
  | none => []

end Site

/-- How a workspace begins, and all the moves that follow. -/
structure Chronicle where
  settings : Settings
  loader : FactoryLoader
  buffers : Buffers
  move : Nat → Site.Move

namespace Chronicle

/-- The site after the first `t` moves. -/
def site (c : Chronicle) : Nat → Site
  | 0 => { workspace := create c.settings c.loader c.buffers }
  | t + 1 => (c.site t).step (c.move t)

def workspace (c : Chronicle) (t : Nat) : Workspace :=
  (c.site t).workspace

def registry (c : Chronicle) (t : Nat) : Registry :=
  (c.workspace t).registry

def event? (c : Chronicle) (t : Nat) : Option Event :=
  (c.site t).event? (c.move t)

/-- The calls that end with move `t`, and how. -/
def replies (c : Chronicle) (t : Nat) : List (Nat × Outcome Reply) :=
  (c.site t).replies (c.move t)

end Chronicle

end Workspace

/-! ## The registry -/

namespace Registry.World

/-- What holds of every registry at work. -/
structure Regular (w : World) : Prop where
  orderly : w.Orderly
  seated : w.registry.Seated
  runs : ∀ k, ¬w.registry.Claims (.run k)

/-- The world is ready for the event; with a run nothing comes but a check. -/
structure Meets (w : World) (e : Event) : Prop where
  ready : w.Ready e
  checks : ∀ k request, e = .call (.run k) request → request.reads = true

variable {w w' : World} {e : Event}

theorem Regular.react (h : w.Regular) (meets : w.Meets e) : (w.react e).Regular where
  orderly := h.orderly.react meets.ready
  seated := by
    have hstep : (w.registry.step w.buffers e).Seated := by
      refine h.seated.step h.orderly.outbox w.buffers ?_ ?_
      · rintro key request rfl
        exact meets.ready.2.1
      · rintro key c rfl hcall
        exact meets.ready c hcall
    exact hstep.same rfl rfl
  runs k hclaims := by
    refine h.runs k (step_claims h.orderly.outbox w.buffers (meets.checks k) ?_)
    exact hclaims.of_calls rfl

theorem Regular.less (h : w.Regular) (registry : w'.registry = w.registry)
    (due : w'.due.Sublist w.due) (inquiries : w'.inquiries.Sublist w.inquiries)
    (known : ∀ k ∈ w.known, k ∈ w'.known) : w'.Regular :=
  ⟨h.orderly.less registry due inquiries known, by rw [registry]; exact h.seated,
    by rw [registry]; exact h.runs⟩

end Registry.World

namespace Reviewer

open Review

/-- The world of the registry, with what the review is about to pass on. -/
def around (r : Reviewer) (w : Registry.World) : Registry.World where
  registry := r.registry
  buffers := r.buffers
  due := w.due ++ r.passed.filterMap Registry.Effect.event?
  inquiries := w.inquiries ++ r.passed.filterMap Registry.Effect.inquiry?
  known := w.known

variable {r r' : Reviewer} {w : Registry.World} {own : Nat → Prop} {e : Event}

/-- The review is about to pass on what a step of its registry wants done. -/
theorem around_regular (h : (r.around w).Regular) {event : Registry.Event}
    (meets : (r.around w).Meets event)
    (registry : r'.registry = { r.registry.step r.buffers event with outbox := [] })
    (passed : r'.passed =
      r.passed ++ (r.registry.step r.buffers event).outbox.filter Registry.Effect.passes) :
    (r'.around w).Regular := by
  have hevents := Registry.filterMap_filter_passes (f := Registry.Effect.event?)
    (by intro effect hpasses; cases effect <;> first | rfl | cases hpasses)
    (r.registry.step r.buffers event).outbox
  have hinquiries := Registry.filterMap_filter_passes (f := Registry.Effect.inquiry?)
    (by intro effect hpasses; cases effect <;> first | rfl | cases hpasses)
    (r.registry.step r.buffers event).outbox
  refine (h.react meets).less registry ?_ ?_ fun _ hk => hk
  · change (w.due ++ r'.passed.filterMap Registry.Effect.event?).Sublist
      (w.due ++ r.passed.filterMap Registry.Effect.event? ++
        (r.registry.step r.buffers event).laters)
    rw [passed, List.filterMap_append, ← List.append_assoc, hevents]
    exact .refl _
  · change (w.inquiries ++ r'.passed.filterMap Registry.Effect.inquiry?).Sublist
      (w.inquiries ++ r.passed.filterMap Registry.Effect.inquiry? ++
        (r.registry.step r.buffers event).asks)
    rw [passed, List.filterMap_append, ← List.append_assoc, hinquiries]
    exact .refl _

theorem around_same (h : (r.around w).Regular) (registry : r'.registry = r.registry)
    (passed : r'.passed = r.passed) : (r'.around w).Regular := by
  refine h.less registry ?_ ?_ fun _ hk => hk
  · unfold around
    rw [passed]
  · unfold around
    rw [passed]

theorem tellRegistry_regular (h : (r.around w).Regular) (event : Registry.Event)
    (meets : (r.around w).Meets event) : ((r.tellRegistry event).around w).Regular := by
  have hleads : Leads (fun _ => True) _ _ r (r.tellRegistry event) :=
    tellRegistry_leads r event fun _ _ _ => trivial
  exact around_regular h meets hleads.registry hleads.passed

theorem foldl_abortRun_regular (h : (r.around w).Regular) (runs : List Nat) :
    ((runs.foldl abortRun r).around w).Regular := by
  induction runs generalizing r with
  | nil => exact h
  | cons k rest ih =>
      rw [List.foldl_cons]
      refine ih ?_
      unfold abortRun
      split
      · exact tellRegistry_regular h (.abort (.run k)) ⟨trivial, nofun⟩
      · exact around_same h rfl rfl

theorem abort_regular (h : (r.around w).Regular) (n : Nat) :
    ((r.step (.abort n)).around w).Regular := by
  change ((r.withCall n (r.abort n)).around w).Regular
  unfold withCall
  split
  · rename_i c _
    have hset : ((r.setCall n { c with aborting := true }).around w).Regular :=
      around_same h rfl rfl
    unfold abort
    simp only
    split
    · exact tellRegistry_regular hset (.abort (.host n)) ⟨trivial, nofun⟩
    · exact foldl_abortRun_regular hset _
  · exact h

theorem step_regular (h : (r.around w).Regular)
    (meets : ∀ event, r.conveyed e = some event → (r.around w).Meets event) :
    ((r.step e).around w).Regular := by
  have hcalm : r.registry.outbox = [] := h.orderly.outbox
  by_cases habort : ∃ n, e = .abort n
  · obtain ⟨n, rfl⟩ := habort
    exact abort_regular h n
  · have hleads := step_leads hcalm (e := e) fun n heq => habort ⟨n, heq⟩
    have hregistry := hleads.registry
    have hpassed := hleads.passed
    cases hconveyed : r.conveyed e with
    | some event =>
        simp only [reached, hconveyed] at hregistry hpassed
        exact around_regular h (meets event hconveyed) hregistry hpassed
    | none =>
        simp only [reached, hconveyed] at hregistry hpassed
        rw [hcalm, List.filter_nil, List.append_nil] at hpassed
        refine around_same h (hregistry.trans ?_) hpassed
        rw [← hcalm]

end Reviewer

namespace Workspace

open Review

/-- The world of the registry, with what the workspace is about to pass on. -/
def around (w : Workspace) (s : Registry.World) : Registry.World where
  registry := w.registry
  buffers := w.reviewer.buffers
  due := s.due ++ w.passed.filterMap Registry.Effect.event?
  inquiries := s.inquiries ++ w.passed.filterMap Registry.Effect.inquiry?
  known := s.known

variable {w w' : Workspace} {s : Registry.World} {e : Event} {n : Nat}

theorem around_same (h : (w.around s).Regular) (registry : w'.registry = w.registry)
    (passed : w'.passed = w.passed) : (w'.around s).Regular := by
  refine h.less registry ?_ ?_ fun _ hk => hk
  · unfold around
    rw [passed]
  · unfold around
    rw [passed]

theorem tell_regular (h : (w.around s).Regular) (calm : w.reviewer.outbox = []) {e : Review.Event}
    (meets : ∀ event, w.reviewer.conveyed e = some event → (w.around s).Meets event) :
    ((w.tell e).1.around s).Regular := by
  have hnone : w.reviewer.passed = [] := by rw [Reviewer.passed, calm]; rfl
  have haround : w.reviewer.around (w.around s) = w.around s := by
    unfold Reviewer.around
    rw [hnone]
    simp only [List.filterMap_nil, List.append_nil]
    rfl
  have hpassed : (w.tell e).1.passed = w.passed ++ (w.reviewer.step e).passed :=
    passed_foldl_absorb _ _
  have hstep : ((w.reviewer.step e).around (w.around s)).Regular := by
    refine Reviewer.step_regular ?_ ?_
    · rw [haround]
      exact h
    · rw [haround]
      exact meets
  obtain ⟨out, hout⟩ := tell_eq w e
  refine hstep.less ?_ ?_ ?_ fun _ hk => hk
  · rw [hout]
    rfl
  · change (s.due ++ (w.tell e).1.passed.filterMap Registry.Effect.event?).Sublist
      (s.due ++ w.passed.filterMap Registry.Effect.event? ++
        (w.reviewer.step e).passed.filterMap Registry.Effect.event?)
    rw [hpassed, List.filterMap_append, ← List.append_assoc]
  · change (s.inquiries ++ (w.tell e).1.passed.filterMap Registry.Effect.inquiry?).Sublist
      (s.inquiries ++ w.passed.filterMap Registry.Effect.inquiry? ++
        (w.reviewer.step e).passed.filterMap Registry.Effect.inquiry?)
    rw [hpassed, List.filterMap_append, ← List.append_assoc]

theorem conclude_regular (h : (w.around s).Regular) (calm : w.reviewer.outbox = [])
    (ending : Ending) : ((w.conclude ending).around s).Regular := by
  by_cases hclosing : w.calls.get? ending.number = some .closing
  · have hfinish (outcome : Outcome Reply) {w' : Workspace} (h' : (w'.around s).Regular) :
        ((w'.finish ending.number outcome).around s).Regular := by
      refine around_same h' rfl ?_
      exact (passed_emit _ _).trans (List.append_nil _)
    have hshut : (Workspace.around { w with
        reviewer := { w.reviewer with registry := w.registry.deactivateAll }, documents := [] }
        s).Regular := by
      have hreact := h.react (e := .deactivateAll) ⟨trivial, nofun⟩
      refine hreact.less ?_ ?_ ?_ fun _ hk => hk
      · have houtbox : w.registry.outbox = [] := h.orderly.outbox
        change w.registry.deactivateAll = { w.registry.deactivateAll with outbox := [] }
        unfold Registry.deactivateAll
        rw [← houtbox]
      · exact List.sublist_append_left _ _
      · exact List.sublist_append_left _ _
    unfold conclude
    cases ending with
    | review k outcome =>
        change w.calls.get? k = _ at hclosing
        simp only [hclosing]
        cases outcome with
        | done reply => exact hfinish _ hshut
        | raised trouble => exact hfinish _ h
        | aborted => exact hfinish _ h
    | registry k outcome =>
        change w.calls.get? k = _ at hclosing
        simp only [hclosing]
        cases outcome with
        | done reply => cases reply <;> exact hfinish _ h
        | raised trouble => exact hfinish _ h
        | aborted => exact hfinish _ h
  · have hleads : Leads (fun _ => True) _ _ w _ := conclude_leads calm ending trivial hclosing
    refine around_same h hleads.registry ?_
    rw [hleads.passed, List.filter_nil, List.append_nil]

theorem tellReview_regular (h : (w.around s).Regular) (calm : w.reviewer.outbox = [])
    {e : Review.Event}
    (meets : ∀ event, w.reviewer.conveyed e = some event → (w.around s).Meets event) :
    ((w.tellReview e).around s).Regular := by
  have hfold (endings : List Ending) (w : Workspace) (h : (w.around s).Regular)
      (calm : w.Calm) : ((endings.foldl conclude w).around s).Regular := by
    induction endings generalizing w with
    | nil => exact h
    | cons ending rest ih =>
        exact ih _ (conclude_regular h calm.reviewer ending) ((conclude_rests w ending).calm calm)
  refine hfold _ _ (tell_regular h calm meets) ?_
  exact (tell_tells (Reviewer.step_acts h.orderly.outbox e)).calm ⟨calm, h.orderly.outbox⟩

/-! ## Steps -/

theorem finish_regular (h : (w.around s).Regular) (n : Nat) (outcome : Outcome Reply) :
    ((w.finish n outcome).around s).Regular :=
  around_same h rfl ((passed_emit _ _).trans (List.append_nil _))

theorem rebuild_regular (h : (w.around s).Regular) (calm : w.reviewer.outbox = []) {stage : Stage}
    {names : Option (List String)}
    (ready : ∀ request, (w.around s).Ready (.call (.host n) request)) :
    ((w.rebuild n stage names).around s).Regular := by
  unfold rebuild
  split
  · exact finish_regular h n _
  · rename_i factories log _
    simp only
    obtain ⟨out, hout⟩ := foldl_emit_eq (log ++ (Plugin.build w.settings w.made factories).2.2) w
    have hpassed := passed_foldl_log (log ++ (Plugin.build w.settings w.made factories).2.2) w
    rw [hout] at hpassed ⊢
    generalize (Plugin.build w.settings w.made factories).2.1 = made
    generalize (Plugin.build w.settings w.made factories).1 = plugins
    have haround : Workspace.around ({ w with outbox := out, made := made }.setCall n stage) s =
        w.around s := by
      unfold around
      rw [← hpassed]
      rfl
    refine tellReview_regular ?_ ?_ ?_
    · rw [haround]
      exact h
    · exact calm
    · rintro event ⟨⟩
      rw [haround]
      exact ⟨ready _, nofun⟩

/-- An event reaches the review that is not for the registry, when the workspace has got ready for it. -/
theorem tellReview_quiet (h : (w.around s).Regular) (calm : w.reviewer.outbox = []) {e : Review.Event}
    (quiet : w.reviewer.conveyed e = none) (same : w'.reviewer = w.reviewer)
    (passed : w'.passed = w.passed) : ((w'.tellReview e).around s).Regular := by
  have haround : w'.around s = w.around s := by
    unfold around registry
    rw [passed, same]
  refine tellReview_regular ?_ ?_ ?_
  · rw [haround]
    exact h
  · rw [same]
    exact calm
  · intro event hconveyed
    rw [same, quiet] at hconveyed
    cases hconveyed

theorem apply_regular (h : (w.around s).Regular) (calm : w.reviewer.outbox = [])
    (settings : Settings) (documents : List String)
    (ready : ∀ request, (w.around s).Ready (.call (.host n) request)) :
    ((w.apply n settings documents).around s).Regular := by
  obtain ⟨open_, hopen⟩ := foldl_trackNew_eq documents w
  unfold apply
  simp only [hopen]
  have happlies := configure_applies (w := w) ⟨calm, h.orderly.outbox⟩ n settings documents open_
    (some (settings.diagnosis.debounce : Int)) (some (.milliseconds settings.diagnosis.timeout))
    settings.diagnosis.onChange
  generalize { w with documents := open_, settings := settings }.tellReview _ = w₀ at happlies ⊢
  have haround : w₀.around s = w.around s := by
    unfold around
    rw [happlies.registry, happlies.passed, happlies.buffers]
  rw [← haround] at h ready
  have hcalm : w₀.reviewer.outbox = [] := happlies.calm
  split
  · exact rebuild_regular h hcalm ready
  · have hquiet (w' : Workspace) (names : List String) (same : w'.reviewer = w₀.reviewer)
        (passed : w'.passed = w₀.passed) :
        ((w'.tellReview (.call n (.diagnoseAll names))).around s).Regular :=
      tellReview_quiet h hcalm rfl same passed
    exact hquiet _ _ rfl rfl

theorem call_regular (h : (w.around s).Regular) (calm : w.reviewer.outbox = []) (request : Request)
    (ready : ∀ request, (w.around s).Ready (.call (.host n) request)) :
    ((w.call n request).around s).Regular := by
  cases request with
  | start => exact rebuild_regular h calm ready
  | openDocument document =>
      change (((w.track document).tellReview (.call n (.diagnose document))).around s).Regular
      exact tellReview_quiet h calm rfl rfl rfl
  | saveDocument document =>
      change (((w.track document).tellReview (.call n (.diagnose document))).around s).Regular
      exact tellReview_quiet h calm rfl rfl rfl
  | format document token =>
      refine tellReview_regular h calm ?_
      rintro event ⟨⟩
      exact ⟨ready _, nofun⟩
  | fixAll document token editable =>
      refine tellReview_regular h calm fun event hconveyed => ?_
      simp only [Reviewer.conveyed] at hconveyed
      split at hconveyed
      · cases hconveyed
        exact ⟨ready _, nofun⟩
      · cases hconveyed
  | apply settings documents => exact apply_regular h calm settings documents ready
  | shutdown =>
      change (((w.setCall n .closing).tellReview (.call n .shutdown)).around s).Regular
      exact tellReview_quiet h calm rfl rfl rfl

theorem abort_regular (h : (w.around s).Regular) (calm : w.reviewer.outbox = []) (n : Nat) :
    ((w.abort n).around s).Regular := by
  unfold abort
  split
  · exact tellReview_quiet h calm (e := .abort n) rfl rfl rfl
  · refine tellReview_regular h calm ?_
    rintro event ⟨⟩
    exact ⟨trivial, fun k request heq => by cases heq⟩

theorem step_regular (h : (w.around s).Regular) (calm : w.reviewer.outbox = [])
    (ready : ∀ key, e.calls? = some key → ∀ request, (w.around s).Ready (.call key request))
    (told : ∀ event, e = .review (.registry event) → (w.around s).Meets event) :
    ((w.step e).around s).Regular := by
  cases e with
  | call n request => exact call_regular h calm request (ready _ rfl)
  | change document =>
      change (((w.track document).tellReview (.change document)).around s).Regular
      exact tellReview_quiet h calm rfl rfl rfl
  | close document =>
      change ((Workspace.tellReview { w with
        documents := w.documents.drop (w.reviewer.document document).uri } (.close document)).around
        s).Regular
      exact tellReview_quiet h calm rfl rfl rfl
  | abort n => exact abort_regular h calm n
  | review e =>
      refine tellReview_regular h calm fun event hconveyed => ?_
      cases e with
      | registry event' =>
          cases hconveyed
          exact told _ rfl
      | call n request =>
          cases request with
          | format document token =>
              cases hconveyed
              exact ⟨ready _ rfl _, nofun⟩
          | fixAll document token editable =>
              simp only [Reviewer.conveyed] at hconveyed
              split at hconveyed
              · cases hconveyed
                exact ⟨ready _ rfl _, nofun⟩
              · cases hconveyed
          | _ => cases hconveyed
      | begin k =>
          simp only [Reviewer.conveyed] at hconveyed
          split at hconveyed
          · split at hconveyed
            · cases hconveyed
            · cases hconveyed
              refine ⟨ready _ rfl _, ?_⟩
              rintro _ _ ⟨⟩
              rfl
          · cases hconveyed
      | _ => cases hconveyed

/-! ## Moves -/

theorem isChore_of_chore {effect : Effect} {e : Review.Event} (h : effect.chore? = some e) :
    e.isChore = true := by
  unfold Effect.chore? at h
  split at h <;> cases h <;> rfl

namespace Site

variable {s : Site} {m : Move} {e : Event}

/-- What holds of every site that the moves of a chronicle lead to. -/
structure Regular (s : Site) : Prop where
  reviewer : s.workspace.reviewer.outbox = []
  outbox : s.workspace.outbox = []
  below : s.below.Regular
  chores : ∀ e ∈ s.chores, e.isChore = true

theorem Regular.calm (h : s.Regular) : s.workspace.Calm :=
  ⟨h.reviewer, h.below.orderly.outbox⟩

theorem spend_reviewer (s : Site) (m : Move) :
    (s.spend m).workspace.reviewer = s.workspace.reviewer := by
  cases m <;> rfl

/-- The loader is all that can change of the workspace before it takes its step. -/
theorem spend_workspace (event : s.event? m = some e) : (s.spend m).workspace = s.workspace := by
  cases m with
  | load loader => cases event
  | _ => rfl

theorem known_spend {key : CallKey} (h : key ∈ s.known) : key ∈ (s.spend m).known := by
  cases m with
  | host e => exact List.mem_append_right _ h
  | chore n => exact List.mem_append_right _ h
  | _ => exact h

theorem Regular.spend (h : s.Regular) (m : Move) : (s.spend m).Regular := by
  have hknown : ∀ k ∈ s.below.known, k ∈ (s.spend m).below.known := fun _ hk => known_spend hk
  refine ⟨?_, ?_, ?_, ?_⟩
  · rw [spend_reviewer]
    exact h.reviewer
  · cases m <;> exact h.outbox
  · cases m with
    | host e => exact h.below.less rfl (.refl _) (.refl _) hknown
    | load loader => exact h.below.less rfl (.refl _) (.refl _) hknown
    | next n => exact h.below.less rfl (List.eraseIdx_sublist _ _) (.refl _) hknown
    | answer n a => exact h.below.less rfl (.refl _) (List.eraseIdx_sublist _ _) hknown
    | stop n => exact h.below.less rfl (.refl _) (List.eraseIdx_sublist _ _) hknown
    | chore n => exact h.below.less rfl (.refl _) (.refl _) hknown
    | ring n => exact h.below.less rfl (.refl _) (.refl _) hknown
  · intro e he
    cases m with
    | chore n => exact h.chores e ((List.eraseIdx_sublist _ _).subset he)
    | _ => exact h.chores e he

/-- A call with an event comes under a new key. -/
theorem admits_of_event (h : s.Regular) (event : s.event? m = some e) {key : CallKey}
    (calls : e.calls? = some key) :
    s.admits e = true ∧ (s.spend m).below = { s.below with known := key :: s.known } := by
  cases m with
  | host e' =>
      obtain ⟨hallowed, ⟨⟩⟩ := Option.ite_none_right_eq_some.1 event
      refine ⟨(Bool.and_eq_true_iff.1 hallowed).2, ?_⟩
      change World.below { s.toWorld with known := e.calls?.toList ++ s.known } = _
      rw [calls]
      rfl
  | load loader => cases event
  | next n =>
      obtain ⟨e', hdue, rfl⟩ := Option.map_eq_some_iff.1 event
      have hisDue := (h.below.orderly.due e' (List.mem_of_getElem? hdue)).1
      cases e' with
      | call key request => exact hisDue.elim
      | _ => cases calls
  | answer n a =>
      obtain ⟨q, _, rfl⟩ := Option.map_eq_some_iff.1 event
      cases calls
  | stop n =>
      obtain ⟨q, _, rfl⟩ := Option.map_eq_some_iff.1 event
      cases calls
  | chore n =>
      refine ⟨(Option.filter_eq_some_iff.1 event).2, ?_⟩
      change World.below
        { s.toWorld with known := ((s.event? (.chore n)).bind Event.calls?).toList ++ s.known } = _
      rw [event, Option.bind_some, calls]
      rfl
  | ring n =>
      obtain ⟨timer, _, rfl⟩ := Option.map_eq_some_iff.1 event
      cases calls

theorem new_of_admits {key : CallKey} (admitted : s.admits e = true) (calls : e.calls? = some key) :
    key ∉ s.known ∧ s.unmentioned key = true := by
  rw [admits, calls] at admitted
  simpa using admitted

theorem Regular.ready_call (h : s.Regular) (event : s.event? m = some e) {key : CallKey}
    (calls : e.calls? = some key) (request : Registry.Request) :
    (s.spend m).below.Ready (.call key request) := by
  obtain ⟨hadmitted, hbelow⟩ := admits_of_event h event calls
  have hnew := (new_of_admits hadmitted calls).1
  have hready := h.below.orderly.ready_host (e := .call key request)
    (by simpa [Registry.World.admits, World.below] using hnew)
  rw [hbelow]
  exact hready

theorem Regular.meets (h : s.Regular) {event : Registry.Event}
    (told : s.event? m = some (.review (.registry event))) : (s.spend m).below.Meets event := by
  cases m with
  | host e' =>
      obtain ⟨hallowed, heq⟩ := Option.ite_none_right_eq_some.1 told
      cases heq
      have hhosted : event.hosted = true := (Bool.and_eq_true_iff.1 hallowed).1
      cases event with
      | call key request =>
          cases key with
          | host n => exact ⟨h.ready_call told rfl request, nofun⟩
          | run k => cases hhosted
      | granted key => cases hhosted
      | begin key i => cases hhosted
      | answered key i a => cases hhosted
      | _ => exact ⟨trivial, nofun⟩
  | load loader => cases told
  | next n =>
      obtain ⟨e', hdue, heq⟩ := Option.map_eq_some_iff.1 told
      cases heq
      have hisDue := (h.below.orderly.due event (List.mem_of_getElem? hdue)).1
      refine ⟨h.below.orderly.ready_next hdue, ?_⟩
      rintro k request rfl
      exact hisDue.elim
  | answer n a =>
      obtain ⟨q, hq, heq⟩ := Option.map_eq_some_iff.1 told
      cases heq
      exact ⟨h.below.orderly.ready_answer a hq, nofun⟩
  | stop n =>
      obtain ⟨q, _, heq⟩ := Option.map_eq_some_iff.1 told
      cases heq
      exact ⟨trivial, nofun⟩
  | chore n =>
      obtain ⟨e', hchore, heq⟩ := Option.map_eq_some_iff.1 (Option.filter_eq_some_iff.1 told).1
      cases heq
      cases h.chores _ (List.mem_of_getElem? hchore)
  | ring n =>
      obtain ⟨timer, _, heq⟩ := Option.map_eq_some_iff.1 told
      cases heq

theorem Regular.step (h : s.Regular) (m : Move) : (s.step m).Regular := by
  unfold Site.step
  cases hevent : s.event? m with
  | none => exact h.spend m
  | some e =>
      have hspent := h.spend m
      have hnone : (s.spend m).workspace.passed = [] := by
        rw [passed, hspent.outbox]
        rfl
      have haround : (s.spend m).workspace.around (s.spend m).below = (s.spend m).below := by
        unfold around
        rw [hnone]
        simp only [List.filterMap_nil, List.append_nil]
        rfl
      have hstep : (((s.spend m).workspace.step e).around (s.spend m).below).Regular := by
        refine step_regular ?_ hspent.reviewer ?_ ?_
        · rw [haround]
          exact hspent.below
        · rw [haround]
          exact fun key hcalls request => h.ready_call hevent hcalls request
        · rw [haround]
          rintro event rfl
          exact h.meets hevent
      refine ⟨?_, rfl, hstep.less rfl (.refl _) (.refl _) fun _ hk => hk, ?_⟩
      · exact (step_acts hspent.calm e).calm.reviewer
      · intro chore hchore
        rcases List.mem_append.1 hchore with hold | hnew
        · exact hspent.chores chore hold
        · obtain ⟨effect, _, heffect⟩ := List.mem_filterMap.1 hnew
          exact isChore_of_chore heffect

end Site

namespace Chronicle

theorem regular (c : Chronicle) (t : Nat) : (c.site t).Regular := by
  induction t with
  | zero =>
      refine ⟨rfl, rfl, ⟨?_, ?_, ?_⟩, nofun⟩
      · exact Registry.World.orderly_start.less rfl (.refl _) (.refl _) fun _ hk => hk
      · exact Registry.Seated.start
      · exact fun k => Registry.not_claims_of_gone rfl
  | succ t ih => exact ih.step (c.move t)

end Chronicle

end Workspace

end Shellwright
