import Shellwright.Proofs.Registry.Claiming
import Shellwright.Proofs.Workspace.Reconfigured
/-!
# Calls that fail while they build plugins

New settings are in force before their plugins have been built, and stay so when the call fails. Until the
plugins are in place the call has changed nothing of the registry.
-/

namespace Shellwright

namespace Workspace

open Review

/-- The settings stay in force, and no call comes to wait for plugins. -/
structure Keeps (w w' : Workspace) : Prop where
  settings : w'.settings = w.settings
  rebuilding : ∀ n, w'.calls.get? n = some .rebuilding → w.calls.get? n = some .rebuilding

variable {w w' w'' : Workspace} {e : Event} {n : Nat} {stage : Stage}

theorem Keeps.refl (w : Workspace) : w.Keeps w := ⟨rfl, fun _ h => h⟩

theorem Keeps.trans (h : w.Keeps w') (h' : w'.Keeps w'') : w.Keeps w'' :=
  ⟨h'.settings.trans h.settings, fun n hcall => h.rebuilding n (h'.rebuilding n hcall)⟩

theorem Keeps.of_eq (settings : w'.settings = w.settings) (calls : w'.calls = w.calls) : w.Keeps w' :=
  ⟨settings, fun n hcall => by rwa [calls] at hcall⟩

theorem finish_keeps (w : Workspace) (n : Nat) (outcome : Outcome Reply) :
    w.Keeps (w.finish n outcome) := by
  refine ⟨rfl, fun m hcall => ?_⟩
  change (w.calls.drop n).get? m = _ at hcall
  rw [Keyed.get?_drop] at hcall
  split at hcall
  · cases hcall
  · exact hcall

theorem setCall_keeps (w : Workspace) (n : Nat) (stage : Stage) (other : stage ≠ .rebuilding) :
    w.Keeps (w.setCall n stage) := by
  refine ⟨rfl, fun m hcall => ?_⟩
  change (w.calls.put n stage).get? m = _ at hcall
  rw [Keyed.get?_put] at hcall
  split at hcall
  · exact absurd (Option.some.inj hcall) other
  · exact hcall

theorem tell_keeps (w : Workspace) (e : Review.Event) : w.Keeps (w.tell e).1 := by
  obtain ⟨out, hout⟩ := tell_eq w e
  rw [hout]
  exact .of_eq rfl rfl

theorem passOn_keeps (w : Workspace) (ending : Ending) : w.Keeps (w.passOn ending) := by
  cases ending <;> exact finish_keeps w _ _

theorem log_keeps (w : Workspace) (level : LogLevel) (text : String) : w.Keeps (w.log level text) :=
  .of_eq rfl rfl

/-- The plugins are in place, and the documents are going to be checked. -/
theorem rebuilt_keeps (w : Workspace) (n : Nat) (names : List String) :
    w.Keeps (if ((w.setCall n .diagnosing).tell (.call n (.diagnoseAll names))).2.isEmpty then
        ((w.setCall n .diagnosing).tell (.call n (.diagnoseAll names))).1
      else ((w.setCall n .diagnosing).tell (.call n (.diagnoseAll names))).1.finish n
        (.done .settled)) := by
  have htold : w.Keeps ((w.setCall n .diagnosing).tell (.call n (.diagnoseAll names))).1 :=
    (setCall_keeps w n .diagnosing (by decide)).trans (tell_keeps _ _)
  split
  · exact htold
  · exact htold.trans (finish_keeps _ _ _)

theorem closed_keeps (w : Workspace) : w.Keeps { w with
    reviewer := { w.reviewer with registry := w.registry.deactivateAll }, documents := [] } :=
  .of_eq rfl rfl

theorem conclude_keeps (w : Workspace) (ending : Ending) : w.Keeps (w.conclude ending) := by
  unfold conclude
  simp only
  split
  · exact (log_keeps w _ _).trans (finish_keeps _ _ _)
  · exact (log_keeps w _ _).trans (rebuilt_keeps _ _ _)
  · exact finish_keeps w _ _
  · exact (closed_keeps w).trans (finish_keeps _ _ _)
  · exact finish_keeps w _ _
  · exact finish_keeps w _ _
  · exact finish_keeps w _ _
  · exact passOn_keeps w _

theorem tellReview_keeps (w : Workspace) (e : Review.Event) : w.Keeps (w.tellReview e) := by
  have hfold (endings : List Ending) (w : Workspace) : w.Keeps (endings.foldl conclude w) := by
    induction endings generalizing w with
    | nil => exact .refl w
    | cons ending rest ih => exact (conclude_keeps w ending).trans (ih _)
  exact (tell_keeps w e).trans (hfold _ _)

theorem rebuild_keeps (w : Workspace) (n : Nat) (names : Option (List String))
    (other : stage ≠ .rebuilding) : w.Keeps (w.rebuild n stage names) := by
  unfold rebuild
  split
  · exact finish_keeps _ _ _
  · simp only
    rename_i factories log _
    obtain ⟨out, hout⟩ := foldl_emit_eq (log ++ (Plugin.build w.settings w.made factories).2.2) w
    have hbuilt : w.Keeps
        { w with outbox := out, made := (Plugin.build w.settings w.made factories).2.1 } :=
      .of_eq rfl rfl
    rw [hout]
    exact (hbuilt.trans (setCall_keeps _ n stage other)).trans (tellReview_keeps _ _)

/-- Only a call that applies settings puts others in force, and only it waits for plugins anew. -/
theorem step_keeps (other : ∀ n settings documents, e ≠ .call n (.apply settings documents)) :
    w.Keeps (w.step e) := by
  have htrack (document : String) : w.Keeps (w.track document) := .of_eq rfl rfl
  cases e with
  | review e => exact tellReview_keeps w e
  | change document => exact (htrack document).trans (tellReview_keeps _ _)
  | close document =>
      have hclosed : w.Keeps
          { w with documents := w.documents.drop (w.reviewer.document document).uri } :=
        .of_eq rfl rfl
      exact hclosed.trans (tellReview_keeps _ _)
  | abort n =>
      change w.Keeps (w.abort n)
      unfold abort
      split <;> exact tellReview_keeps w _
  | call n request =>
      cases request with
      | apply settings documents => exact absurd rfl (other n settings documents)
      | start => exact rebuild_keeps w n none (by decide)
      | openDocument document => exact (htrack document).trans (tellReview_keeps _ _)
      | saveDocument document => exact (htrack document).trans (tellReview_keeps _ _)
      | format document token => exact tellReview_keeps w _
      | fixAll document token editable => exact tellReview_keeps w _
      | shutdown => exact (setCall_keeps w n .closing (by decide)).trans (tellReview_keeps _ _)

/-- The replacement has been called off, so that the call ends that waits for it. -/
theorem withdrawn_proceeds (calls : w.calls = [(n, .rebuilding)]) (reviews : w.reviewer.calls = [])
    (calm : w.Calm) {e : Review.Event} (inner : e.inner = true)
    (ends : (w.reviewer.reached e).hostEnds = [.registry n .aborted]) :
    ∃ fresh, Proceeds [] [] [] [(n, .aborted)] fresh w (w.tellReview e) := by
  obtain ⟨fresh, -, hproceeds⟩ := Reviewer.step_proceeds reviews calm.registry inner
  rw [ends] at hproceeds
  obtain ⟨htold, hends⟩ := tell_proceeds calm.reviewer hproceeds
  have hcalls : (w.tell e).1.calls = [(n, .rebuilding)] := htold.calls.trans calls
  have hconclude : (w.tell e).1.conclude (.registry n .aborted) = (w.tell e).1.finish n .aborted := by
    unfold conclude
    simp [hcalls, Keyed.get?]
  have hdrop : (w.tell e).1.calls.drop n = [] := by simp [hcalls, Keyed.drop]
  have hfinish := finish_proceeds (w.tell e).1 n .aborted
  rw [hdrop, htold.reviews] at hfinish
  refine ⟨fresh, ?_⟩
  unfold tellReview
  simp only [hends, List.foldl_cons, List.foldl_nil, hconclude]
  exact htold.trans hfinish

theorem rebuild_settings (w : Workspace) (n : Nat) (stage : Stage) (names : Option (List String)) :
    (w.rebuild n stage names).settings = w.settings := by
  unfold rebuild
  split
  · rfl
  · simp only
    rename_i factories log _
    obtain ⟨out, hout⟩ := foldl_emit_eq (log ++ (Plugin.build w.settings w.made factories).2.2) w
    rw [hout]
    exact (tellReview_keeps _ _).settings

/-- Only settings that concern the plugins have the call wait for them. -/
theorem affects_of_rebuilding {settings : Settings} {documents : List String}
    (call : (w.apply n settings documents).calls.get? n = some .rebuilding) :
    w.settings.affectsPlugins settings = true := by
  have hold : (documents.foldl trackNew w).settings = w.settings := by
    obtain ⟨open_, hopen⟩ := foldl_trackNew_eq documents w
    rw [hopen]
  cases haffects : w.settings.affectsPlugins settings with
  | true => rfl
  | false =>
      unfold apply at call
      simp only [hold, haffects, Bool.false_eq_true, if_false] at call
      have hset := (tellReview_keeps _ _).rebuilding n call
      change (Keyed.put _ n Stage.diagnosing).get? n = _ at hset
      rw [Keyed.get?_put_self] at hset
      cases hset

/-- However the call goes on, its settings are in force at once. -/
theorem apply_settings (w : Workspace) (n : Nat) (settings : Settings) (documents : List String) :
    (w.apply n settings documents).settings = settings := by
  have hconfigured (w : Workspace) (e : Review.Event) (h : w.settings = settings) :
      (w.tellReview e).settings = settings :=
    (tellReview_keeps w e).settings.trans h
  unfold apply
  simp only
  split
  · exact (rebuild_settings _ _ _ _).trans (hconfigured _ _ rfl)
  · refine hconfigured _ _ ?_
    exact hconfigured _ _ rfl

namespace Site

/-- The move is none of the host's, unless it calls the call off. -/
def Move.Leaves (n : Nat) (m : Move) : Prop :=
  m.inner = true ∨ m = .host (.abort n)

/-- The move applies settings. -/
def Move.applies : Move → Bool
  | .host (.call _ (.apply ..)) => true
  | _ => false

/-- The call `n` waits for its plugins, and the host has called for nothing else. -/
structure Waits (n : Nat) (s : Site) : Prop where
  calls : s.workspace.calls = [(n, .rebuilding)]
  reviews : s.workspace.reviewer.calls = []
  others : ∀ m, m ≠ n → s.workspace.registry.calls.get? (.host m) = none
  replaces : ∀ c, s.workspace.registry.calls.get? (.host n) = some c → c.stage.replaces = true

/-- The same plugins are registered, and the same names are active. -/
structure Same (s s' : Site) : Prop where
  plugins : s'.workspace.registry.plugins = s.workspace.registry.plugins
  active : s'.workspace.registry.active = s.workspace.registry.active

variable {s s' s'' : Site} {m : Move}

theorem Same.refl (s : Site) : s.Same s := ⟨rfl, rfl⟩

theorem Same.trans (h : s.Same s') (h' : s'.Same s'') : s.Same s'' :=
  ⟨h'.plugins.trans h.plugins, h'.active.trans h.active⟩

/-- What a move is to the registry. -/
theorem follows_of_inner (h : s.Regular) (inner : m.inner = true) {e : Review.Event}
    (event : s.event? m = some (.review e)) {told : Registry.Event}
    (conveyed : s.workspace.reviewer.conveyed e = some told) : told.follows = true := by
  cases m with
  | host e' => cases inner
  | load loader => cases inner
  | next k =>
      obtain ⟨e', hdue, heq⟩ := Option.map_eq_some_iff.1 event
      cases heq
      cases conveyed
      have hisDue := (h.below.orderly.due told (List.mem_of_getElem? hdue)).1
      cases told <;> first | rfl | cases hisDue
  | answer k a =>
      obtain ⟨q, _, heq⟩ := Option.map_eq_some_iff.1 event
      cases heq
      cases conveyed
      rfl
  | stop k =>
      obtain ⟨q, _, heq⟩ := Option.map_eq_some_iff.1 event
      cases heq
      cases conveyed
      rfl
  | chore k =>
      obtain ⟨e', hchore, heq⟩ := Option.map_eq_some_iff.1 (Option.filter_eq_some_iff.1 event).1
      cases heq
      have hisChore := h.chores e (List.mem_of_getElem? hchore)
      obtain ⟨run, request, rfl, rfl, hreads⟩ := begin_of_conveyed hisChore conveyed
      exact hreads
  | ring k =>
      obtain ⟨timer, _, heq⟩ := Option.map_eq_some_iff.1 event
      cases heq
      cases conveyed

/-- While the host has called for one replacement at most, only that can change anything. -/
theorem reached_spares (h : s.Regular) {e : Review.Event}
    (told : ∀ event, s.workspace.reviewer.conveyed e = some event →
      event.follows = true ∨ event = .abort (.host n))
    (others : ∀ m, m ≠ n → s.workspace.registry.calls.get? (.host m) = none)
    (replaces : ∀ c, s.workspace.registry.calls.get? (.host n) = some c → c.stage.replaces = true) :
    Registry.Spares n s.workspace.registry (s.workspace.reviewer.reached e) := by
  unfold Reviewer.reached
  cases hconveyed : s.workspace.reviewer.conveyed e with
  | none =>
      refine .still rfl rfl (fun _ => rfl) fun m outcome hended => ?_
      change _ ∈ s.workspace.registry.finishes at hended
      rw [(Registry.Leaves.start h.calm.registry).finishes] at hended
      cases hended
  | some event =>
      exact Registry.step_spares h.calm.registry _ h.below.runs others replaces (told event hconveyed)

/-- A step of the review that the move leads to. -/
theorem review_of_leaves (h : s.Regular) (reviews : s.workspace.reviewer.calls = [])
    (leaves : m.Leaves n) (event : s.event? m = some e) :
    ∃ e', s.workspace.step e = s.workspace.tellReview e' ∧ e'.inner = true ∧
      ∀ told, s.workspace.reviewer.conveyed e' = some told →
        told.follows = true ∨ told = .abort (.host n) := by
  rcases leaves with hinner | rfl
  · obtain ⟨e', rfl, he'⟩ := inner_of_event h hinner event
    exact ⟨e', rfl, he', fun told htold => .inl (follows_of_inner h hinner event htold)⟩
  · unfold event? at event
    obtain ⟨_, ⟨⟩⟩ := Option.ite_none_right_eq_some.1 event
    refine ⟨.registry (.abort (.host n)), ?_, rfl, ?_⟩
    · change s.workspace.abort n = _
      unfold abort
      rw [reviews]
      rfl
    · rintro told ⟨⟩
      exact .inr rfl

/-- The registry after such a move. -/
theorem registry_of_review (h : s.Regular) (running : ∀ k, s.workspace.calls.get? k ≠ some .closing)
    (event : s.event? m = some e) {e' : Review.Event}
    (step : s.workspace.step e = s.workspace.tellReview e') (inner : e'.inner = true) :
    (s.step m).workspace.registry = { s.workspace.reviewer.reached e' with outbox := [] } := by
  have hturns : Workspace.Turns s.workspace (.review e') (s.workspace.step (.review e')) :=
    step_turns h.calm running (by cases e' <;> first | rfl | cases inner)
  rw [step_workspace event, step]
  exact hturns.registry

/-- What has become of a call that builds plugins: it waits for them, it has failed, or it has got past
them. -/
inductive Fate (n : Nat) (s : Site) (m : Move) : Prop
  | waits (waits : (s.step m).Waits n) (same : s.Same (s.step m)) (replies : s.replies m = [])
  | fails (idle : (s.step m).Idle) (same : s.Same (s.step m))
  | passes (past : (s.step m).workspace.calls.get? n ≠ some .rebuilding)
      (returns : ∀ outcome, (n, outcome) ∈ s.replies m → outcome = .done .settled)

theorem fate_of_sweeps (event : s.event? m = some e) (calm : w.outbox = []) {targets : List String}
    (sweeps : Sweeps n targets w (s.workspace.step e)) : Fate n s m := by
  cases sweeps with
  | nothing none proceeds =>
      have hgoes := goes_of_proceeds (n := n) event calm proceeds
      refine .passes ?_ fun outcome hended => ?_
      · rw [hgoes.calls]
        nofun
      · rw [hgoes.replies] at hended
        exact congrArg Prod.snd (List.mem_singleton.1 hended)
  | waits some proceeds =>
      have hgoes := goes_of_proceeds (n := n) event calm proceeds
      refine .passes ?_ fun outcome hended => ?_
      · rw [hgoes.calls]
        simp [Keyed.get?]
      · rw [hgoes.replies] at hended
        cases hended

/-- A call that waits has changed nothing. -/
theorem Fate.waits_of_rebuilding (h : Fate n s m)
    (call : (s.step m).workspace.calls.get? n = some .rebuilding) :
    (s.step m).Waits n ∧ s.Same (s.step m) := by
  cases h with
  | waits waits same => exact ⟨waits, same⟩
  | fails idle =>
      rw [idle.calls] at call
      cases call
  | passes past => exact absurd call past

/-- A call that has failed has changed nothing. -/
theorem Fate.fails_of_reply (h : Fate n s m) {outcome : Outcome Reply}
    (ended : (n, outcome) ∈ s.replies m) (failed : outcome ≠ .done .settled) :
    (s.step m).Idle ∧ s.Same (s.step m) := by
  cases h with
  | waits waits same replies =>
      rw [replies] at ended
      cases ended
  | fails idle same => exact ⟨idle, same⟩
  | passes past returns => exact absurd (returns outcome ended) failed

theorem spend_leaves (leaves : m.Leaves n) : (s.spend m).workspace = s.workspace := by
  rcases leaves with hinner | rfl
  · exact spend_inner hinner s
  · rfl

/-- Nothing comes of what is left over once no call is under way. -/
theorem Idle.leaves (idle : s.Idle) (h : s.Regular) (leaves : m.Leaves n) :
    (s.step m).Idle ∧ s.Same (s.step m) := by
  cases event : s.event? m with
  | none =>
      have hworkspace : (s.step m).workspace = s.workspace := by
        rw [Site.step, event]
        exact spend_leaves leaves
      refine ⟨⟨?_, ?_, ?_⟩, ?_, ?_⟩ <;> rw [hworkspace]
      · exact idle.calls
      · exact idle.reviews
      · exact idle.hosts
  | some e =>
      obtain ⟨e', hstep, hinner, htold⟩ := review_of_leaves h idle.reviews leaves event
      have hregistry := registry_of_review h (not_closing_of_nil idle.calls) event hstep hinner
      have hreplaces (c : Registry.Call) (hcall : s.workspace.registry.calls.get? (.host n) = some c) :
          c.stage.replaces = true := by
        rw [idle.hosts n] at hcall
        cases hcall
      cases reached_spares h htold (fun k _ => idle.hosts k) hreplaces with
      | moves call => exact absurd (idle.hosts n) call
      | still plugins active hosts ends =>
          obtain ⟨_, -, hgoes⟩ := quiet_goes (n := n) h idle.reviews event hstep hinner (hostEnds_eq_nil ends)
          refine ⟨⟨hgoes.calls.trans idle.calls, hgoes.reviews, fun k => ?_⟩, ?_, ?_⟩
          · rw [hregistry]
            exact (hosts k).trans (idle.hosts k)
          · rw [hregistry]
            exact plugins
          · rw [hregistry]
            exact active

/-- What a move makes of a call that waits for its plugins. -/
theorem Waits.leaves (waits : s.Waits n) (h : s.Regular) (leaves : m.Leaves n) : Fate n s m := by
  cases event : s.event? m with
  | none =>
      have hworkspace : (s.step m).workspace = s.workspace := by
        rw [Site.step, event]
        exact spend_leaves leaves
      refine .waits ⟨?_, ?_, ?_, ?_⟩ ⟨?_, ?_⟩ ?_
      · rw [hworkspace]
        exact waits.calls
      · rw [hworkspace]
        exact waits.reviews
      · rw [hworkspace]
        exact waits.others
      · rw [hworkspace]
        exact waits.replaces
      · rw [hworkspace]
      · rw [hworkspace]
      · unfold Site.replies
        rw [event]
  | some e =>
      obtain ⟨e', hstep, hinner, htold⟩ := review_of_leaves h waits.reviews leaves event
      have hregistry := registry_of_review h (not_closing waits.calls (by decide)) event hstep hinner
      have hcall (key : CallKey) : (s.step m).workspace.registry.calls.get? key =
          (s.workspace.reviewer.reached e').calls.get? key := by rw [hregistry]
      have hsame (plugins : (s.workspace.reviewer.reached e').plugins = s.workspace.registry.plugins)
          (active : (s.workspace.reviewer.reached e').active = s.workspace.registry.active) :
          s.Same (s.step m) := by
        refine ⟨?_, ?_⟩
        · rw [hregistry]
          exact plugins
        · rw [hregistry]
          exact active
      cases reached_spares h htold waits.others waits.replaces with
      | still plugins active hosts ends =>
          obtain ⟨_, -, hgoes⟩ := quiet_goes (n := n) h waits.reviews event hstep hinner (hostEnds_eq_nil ends)
          refine .waits ⟨hgoes.calls.trans waits.calls, hgoes.reviews, fun k hk => ?_, fun c hc => ?_⟩
            (hsame plugins active) hgoes.replies
          · rw [hcall, hosts]
            exact waits.others k hk
          · rw [hcall, hosts] at hc
            exact waits.replaces c hc
      | moves call replaces others =>
          cases replaces with
          | goes c call replaces plugins active finishes =>
              have hquiet : (s.workspace.reviewer.reached e').hostEnds = [] := by
                rw [Registry.hostEnds, finishes]
                rfl
              obtain ⟨_, -, hgoes⟩ := quiet_goes (n := n) h waits.reviews event hstep hinner hquiet
              refine .waits ⟨hgoes.calls.trans waits.calls, hgoes.reviews, fun k hk => ?_, fun c' hc => ?_⟩
                (hsame plugins active) hgoes.replies
              · rw [hcall, others k hk]
                exact waits.others k hk
              · rw [hcall, call] at hc
                cases hc
                exact replaces
          | completes count finishes =>
              have hends : (s.workspace.reviewer.reached e').hostEnds =
                  [.registry n (.done (.count count))] := by
                rw [Registry.hostEnds, finishes]
                rfl
              have hsweeps := rebuilt_sweeps waits.calls waits.reviews h.calm hinner hends
              rw [← hstep] at hsweeps
              exact fate_of_sweeps event h.outbox hsweeps
          | withdrawn gone plugins active finishes =>
              have hends : (s.workspace.reviewer.reached e').hostEnds = [.registry n .aborted] := by
                rw [Registry.hostEnds, finishes]
                rfl
              obtain ⟨_, hproceeds⟩ := withdrawn_proceeds waits.calls waits.reviews h.calm hinner hends
              rw [← hstep] at hproceeds
              have hgoes := goes_of_proceeds (n := n) event h.outbox hproceeds
              refine .fails ⟨hgoes.calls, hgoes.reviews, fun k => ?_⟩ (hsame plugins active)
              rw [hcall]
              by_cases hk : k = n
              · subst hk
                exact gone
              · exact (others k hk).trans (waits.others k hk)

/-- How the call begins when no other is under way. -/
theorem Idle.fate (idle : s.Idle) (h : s.Regular) {settings : Settings} {documents : List String}
    (event : s.event? m = some (.call n (.apply settings documents)))
    (affects : s.workspace.settings.affectsPlugins settings = true) : Fate n s m := by
  obtain ⟨_, houtbox, _, _⟩ := prepare_same s.workspace settings documents
  have hcalm : (s.workspace.prepare settings documents).outbox = [] := houtbox.trans h.outbox
  have hturns := (idle.lined h fun _ _ => True).apply h (not_closing_of_nil idle.calls) event
  cases apply_begins idle.calls idle.reviews h.calm n settings documents with
  | fails failure unordered proceeds =>
      rw [unordered] at hturns
      have hgoes := goes_of_proceeds (n := n) event hcalm proceeds
      cases hturns with
      | replaced o rest first => cases first
      | stays lined plugins active ends =>
          refine .fails ⟨hgoes.calls, hgoes.reviews, fun k => ?_⟩ ⟨plugins, active⟩
          by_contra hk
          cases lined.hosts k hk
  | keeps unaffected =>
      rw [affects] at unaffected
      cases unaffected
  | orders o order rebuilds sweeps =>
      rw [order] at hturns
      cases hturns with
      | replaced o' rest first lined plugins active count ends =>
          cases first
          obtain ⟨-, rfl⟩ := order?_apply order
          exact fate_of_sweeps event hcalm (sweeps count ends)
      | stays lined plugins active ends =>
          obtain ⟨-, rfl⟩ := order?_apply order
          have hgoes := goes_of_proceeds (n := n) event hcalm (rebuilds ends)
          refine .waits ⟨hgoes.calls, hgoes.reviews, fun k hk => ?_, fun c hc => ?_⟩ ⟨plugins, active⟩
            hgoes.replies
          · by_contra hcall
            have hmem := lined.hosts k hcall
            exact hk (CallKey.host.inj (List.mem_singleton.1 hmem))
          · rcases lined.line.front _ rfl with hwaits | ⟨probes, hasks⟩
            · cases hwaits.call.symm.trans hc
              rfl
            · cases hasks.call.symm.trans hc
              rfl

end Site

end Workspace

end Shellwright
