import Shellwright.Proofs.Review.Inspecting
import Shellwright.Proofs.Review.Scene
/-!
# What happens to an address

Every step of a review is one thing at most that happens to an address, and its scene afterwards is told
by that and the scene before.
-/

namespace Shellwright.Registry

/-- A step ends one call at most, and that is the one it is about. -/
theorem step_finishes_own {r : Registry} (h : r.outbox = []) (buffers : Buffers) (e : Event) :
    (r.step buffers e).finishes = [] ∨ ∃ key outcome, e.key? = some key ∧
      (r.step buffers e).finishes = [(key, outcome)] := by
  rcases step_finishes h buffers e with hnone | ⟨key, outcome, hone⟩
  · exact .inl hnone
  · refine .inr ⟨key, outcome, ?_, hone⟩
    by_contra hforeign
    refine (step_unconcerned h buffers hforeign).finishes outcome ?_
    rw [hone]
    exact List.mem_singleton_self _

end Shellwright.Registry

namespace Shellwright.Reviewer

open Review
open Registry (Check Turn Turned)

/-- How far the check of run `k` has come. -/
def check (r : Reviewer) (k : Nat) : Option Check :=
  (r.registry.calls.get? (.run k)).bind Registry.Call.check?

def scene (r : Reviewer) (uri : String) : Scene :=
  r.desk.scene uri r.check

/-- What a deed is to an address. -/
def deedAct? (r : Reviewer) (uri : String) : Deed → Option Act
  | .checks document =>
    if (r.document document).isShell ∧ (r.document document).uri = uri then some (.check document)
    else none
  | .edits document =>
    if (r.onChange ∧ (r.document document).isShell) ∧ (r.document document).uri = uri then
      some (.edit document (r.debounce.filter Execution.isMeasurable).isSome)
    else none
  | .elapses timer =>
    match r.pending? timer with
    | some (n, _) => if (r.sessions.at? n).any (·.uri == uri) then some .elapse else none
    | none => none
  | .closes document => if (r.document document).uri = uri then some .close else none
  | .shuts => some .shut
  | _ => none

/-- What it is to an address that these runs are called off. -/
def stopAct? (r : Reviewer) (uri : String) (runs : List Nat) : Option Act :=
  match runs.filter fun k => (r.run? uri k).isSome with
  | [] => none
  | own => some (.stop (own.map (r.desk.place uri)))

/-- What an event is to an address. -/
def act? (r : Reviewer) (uri : String) : Event → Option Act
  | .registry event =>
    match event.key? with
    | some (.run k) => (r.run? uri k).bind fun run =>
      (event.turn? (.run k)).map (.turn (r.desk.place uri k) (r.document run.document))
    | _ => r.deedAct? uri (r.heard event)
  | .begin k => (r.run? uri k).map fun run =>
    .begin (r.desk.place uri k) r.registry.activePlugins (r.document run.document)
  | .abort n => r.stopAct? uri (((r.calls.get? n).map (awaited ·.stage)).getD [])
  | e => r.deedAct? uri (r.deed e)

/-- What has held of a review since it began. -/
structure Ready (r : Reviewer) : Prop where
  sound : Sound r.desk
  flagged : Flagged r.desk
  calm : r.registry.outbox = []
  inspects : r.registry.Inspects r.docs

variable {r r' : Reviewer} {uri : String} {e : Event}

/-! ## Deeds -/

theorem deskAfter_dropped (r : Reviewer) (deed : Deed) :
    (r.deskAfter deed).dropped = r.desk.dropped := by
  cases deed with
  | checks document =>
      simp only [deskAfter]
      split
      · exact Desk.dropped_append r.desk { session := _, sequence := _, document := _ } rfl
      · rfl
  | edits document =>
      simp only [deskAfter]
      split <;> rfl
  | elapses timer =>
      simp only [deskAfter]
      split
      · exact Desk.dropped_append r.desk { session := _, sequence := _, document := _ } rfl
      · rfl
  | closes document => rfl
  | shuts => rfl
  | judges k outcome =>
      simp only [deskAfter, judged]
      split
      · split
        · split
          · split
            · exact Desk.dropped_modify r.desk k fun _ => rfl
            · rfl
          · rfl
        · rfl
      · rfl
  | rests => rfl

/-- No check of a run is under way that has not been dispatched. -/
theorem Ready.fresh (h : r.Ready) : r.check r.desk.runs.length = none := by
  unfold check
  cases hcall : r.registry.calls.get? (.run r.desk.runs.length) with
  | none => rfl
  | some c =>
      obtain ⟨_, _, hsuits⟩ := h.inspects _ c hcall
      obtain ⟨run, hrun, _⟩ := Option.map_eq_some_iff.1 hsuits.document
      exact absurd (List.getElem?_eq_some_iff.1 hrun).1 (Nat.lt_irrefl _)

theorem Ready.scene_foreign (h : r.Ready) {deed : Deed} (foreign : ¬ r.Regards uri deed)
    {check' : Nat → Option Check} (checks : ∀ k, r.run? uri k ≠ none → check' k = r.check k) :
    (r.deskAfter deed).scene uri check' = r.scene uri := by
  refine (deskAfter_spares h.sound h.flagged foreign).scene h.sound
    (fun entry _ => by rw [deskAfter_dropped]) fun entry hentry => checks _ ?_
  obtain ⟨run, s, hrun, _, hs, huri⟩ := Desk.runsOf_spec hentry
  rw [run?_eq_some.2 ⟨hrun, s, hs, huri⟩]
  exact Option.some_ne_none run

theorem deedAct?_foreign {deed : Deed} (foreign : ¬ r.Regards uri deed) :
    r.deedAct? uri deed = none := by
  cases deed with
  | checks document => exact if_neg fun hand => foreign hand.2
  | edits document => exact if_neg fun hand => foreign hand.2
  | elapses timer =>
      simp only [deedAct?]
      split
      · rename_i n debounce hpending
        refine if_neg fun hof => foreign ?_
        obtain ⟨s, hs, huri⟩ := (Option.any_eq_true _ _).1 hof
        exact ⟨n, debounce, s, hpending, hs, by simpa using huri⟩
      · rfl
  | closes document => exact if_neg foreign
  | shuts => exact absurd trivial foreign
  | judges k outcome => rfl
  | rests => rfl

/-- What the scene is after a deed that is no end of a check. -/
theorem Ready.scene_deed (h : r.Ready) {deed : Deed} (kept : ∀ k outcome, deed ≠ .judges k outcome) :
    (r.deskAfter deed).scene uri r.check = (r.scene uri).after (r.deedAct? uri deed) := by
  by_cases hregards : r.Regards uri deed
  · cases deed with
    | checks document =>
        obtain rfl : (r.document document).uri = uri := hregards
        simp only [deskAfter, deedAct?]
        cases hshell : (r.document document).isShell with
        | true =>
            rw [if_pos rfl, if_pos ⟨rfl, trivial⟩]
            exact h.sound.scene_diagnose _ h.fresh document
        | false =>
            rw [if_neg Bool.false_ne_true, if_neg (fun hand => Bool.false_ne_true hand.1)]
            rfl
    | edits document =>
        obtain rfl : (r.document document).uri = uri := hregards
        simp only [deskAfter, deedAct?]
        cases hedits : r.onChange && (r.document document).isShell with
        | true =>
            rw [if_pos rfl, if_pos ⟨by simpa using hedits, trivial⟩]
            refine (h.sound.scene_arm _ _ r.check).trans ?_
            cases r.debounce.filter Execution.isMeasurable <;> rfl
        | false =>
            rw [if_neg Bool.false_ne_true, if_neg]
            · rfl
            · rintro ⟨⟨hon, hshell⟩, _⟩
              rw [hon, hshell] at hedits
              cases hedits
    | elapses timer =>
        obtain ⟨n, debounce, s, hpending, hs, rfl⟩ := hregards
        obtain ⟨s', hs', hwaits, _⟩ := pending?_spec hpending
        obtain rfl := Option.some.inj (hs.symm.trans hs')
        obtain ⟨hget, _⟩ := h.sound.waits hs hwaits
        have hview : (r.scene s.uri).session = some _ := Desk.openView_of_get? hget hs
        simp only [deskAfter, deedAct?, hpending, hs, Option.any_some, beq_self_eq_true, if_true,
          Scene.after, Scene.act, hview, Option.bind_some, hwaits, Option.map_some]
        exact h.sound.scene_elapse hget hs h.fresh debounce.document
    | closes document =>
        obtain rfl : (r.document document).uri = uri := hregards
        simp only [deskAfter, deedAct?, if_true]
        exact h.sound.scene_close _ r.check
    | shuts => exact h.sound.scene_shut uri r.check
    | judges k outcome => exact absurd rfl (kept k outcome)
    | rests => exact hregards.elim
  · rw [deedAct?_foreign hregards]
    exact h.scene_foreign hregards fun _ _ => rfl

/-! ## Checks of runs -/

/-- What the registry ends is the call that the event is about. -/
theorem heard_ending (calm : r.registry.outbox = []) (event : Registry.Event) :
    r.heard event = .rests ∨
      ∃ key outcome, event.key? = some key ∧ r.heard event = r.ending (key, outcome) := by
  unfold heard
  rcases Registry.step_finishes_own calm r.buffers event with hnone | ⟨key, outcome, hkey, hone⟩
  · rw [hnone]
    exact .inl rfl
  · exact .inr ⟨key, outcome, hkey, by rw [hone]; rfl⟩

/-- The end of a call of the host is the end of no check. -/
theorem ending_host (r : Reviewer) (n : Nat) (outcome : Outcome Registry.Reply) :
    r.ending (.host n, outcome) = .rests ∨ ∃ document purpose,
      (r.calls.get? n).map Call.stage = some (.formatting document purpose) ∧
        r.ending (.host n, outcome) = .checks document := by
  unfold ending
  simp only
  split
  · rename_i document purpose verdict hstage
    split
    · exact .inr ⟨document, purpose, hstage, rfl⟩
    · exact .inl rfl
  · exact .inl rfl

theorem heard_judges (calm : r.registry.outbox = []) {event : Registry.Event} {k : Nat}
    {outcome : Outcome Registry.Reply} (h : r.heard event = .judges k outcome) :
    event.key? = some (.run k) := by
  rcases heard_ending calm event with hrests | ⟨key, ended, hkey, hending⟩
  · rw [hrests] at h
    cases h
  · rw [hending] at h
    cases key with
    | run n =>
        cases h
        exact hkey
    | host n =>
        rcases r.ending_host n ended with hrests | ⟨_, _, _, hchecks⟩
        · rw [hrests] at h
          cases h
        · rw [hchecks] at h
          cases h

theorem check_foreign (calm : r.registry.outbox = []) {event : Registry.Event} {k : Nat}
    (foreign : event.key? ≠ some (.run k)) : (r.tellRegistry event).check k = r.check k := by
  unfold check
  rw [tellRegistry_registry]
  change ((r.registry.step r.buffers event).calls.get? (.run k)).bind _ = _
  rw [(Registry.step_unconcerned calm r.buffers foreign).call]

/-- An event that is about no run goes by what it is to the sessions. -/
theorem Ready.scene_told (h : r.Ready) (uri : String) {event : Registry.Event}
    (foreign : ∀ k, event.key? ≠ some (.run k)) :
    (r.tellRegistry event).scene uri = (r.scene uri).after (r.deedAct? uri (r.heard event)) := by
  have hchecks : (r.tellRegistry event).check = r.check :=
    funext fun k => check_foreign h.calm (foreign k)
  unfold scene
  rw [hchecks, (tellRegistry_keeps h.calm event).scene]
  exact h.scene_deed fun k outcome heq => foreign k (heard_judges h.calm heq)

/-- The check of a run goes on, or ends. -/
theorem Ready.scene_becomes (h : r.Ready) {event : Registry.Event} {k : Nat}
    (about : event.key? = some (.run k)) {question : Question} {turned : Turned}
    (becomes : Registry.Becomes (.run k) question turned (r.registry.step r.buffers event)) :
    (r.tellRegistry event).scene uri =
      if (r.run? uri k).isSome then (r.scene uri).settle (r.desk.place uri k) turned.bare
      else r.scene uri := by
  have hothers : ∀ j, j ≠ k → (r.tellRegistry event).check j = r.check j := by
    intro j hj
    refine check_foreign h.calm ?_
    rw [about]
    rintro ⟨⟩
    exact hj rfl
  have hown : (r.tellRegistry event).check k = match turned with
      | .on c => some c.bare
      | .ends _ => none := by
    unfold check
    rw [tellRegistry_registry]
    change ((r.registry.step r.buffers event).calls.get? _).bind _ = _
    rw [becomes.call]
    cases turned <;> rfl
  have hheard : r.heard event = match turned with
      | .on _ => .rests
      | .ends outcome => .judges k outcome := by
    unfold heard
    rw [becomes.finishes]
    cases turned <;> rfl
  unfold scene
  rw [(tellRegistry_keeps h.calm event).scene, hheard]
  cases hrun : r.run? uri k with
  | none =>
      rw [Option.isSome_none, if_neg Bool.false_ne_true]
      refine h.scene_foreign ?_ fun j hj => hothers j ?_
      · cases turned with
        | on c => exact id
        | ends outcome =>
            rintro ⟨run, s, hruns, hs, huri⟩
            rw [run?_eq_some.2 ⟨hruns, s, hs, huri⟩] at hrun
            cases hrun
      · rintro rfl
        exact hj hrun
  | some run =>
      rw [Option.isSome_some, if_pos rfl]
      cases turned with
      | on c =>
          refine (Desk.scene_modify r.desk uri hothers).trans ?_
          rw [hown]
          rfl
      | ends outcome =>
          refine (scene_judged h.sound hrun outcome _).trans ?_
          rw [Desk.scene_modify r.desk uri hothers, hown]
          rfl

theorem Ready.emit (h : r.Ready) (e : Effect) : (r.emit e).Ready :=
  ⟨h.sound, h.flagged, h.calm, h.inspects⟩

/-- What the scene of an address has of a run. -/
theorem runs_of_run? {k : Nat} {run : Run} (h : r.run? uri k = some run) :
    (r.scene uri).runs[r.desk.place uri k]? = some (r.desk.runView uri r.check (run.ticket, k)) := by
  obtain ⟨hrun, s, hs, huri⟩ := run?_eq_some.1 h
  exact Desk.runs_place (d := r.desk) hrun hs huri

/-- An event is a turn of the check of a run, or comes too late for it. -/
theorem Ready.scene_turn (h : r.Ready) {event : Registry.Event} {k : Nat} {t : Turn}
    (about : event.key? = some (.run k)) (turn : event.turn? (.run k) = some t) :
    (r.tellRegistry event).scene uri = (r.scene uri).after ((r.run? uri k).map fun run =>
      .turn (r.desk.place uri k) (r.document run.document) t) := by
  cases hcall : r.registry.calls.get? (.run k) with
  | none =>
      have hold : ∀ request, event ≠ .call (.run k) request := by
        rintro request rfl
        cases turn
      have hstep := Registry.step_absent r.buffers about hold hcall
      have hsame : (r.tellRegistry event).scene uri = r.scene uri := by
        have hchecks : (r.tellRegistry event).check = r.check := by
          unfold check
          rw [tellRegistry_registry, hstep]
        have hrests : r.heard event = .rests := by
          unfold heard Registry.finishes
          rw [hstep, h.calm]
          rfl
        unfold scene
        rw [hchecks, (tellRegistry_keeps h.calm event).scene, hrests]
        rfl
      rw [hsame]
      cases hrun : r.run? uri k with
      | none => rfl
      | some run =>
          have hnone : r.check k = none := by
            unfold check
            rw [hcall]
            rfl
          simp only [Option.map_some, Scene.after, Scene.act, runs_of_run? hrun, Option.bind_some,
            Desk.runView, hnone]
  | some c =>
      obtain ⟨checked, rfl, hsuits⟩ := h.inspects k c hcall
      rw [h.scene_becomes about (Registry.step_becomes h.calm r.buffers hcall turn)]
      cases hrun : r.run? uri k with
      | none => rfl
      | some run =>
          have hcheck : r.check k = some checked.bare := by
            unfold check
            rw [hcall]
            rfl
          have hdocument : run.document = checked.document := by
            have hdocs := hsuits.document
            unfold docs at hdocs
            rw [(run?_eq_some.1 hrun).1] at hdocs
            exact Option.some.inj hdocs
          simp only [Option.isSome_some, if_true, Option.map_some, Scene.after, Scene.act,
            runs_of_run? hrun, Option.bind_some, Desk.runView, hcheck, Check.turn_bare, hdocument]
          rfl

/-- The check of a run begins. -/
theorem Ready.scene_begin (h : r.Ready) {k : Nat} {run : Run} (hrun : r.runs[k]? = some run)
    (kept : run.dropped = false) (options : CallOptions) :
    (r.tellRegistry (.call (.run k) (.check run.document options))).scene uri =
      (r.scene uri).after ((r.run? uri k).map fun run =>
        .begin (r.desk.place uri k) r.registry.activePlugins (r.document run.document)) := by
  rw [h.scene_becomes rfl (Registry.startCheck_becomes h.calm r.buffers run.document options)]
  cases hof : r.run? uri k with
  | none => rfl
  | some run' =>
      obtain rfl := Option.some.inj (hrun.symm.trans (run?_eq_some.1 hof).1)
      have hdropped : r.desk.dropped k = false := by
        unfold Desk.dropped
        change r.runs[k]?.any _ = false
        rw [hrun]
        exact kept
      simp only [Option.isSome_some, if_true, Option.map_some, Scene.after, Scene.act,
        runs_of_run? hof, Desk.runView, hdropped, Bool.false_eq_true, if_false]
      rw [Check.start_bare _ _ _ options]
      rfl

/-! ## Runs that are called off -/

theorem docs_agrees (agrees : r.desk.Agrees r'.desk) : r'.docs = r.docs := by
  funext k
  have hruns : r'.runs.map Run.ticket = r.runs.map Run.ticket := agrees.runs
  have hticket : (r'.runs.map Run.ticket)[k]?.map (·.2.2) = (r.runs.map Run.ticket)[k]?.map (·.2.2) := by
    rw [hruns]
  rw [List.getElem?_map, List.getElem?_map, Option.map_map, Option.map_map] at hticket
  exact hticket

theorem run?_agrees (agrees : r.desk.Agrees r'.desk) (uri : String) (k : Nat) :
    (r'.run? uri k).isSome = (r.run? uri k).isSome := by
  have hspec : ∀ r : Reviewer, (r.run? uri k).isSome =
      (r.runs.map Run.ticket)[k]?.any fun ticket =>
        (r.sessions.at? ticket.1).any (·.uri == uri) := by
    intro r
    unfold run?
    rw [List.getElem?_map]
    cases hrun : r.runs[k]? with
    | none => rfl
    | some run =>
        rw [Option.filter_some, Option.map_some, Option.any_some]
        change _ = (r.sessions.at? run.session).any _
        split
        · rename_i hof
          exact hof.symm
        · rename_i hof
          exact (Bool.eq_false_iff.2 hof).symm
  have hruns : r'.runs.map Run.ticket = r.runs.map Run.ticket := agrees.runs
  have hsessions : r'.sessions = r.sessions := agrees.sessions
  rw [hspec, hspec, hruns, hsessions]

theorem Ready.agrees (h : r.Ready) (agrees : r.desk.Agrees r'.desk)
    (calm : r'.registry.outbox = []) (inspects : r'.registry.Inspects r.docs) : r'.Ready := by
  have hdoes : Does (fun _ => True) r.buffers (.gathered 0) r.desk r'.desk :=
    .rests agrees.sessions agrees.runs agrees.sink
  refine ⟨hdoes.sound h.sound, hdoes.flagged h.sound h.flagged, calm, ?_⟩
  rw [docs_agrees agrees]
  exact inspects

theorem Ready.abortRun (h : r.Ready) (k : Nat) : (r.abortRun k).Ready := by
  have hrests := abortRun_rests h.calm k
  refine h.agrees hrests.agrees (hrests.calm h.calm) ?_
  unfold Reviewer.abortRun
  split
  · rw [tellRegistry_registry]
    refine Registry.step_inspects h.calm r.buffers h.inspects ?_
    rintro j request ⟨⟩
  · exact h.inspects

/-- A run does not begin that has been called off before. -/
theorem scene_drop (r : Reviewer) (uri : String) (k : Nat) :
    (r.setRun k fun run => { run with dropped := true }).scene uri =
      (r.scene uri).modify (r.desk.place uri k) fun run => { run with dropped := true } := by
  have hagrees : r.desk.Agrees (r.setRun k fun run => { run with dropped := true }).desk :=
    (setRun_rests (r := r) (n := k) (f := fun run => { run with dropped := true }) fun _ => rfl).agrees
  unfold scene Scene.modify Desk.scene
  rw [hagrees.runsOf]
  congr 1
  refine map_modify_findIdx Prod.snd (r.desk.nodup_runsOf uri) (fun entry hentry hk => ?_)
    fun entry _ hk => ?_
  · obtain ⟨run, s, hrun, _⟩ := Desk.runsOf_spec hentry
    rw [hk] at hrun
    have hdropped : (r.setRun k fun run => { run with dropped := true }).desk.dropped k = true := by
      change (r.runs.modify k _)[k]?.any _ = true
      have hrun : r.runs[k]? = some run := hrun
      rw [List.getElem?_modify, hrun]
      simp
    unfold Desk.runView
    rw [hk, hdropped]
    rfl
  · have hdropped : (r.setRun k fun run => { run with dropped := true }).desk.dropped entry.2 =
        r.desk.dropped entry.2 := by
      change (r.runs.modify k _)[entry.2]?.any _ = r.runs[entry.2]?.any _
      rw [List.getElem?_modify]
      cases r.runs[entry.2]? with
      | none => rfl
      | some run => simp [Ne.symm hk]
    unfold Desk.runView
    rw [hdropped]
    rfl

/-- A run is called off. -/
theorem Ready.scene_abortRun (h : r.Ready) (uri : String) (k : Nat) :
    (r.abortRun k).scene uri =
      if (r.run? uri k).isSome then (r.scene uri).stop (r.desk.place uri k) else r.scene uri := by
  unfold Reviewer.abortRun
  cases hcall : r.registry.calls.get? (.run k) with
  | some c =>
      obtain ⟨checked, rfl, _⟩ := h.inspects k c hcall
      have hturn : (Registry.Event.abort (.run k)).turn? (.run k) = some .abort := if_pos rfl
      simp only
      rw [h.scene_becomes rfl (Registry.step_becomes h.calm r.buffers hcall hturn)]
      cases hrun : r.run? uri k with
      | none => rfl
      | some run =>
          have hcheck : r.check k = some checked.bare := by
            unfold check
            rw [hcall]
            rfl
          simp only [Option.isSome_some, if_true, Scene.stop, runs_of_run? hrun, Option.map_some,
            Desk.runView, hcheck]
          rfl
  | none =>
      have hcheck : r.check k = none := by
        unfold check
        rw [hcall]
        rfl
      simp only
      rw [scene_drop]
      cases hrun : r.run? uri k with
      | some run =>
          simp only [Option.isSome_some, if_true, Scene.stop, runs_of_run? hrun, Option.map_some,
            Desk.runView, hcheck]
      | none =>
          have habsent : ∀ entry ∈ r.desk.runsOf uri, (entry.2 == k) = false := by
            intro entry hentry
            rw [beq_eq_false_iff_ne]
            rintro rfl
            obtain ⟨run, s, hruns, _, hs, huri⟩ := Desk.runsOf_spec hentry
            rw [run?_eq_some.2 ⟨hruns, s, hs, huri⟩] at hrun
            cases hrun
          have hplace : r.desk.place uri k = (r.scene uri).runs.length := by
            refine (List.findIdx_eq_length_of_false habsent).trans ?_
            exact (List.length_map _).symm
          unfold Scene.modify
          rw [hplace, List.modify_eq_self (Nat.le_refl _)]
          rfl

theorem Ready.scene_foldl_abortRun (h : r.Ready) (uri : String) (runs : List Nat) (r₀ : Reviewer)
    (agrees : r₀.desk.Agrees r.desk) :
    (runs.foldl Reviewer.abortRun r).scene uri =
      ((runs.filter fun k => (r₀.run? uri k).isSome).map (r₀.desk.place uri)).foldl Scene.stop
        (r.scene uri) := by
  induction runs generalizing r with
  | nil => rfl
  | cons k rest ih =>
      have hrun := (abortRun_rests h.calm k).agrees
      have hagrees : r₀.desk.Agrees (r.abortRun k).desk :=
        ⟨hrun.sessions.trans agrees.sessions, hrun.runs.trans agrees.runs, hrun.sink.trans agrees.sink⟩
      have hplace : r.desk.place uri k = r₀.desk.place uri k := by
        unfold Desk.place
        rw [agrees.runsOf]
      rw [List.foldl_cons, ih (h.abortRun k) hagrees, h.scene_abortRun, run?_agrees agrees, hplace,
        List.filter_cons]
      split
      · rw [List.map_cons, List.foldl_cons]
      · rfl

theorem scene_stopAct? (r : Reviewer) (uri : String) (runs : List Nat) :
    (r.scene uri).after (r.stopAct? uri runs) =
      ((runs.filter fun k => (r.run? uri k).isSome).map (r.desk.place uri)).foldl Scene.stop
        (r.scene uri) := by
  unfold stopAct?
  split
  · rename_i hnone
    rw [hnone]
    rfl
  · rfl

/-- A call is called off, and so are the runs that it waits for. -/
theorem Ready.scene_abort (h : r.Ready) (uri : String) (n : Nat) :
    (r.step (.abort n)).scene uri = (r.scene uri).after (r.act? uri (.abort n)) := by
  change (r.withCall n (r.abort n)).scene uri =
    (r.scene uri).after (r.stopAct? uri (((r.calls.get? n).map (awaited ·.stage)).getD []))
  rw [scene_stopAct?]
  unfold withCall
  cases hcall : r.calls.get? n with
  | none => rfl
  | some c =>
      obtain ⟨stage, aborting⟩ := c
      have hset : (r.setCall n ⟨stage, true⟩).Ready := ⟨h.sound, h.flagged, h.calm, h.inspects⟩
      have hruns := hset.scene_foldl_abortRun uri (awaited stage) r ⟨rfl, rfl, rfl⟩
      cases stage with
      | formatting document purpose =>
          have hforeign : ∀ k, (Registry.Event.abort (.host n)).key? ≠ some (.run k) := by
            rintro k ⟨⟩
          have htold := hset.scene_told uri hforeign
          rw [heard_abort hset.calm] at htold
          exact htold
      | _ => exact hruns

/-! ## Steps -/

/-- A call of the host tells the registry nothing about a run. -/
theorem conveyed_call {n : Nat} {request : Request} {event : Registry.Event}
    (h : r.conveyed (.call n request) = some event) : event.key? = some (.host n) := by
  cases request with
  | format document token =>
      cases h
      rfl
  | fixAll document token editable =>
      obtain ⟨_, ⟨⟩⟩ := Option.ite_none_right_eq_some.1 h
      rfl
  | _ => cases h

theorem deed_call_judges (calm : r.registry.outbox = []) (n : Nat) (request : Request) (k : Nat)
    (outcome : Outcome Registry.Reply) : r.deed (.call n request) ≠ .judges k outcome := by
  intro h
  cases request with
  | format document token =>
      have hkey := heard_judges (r := r.setCall n ⟨.formatting document .edits, false⟩) calm h
      cases hkey
  | fixAll document token editable =>
      simp only [deed] at h
      split at h
      · have hkey := heard_judges (r := r.setCall n ⟨.formatting document (.fix editable), false⟩) calm h
        cases hkey
      · cases h
  | _ => cases h

/-- A step of which the registry is told nothing that is about a run. -/
theorem Ready.scene_step (h : r.Ready) (kept : ∀ n, e ≠ .abort n)
    (foreign : ∀ event, r.conveyed e = some event → ∀ k, event.key? ≠ some (.run k))
    (unjudged : ∀ k outcome, r.deed e ≠ .judges k outcome) :
    (r.step e).scene uri = (r.scene uri).after (r.deedAct? uri (r.deed e)) := by
  have hchecks : (r.step e).check = r.check := by
    funext k
    unfold check
    rw [(step_leads h.calm kept).registry]
    unfold reached
    split
    · rename_i event hconveyed
      exact congrArg (Option.bind · _)
        (Registry.step_unconcerned h.calm r.buffers (foreign event hconveyed k)).call
    · rfl
  unfold scene
  rw [hchecks, (step_keeps h.calm kept).scene]
  exact h.scene_deed unjudged

/-- What a step does to an address. -/
theorem Ready.scene_after (h : r.Ready) (uri : String) (hosted : Hosted e = true) :
    (r.step e).scene uri = (r.scene uri).after (r.act? uri e) := by
  cases e with
  | registry event =>
      change (r.tellRegistry event).scene uri = _
      cases hkey : event.key? with
      | none =>
          simp only [act?, hkey]
          refine h.scene_told uri fun k heq => ?_
          cases hkey.symm.trans heq
      | some key =>
          cases key with
          | host n =>
              simp only [act?, hkey]
              refine h.scene_told uri fun k heq => ?_
              cases hkey.symm.trans heq
          | run k =>
              obtain ⟨t, hturn⟩ := Registry.exists_turn hkey fun request heq => by
                rw [heq] at hosted
                cases hosted
              simp only [act?, hkey, hturn, Option.map_some]
              rw [h.scene_turn hkey hturn, Option.map_eq_bind]
              rfl
  | begin k =>
      simp only [act?]
      unfold step
      simp only
      cases hrun : r.runs[k]? with
      | none =>
          have hnone : r.run? uri k = none := by
            unfold run?
            rw [hrun]
            rfl
          rw [hnone]
          rfl
      | some run =>
          simp only [Reviewer.begin]
          cases hdropped : run.dropped with
          | false => exact (h.emit (.started k)).scene_begin hrun hdropped _
          | true =>
              have hsame : (r.endRun k .aborted).scene uri = r.scene uri :=
                (endRun_keeps r k .aborted).scene uri r.check
              rw [if_pos rfl, hsame]
              cases hof : r.run? uri k with
              | none => rfl
              | some run' =>
                  obtain rfl := Option.some.inj (hrun.symm.trans (run?_eq_some.1 hof).1)
                  have hview : r.desk.dropped k = true := by
                    unfold Desk.dropped
                    change r.runs[k]?.any _ = true
                    rw [hrun]
                    exact hdropped
                  simp only [Option.map_some, Scene.after, Scene.act, runs_of_run? hof, Desk.runView,
                    hview, if_true]
  | abort n => exact h.scene_abort uri n
  | call n request =>
      refine h.scene_step ?_ ?_ (deed_call_judges h.calm n request)
      · rintro m ⟨⟩
      · intro event heq k habout
        cases (conveyed_call heq).symm.trans habout
  | member n i =>
      refine h.scene_step ?_ ?_ ?_
      · rintro m ⟨⟩
      · rintro event ⟨⟩
      · intro k outcome heq
        simp only [deed] at heq
        cases hmember : r.memberAt n i with
        | none =>
            rw [hmember] at heq
            cases heq
        | some document =>
            rw [hmember] at heq
            cases heq
  | _ =>
      refine h.scene_step ?_ ?_ ?_
      · rintro n ⟨⟩
      · rintro event ⟨⟩
      · rintro k outcome ⟨⟩

end Shellwright.Reviewer
