import Shellwright.Proofs.Review.Steps
import Shellwright.Workspace.Step
/-!
# Every step of a workspace

The review of a workspace does one thing at each step. What the workspace does before and after it, and
the calls that it carries on, leave the desk of the review as it is.
-/

namespace Shellwright.Workspace

open Review

/-- The event names the document. -/
def Event.Names (document : String) : Event → Prop
  | .review e => e.Names document
  | .call _ (.openDocument name) => name = document
  | .call _ (.saveDocument name) => name = document
  | .call _ (.format name _) => name = document
  | .call _ (.fixAll name _ _) => name = document
  | .call _ (.apply _ documents) => document ∈ documents
  | .change name => name = document
  | .close name => name = document
  | _ => False

/-- With the event a call begins that has every open document checked. -/
def Event.Sweeps (n : Nat) : Event → Prop
  | .call m (.apply _ _) => m = n
  | _ => False

/-- Call `n` may still have the document checked: it waits to check it, or to check all documents that
are open. -/
def InFlight (w : Workspace) (n : Nat) (document : String) : Prop :=
  w.reviewer.Awaits n document ∨
    w.calls.get? n = some .rebuilding ∧ document ∈ w.documents.values

def desk (w : Workspace) : Desk :=
  w.reviewer.desk

/-- Nothing is left in the outboxes below. -/
structure Calm (w : Workspace) : Prop where
  reviewer : w.reviewer.outbox = []
  registry : w.registry.outbox = []

/-- Nothing is dispatched, and no call comes to check more than it was going to. -/
structure Rests (w w' : Workspace) : Prop where
  desk : w'.desk = w.desk
  places : ∀ name, (w'.reviewer.document name).uri = (w.reviewer.document name).uri
  inFlight : ∀ n document, w'.InFlight n document → w.InFlight n document
  calm : w.Calm → w'.Calm

/-- What a step does; `names` are the documents that it is about, and `sweeps` tells which calls begin
to check all that is open. -/
structure Acts (names : String → Prop) (sweeps : Nat → Prop) (w w' : Workspace) : Prop where
  desk : ∃ e, (∀ document, e.Names document → names document) ∧
    Does (fun document => names document ∨ ∃ n, w.reviewer.Awaits n document) w.reviewer.buffers e
      w.desk w'.desk
  places : ∀ name, (w'.reviewer.document name).uri = (w.reviewer.document name).uri
  inFlight : ∀ n document, w'.InFlight n document →
    w.InFlight n document ∨ names document ∨ sweeps n ∧ document ∈ w.documents.values
  calm : w'.Calm

variable {w w' w'' : Workspace} {names : String → Prop} {sweeps : Nat → Prop}

/-! ## Steps at rest -/

theorem Rests.refl (w : Workspace) : w.Rests w := ⟨rfl, fun _ => rfl, fun _ _ h => h, id⟩

theorem Rests.trans (h : w.Rests w') (h' : w'.Rests w'') : w.Rests w'' where
  desk := h'.desk.trans h.desk
  places name := (h'.places name).trans (h.places name)
  inFlight n document hinFlight := h.inFlight n document (h'.inFlight n document hinFlight)
  calm hcalm := h'.calm (h.calm hcalm)

theorem foldl_rests {α : Type} {f : Workspace → α → Workspace}
    (h : ∀ (w : Workspace) (a : α), w.Rests (f w a)) (w : Workspace) (l : List α) :
    w.Rests (l.foldl f w) := by
  induction l generalizing w with
  | nil => exact .refl w
  | cons a rest ih => exact (h w a).trans (ih (f w a))

theorem emit_rests (w : Workspace) (e : Effect) : w.Rests (w.emit e) :=
  ⟨rfl, fun _ => rfl, fun _ _ h => h, fun h => ⟨h.reviewer, h.registry⟩⟩

theorem log_rests (w : Workspace) (level : LogLevel) (text : String) :
    w.Rests (w.log level text) :=
  emit_rests w _

theorem finish_rests (w : Workspace) (n : Nat) (outcome : Outcome Reply) :
    w.Rests (w.finish n outcome) := by
  refine ⟨rfl, fun _ => rfl, fun m document hinFlight => ?_, fun h => ⟨h.reviewer, h.registry⟩⟩
  rcases hinFlight with hawaits | ⟨hcall, hmem⟩
  · exact .inl hawaits
  · change (w.calls.drop n).get? m = some .rebuilding at hcall
    rw [Keyed.get?_drop] at hcall
    split at hcall
    · cases hcall
    · exact .inr ⟨hcall, hmem⟩

/-- The call goes on, and will not check all that is open. -/
theorem setCall_rests {n : Nat} {stage : Stage} (h : stage ≠ .rebuilding) :
    w.Rests (w.setCall n stage) := by
  refine ⟨rfl, fun _ => rfl, fun m document hinFlight => ?_, fun h => ⟨h.reviewer, h.registry⟩⟩
  rcases hinFlight with hawaits | ⟨hcall, hmem⟩
  · exact .inl hawaits
  · change (w.calls.put n stage).get? m = some .rebuilding at hcall
    rw [Keyed.get?_put] at hcall
    split at hcall
    · exact absurd (Option.some.inj hcall) h
    · exact .inr ⟨hcall, hmem⟩

/-! ## What the review wants done -/

/-- Only what is wanted done differs. -/
theorem foldl_absorb_eq (effects : List Review.Effect) (w : Workspace) :
    ∃ out, effects.foldl absorb w = { w with outbox := out } := by
  induction effects generalizing w with
  | nil => exact ⟨w.outbox, rfl⟩
  | cons effect rest ih =>
      obtain ⟨out, hout⟩ := ih (w.absorb effect)
      refine ⟨out, ?_⟩
      rw [List.foldl_cons, hout]
      cases effect <;> rfl

theorem tell_eq (w : Workspace) (e : Review.Event) :
    ∃ out, (w.tell e).1 =
      { w with reviewer := { w.reviewer.step e with outbox := [] }, outbox := out } :=
  foldl_absorb_eq _ _

/-- The review of the workspace has taken a step. -/
structure Tells (may : String → Prop) (e : Review.Event) (w w' : Workspace) : Prop where
  acts : Reviewer.Acts may e w.reviewer w'.reviewer
  inFlight : ∀ n document, w'.InFlight n document → w.InFlight n document ∨ e.Asks n document
  calm : w.Calm → w'.Calm

theorem tell_tells {may : String → Prop} {e : Review.Event}
    (acts : Reviewer.Acts may e w.reviewer (w.reviewer.step e)) : Tells may e w (w.tell e).1 := by
  obtain ⟨out, hout⟩ := tell_eq w e
  rw [hout]
  refine ⟨acts.mutters ⟨[], rfl⟩, ?_, fun h => ⟨rfl, acts.calm h.registry⟩⟩
  rintro n document (hawaits | hrebuilding)
  · exact (acts.awaits n document hawaits).imp_left .inl
  · exact .inl (.inr hrebuilding)

theorem tell_desk (w : Workspace) (e : Review.Event) :
    (w.tell e).1.desk = (w.reviewer.step e).desk := by
  obtain ⟨out, hout⟩ := tell_eq w e
  rw [hout]
  rfl

/-- To have documents checked later dispatches nothing yet. -/
theorem tell_diagnoseAll_tells (w : Workspace) (n : Nat) (documents : List String) :
    Tells (fun _ => False) (.call n (.diagnoseAll documents)) w
        (w.tell (.call n (.diagnoseAll documents))).1 ∧
      (w.tell (.call n (.diagnoseAll documents))).1.desk = w.desk := by
  obtain ⟨hacts, hdesk⟩ := Reviewer.call_diagnoseAll_acts w.reviewer n documents rfl
  exact ⟨tell_tells hacts, (tell_desk w _).trans hdesk⟩

/-! ## Calls that go on -/

/-- The plugins are in place, and all that is open is going to be checked. -/
theorem rebuilt_rests {n : Nat} (call : w.calls.get? n = some .rebuilding) :
    w.Rests
      (if ((w.setCall n .diagnosing).tell (.call n (.diagnoseAll w.documents.values))).2.isEmpty then
        ((w.setCall n .diagnosing).tell (.call n (.diagnoseAll w.documents.values))).1
      else
        ((w.setCall n .diagnosing).tell (.call n (.diagnoseAll w.documents.values))).1.finish n
          (.done .settled)) := by
  have hset : w.Rests (w.setCall n .diagnosing) := setCall_rests nofun
  obtain ⟨htells, hdesk⟩ := tell_diagnoseAll_tells (w.setCall n .diagnosing) n w.documents.values
  have htold : w.Rests
      ((w.setCall n .diagnosing).tell (.call n (.diagnoseAll w.documents.values))).1 := by
    refine ⟨hdesk, fun name => (htells.acts.places name).1, ?_, fun h => htells.calm (hset.calm h)⟩
    intro m document hinFlight
    rcases htells.inFlight m document hinFlight with hbefore | ⟨rfl, hmem⟩
    · exact hset.inFlight m document hbefore
    · exact .inr ⟨call, hmem⟩
  split
  · exact htold
  · exact htold.trans (finish_rests _ n _)

theorem closed_rests (w : Workspace) : w.Rests { w with
    reviewer := { w.reviewer with registry := w.registry.deactivateAll }, documents := [] } := by
  refine ⟨rfl, fun _ => rfl, fun n document hinFlight => ?_, fun h => ⟨h.reviewer, h.registry⟩⟩
  rcases hinFlight with hawaits | ⟨_, hmem⟩
  · exact .inl hawaits
  · cases hmem

theorem passOn_rests (w : Workspace) (e : Ending) : w.Rests (w.passOn e) := by
  cases e with
  | review n outcome => exact finish_rests w n _
  | registry n outcome => exact finish_rests w n _

theorem conclude_rests (w : Workspace) (e : Ending) : w.Rests (w.conclude e) := by
  unfold conclude
  simp only
  split
  -- Only a call that has rebuilt the plugins goes on; the others end.
  · exact (log_rests w _ _).trans (finish_rests _ _ _)
  · rename_i call
    exact (log_rests w _ _).trans (rebuilt_rests call)
  · exact finish_rests w _ _
  · exact (closed_rests w).trans (finish_rests _ _ _)
  · exact finish_rests w _ _
  · exact finish_rests w _ _
  · exact finish_rests w _ _
  · exact passOn_rests w _

theorem tell_rests (w : Workspace) (e : Review.Event) : (w.tell e).1.Rests (w.tellReview e) :=
  foldl_rests conclude_rests _ _

theorem Rests.acts (h : w.Rests w') (calm : w.Calm) : Acts names sweeps w w' where
  desk := by
    refine ⟨.gathered 0, fun _ h => h.elim, .rests ?_ ?_ ?_⟩
    · exact congrArg Desk.sessions h.desk
    · exact congrArg (fun d => d.runs.map Run.ticket) h.desk
    · exact congrArg Desk.sink h.desk
  places := h.places
  inFlight n document hinFlight := .inl (h.inFlight n document hinFlight)
  calm := h.calm calm

theorem Acts.then (h : Acts names sweeps w w') (rests : w'.Rests w'') :
    Acts names sweeps w w'' where
  desk := by
    rw [rests.desk]
    exact h.desk
  places name := (rests.places name).trans (h.places name)
  inFlight n document hinFlight := h.inFlight n document (rests.inFlight n document hinFlight)
  calm := rests.calm h.calm

theorem tellReview_acts (calm : w.Calm) {e : Review.Event}
    (named : ∀ document, e.Names document → names document) :
    Acts names sweeps w (w.tellReview e) := by
  have htells := tell_tells (Reviewer.step_acts calm.registry e)
  refine Acts.then ⟨⟨e, named, ?_⟩, fun name => (htells.acts.places name).1, ?_,
    htells.calm calm⟩ (tell_rests w e)
  · exact htells.acts.desk.mono fun document => Or.imp_left (named document)
  · intro n document hinFlight
    rcases htells.inFlight n document hinFlight with hbefore | hasks
    · exact .inl hbefore
    · exact .inr (.inl (named document hasks.names))

/-! ## What comes before -/

/-- The workspace has got ready for what its review is going to do. -/
structure Prepares (names : String → Prop) (sweeps : Nat → Prop) (w w' : Workspace) : Prop where
  desk : w'.desk = w.desk
  buffers : w'.reviewer.buffers = w.reviewer.buffers
  calls : w'.reviewer.calls = w.reviewer.calls
  documents : ∀ document ∈ w'.documents.values, document ∈ w.documents.values ∨ names document
  rebuilding : ∀ n, w'.calls.get? n = some .rebuilding →
    w.calls.get? n = some .rebuilding ∨ sweeps n
  calm : w'.Calm

theorem Prepares.trans (h : Prepares names sweeps w w') (h' : Prepares names sweeps w' w'') :
    Prepares names sweeps w w'' where
  desk := h'.desk.trans h.desk
  buffers := h'.buffers.trans h.buffers
  calls := h'.calls.trans h.calls
  documents document hmem := by
    rcases h'.documents document hmem with hmem | hnamed
    · exact h.documents document hmem
    · exact .inr hnamed
  rebuilding n hcall := by
    rcases h'.rebuilding n hcall with hcall | hsweeps
    · exact h.rebuilding n hcall
    · exact .inr hsweeps
  calm := h'.calm

theorem Prepares.acts (h : Prepares names sweeps w w') (h' : Acts names sweeps w' w'') :
    Acts names sweeps w w'' where
  desk := by
    obtain ⟨e, hnamed, hdoes⟩ := h'.desk
    refine ⟨e, hnamed, ?_⟩
    rw [h.desk, h.buffers] at hdoes
    refine hdoes.mono fun document => Or.imp_right ?_
    rintro ⟨n, c, call, hawaits⟩
    exact ⟨n, c, h.calls ▸ call, hawaits⟩
  places name := by
    rw [h'.places name]
    unfold Reviewer.document
    rw [h.buffers]
  inFlight n document hinFlight := by
    -- A call in flight between the two was so before, or has begun to check all that is open.
    rcases h'.inFlight n document hinFlight with (⟨c, call, hawaits⟩ | ⟨hcall, hmem⟩) | hnamed |
      ⟨hsweeps, hmem⟩
    · exact .inl (.inl ⟨c, h.calls ▸ call, hawaits⟩)
    · rcases h.documents document hmem with hmem | hnamed
      · rcases h.rebuilding n hcall with hcall | hsweeps
        · exact .inl (.inr ⟨hcall, hmem⟩)
        · exact .inr (.inr ⟨hsweeps, hmem⟩)
      · exact .inr (.inl hnamed)
    · exact .inr (.inl hnamed)
    · rcases h.documents document hmem with hmem | hnamed
      · exact .inr (.inr ⟨hsweeps, hmem⟩)
      · exact .inr (.inl hnamed)
  calm := h'.calm

theorem mem_values_put {entries : Keyed String String} {key value other : String}
    (h : other ∈ (entries.put key value).values) : other ∈ entries.values ∨ other = value := by
  induction entries with
  | nil => exact .inr (by simpa [Keyed.put, Keyed.values] using h)
  | cons e rest ih =>
      unfold Keyed.put at h
      split at h
      · rcases List.mem_cons.1 h with hother | hmem
        · exact .inr hother
        · exact .inl (List.mem_cons_of_mem _ hmem)
      · rcases List.mem_cons.1 h with hother | hmem
        · exact .inl (List.mem_cons.2 (.inl hother))
        · exact (ih hmem).imp_left (List.mem_cons_of_mem _)

theorem mem_values_drop {entries : Keyed String String} {key other : String}
    (h : other ∈ (entries.drop key).values) : other ∈ entries.values := by
  obtain ⟨e, he, rfl⟩ := List.mem_map.1 h
  exact List.mem_map.2 ⟨e, (List.mem_filter.1 he).1, rfl⟩

theorem track_prepares (calm : w.Calm) {document : String} (named : names document) :
    Prepares names sweeps w (w.track document) := by
  refine ⟨rfl, rfl, rfl, ?_, fun _ h => .inl h, ⟨calm.reviewer, calm.registry⟩⟩
  intro name hmem
  rcases mem_values_put hmem with hmem | rfl
  · exact .inl hmem
  · exact .inr named

theorem trackNew_prepares (calm : w.Calm) {documents : List String}
    (named : ∀ document ∈ documents, names document) :
    Prepares names sweeps w (documents.foldl trackNew w) := by
  induction documents generalizing w with
  | nil => exact ⟨rfl, rfl, rfl, fun _ h => .inl h, fun _ h => .inl h, calm⟩
  | cons document rest ih =>
      have hfirst : Prepares names sweeps w (w.trackNew document) := by
        unfold trackNew
        split
        · exact ⟨rfl, rfl, rfl, fun _ h => .inl h, fun _ h => .inl h, calm⟩
        · exact track_prepares calm (named document List.mem_cons_self)
      exact hfirst.trans (ih hfirst.calm fun name hmem => named name (List.mem_cons_of_mem _ hmem))

theorem setCall_prepares (calm : w.Calm) {n : Nat} {stage : Stage}
    (allowed : stage = .rebuilding → sweeps n) : Prepares names sweeps w (w.setCall n stage) := by
  refine ⟨rfl, rfl, rfl, fun _ h => .inl h, fun m hcall => ?_, ⟨calm.reviewer, calm.registry⟩⟩
  change (w.calls.put n stage).get? m = some .rebuilding at hcall
  rw [Keyed.get?_put] at hcall
  split at hcall
  · rename_i hm
    rw [hm]
    exact .inr (allowed (Option.some.inj hcall))
  · exact .inl hcall

theorem configure_prepares (calm : w.Calm) (settings : Settings) (debounce : Option Int)
    (timeout : Option Execution.Limit) (onChange : Bool) :
    Prepares names sweeps w
      ({ w with settings := settings }.tellReview (.configure debounce timeout onChange)) := by
  have hout : ({ w with settings := settings }.reviewer.step
      (.configure debounce timeout onChange)).outbox = [] := calm.reviewer
  unfold tellReview tell
  simp only [hout]
  exact ⟨rfl, rfl, rfl, fun _ h => .inl h, fun _ h => .inl h, ⟨rfl, calm.registry⟩⟩

theorem foldl_emit_eq (records : List LogRecord) (w : Workspace) :
    ∃ out, records.foldl (fun w record => w.emit (.log record)) w = { w with outbox := out } := by
  induction records generalizing w with
  | nil => exact ⟨w.outbox, rfl⟩
  | cons record rest ih =>
      obtain ⟨out, hout⟩ := ih (w.emit (.log record))
      exact ⟨out, hout⟩

/-! ## Events -/

theorem rebuild_acts (calm : w.Calm) {n : Nat} {stage : Stage} (plugins : Option (List String))
    (allowed : stage = .rebuilding → sweeps n) : Acts names sweeps w (w.rebuild n stage plugins) := by
  unfold rebuild
  split
  · exact (finish_rests w n _).acts calm
  · rename_i factories log _
    obtain ⟨out, hout⟩ := foldl_emit_eq (log ++ (Plugin.build w.settings w.made factories).2.2) w
    simp only [hout]
    have hmade : Prepares names sweeps w { w with
        outbox := out, made := (Plugin.build w.settings w.made factories).2.1 } :=
      ⟨rfl, rfl, rfl, fun _ h => .inl h, fun _ h => .inl h, ⟨calm.reviewer, calm.registry⟩⟩
    have hready := hmade.trans (setCall_prepares hmade.calm allowed)
    exact hready.acts (tellReview_acts hready.calm fun _ h => h.elim)

/-- All that is open is going to be checked. -/
theorem sweep_acts (calm : w.Calm) {n : Nat} (sweep : sweeps n) :
    Acts names sweeps w
      ((w.setCall n .diagnosing).tellReview (.call n (.diagnoseAll w.documents.values))) := by
  have hset : Prepares names sweeps w (w.setCall n .diagnosing) := setCall_prepares calm nofun
  obtain ⟨htells, hdesk⟩ := tell_diagnoseAll_tells (w.setCall n .diagnosing) n w.documents.values
  refine hset.acts (Acts.then ⟨⟨.gathered 0, nofun, .rests ?_ ?_ ?_⟩, ?_, ?_, htells.calm hset.calm⟩
    (tell_rests _ _))
  · exact congrArg Desk.sessions hdesk
  · exact congrArg (fun d => d.runs.map Run.ticket) hdesk
  · exact congrArg Desk.sink hdesk
  · exact fun name => (htells.acts.places name).1
  · intro m document hinFlight
    rcases htells.inFlight m document hinFlight with hbefore | ⟨rfl, hmem⟩
    · exact .inl hbefore
    · exact .inr (.inr ⟨sweep, hmem⟩)

theorem apply_acts (calm : w.Calm) {n : Nat} (settings : Settings) {documents : List String}
    (named : ∀ document ∈ documents, names document) (sweep : sweeps n) :
    Acts names sweeps w (w.apply n settings documents) := by
  have htracked : Prepares names sweeps w (documents.foldl trackNew w) :=
    trackNew_prepares calm named
  have hready := htracked.trans (configure_prepares htracked.calm settings
    (some (settings.diagnosis.debounce : Int)) (some (.milliseconds settings.diagnosis.timeout))
    settings.diagnosis.onChange)
  unfold apply
  simp only
  split
  · exact hready.acts (rebuild_acts hready.calm _ fun _ => sweep)
  · exact hready.acts (sweep_acts hready.calm sweep)

theorem call_acts (calm : w.Calm) (n : Nat) (request : Request) :
    Acts (Event.Names · (.call n request)) (Event.Sweeps · (.call n request)) w
      (w.call n request) := by
  cases request with
  | start => exact rebuild_acts calm none nofun
  | openDocument document =>
      have htrack : Prepares (Event.Names · (.call n (.openDocument document)))
          (Event.Sweeps · (.call n (.openDocument document))) w (w.track document) :=
        track_prepares calm rfl
      exact htrack.acts (tellReview_acts htrack.calm fun _ h => h)
  | saveDocument document =>
      have htrack : Prepares (Event.Names · (.call n (.saveDocument document)))
          (Event.Sweeps · (.call n (.saveDocument document))) w (w.track document) :=
        track_prepares calm rfl
      exact htrack.acts (tellReview_acts htrack.calm fun _ h => h)
  | format document token => exact tellReview_acts calm fun _ h => h
  | fixAll document token editable => exact tellReview_acts calm fun _ h => h
  | apply settings documents => exact apply_acts calm settings (fun _ h => h) rfl
  | shutdown =>
      have hset : Prepares (Event.Names · (.call n .shutdown)) (Event.Sweeps · (.call n .shutdown)) w
          (w.setCall n .closing) :=
        setCall_prepares calm nofun
      exact hset.acts (tellReview_acts hset.calm nofun)

theorem abort_acts (calm : w.Calm) (n : Nat) : Acts names sweeps w (w.abort n) := by
  unfold abort
  split
  · refine tellReview_acts calm ?_
    rintro document ⟨⟩
  · refine tellReview_acts calm ?_
    rintro document ⟨⟩

/-- What one step of a workspace does. -/
theorem step_acts (calm : w.Calm) (e : Event) :
    Acts (Event.Names · e) (Event.Sweeps · e) w (w.step e) := by
  cases e with
  | review e => exact tellReview_acts calm fun _ h => h
  | call n request => exact call_acts calm n request
  | change document =>
      have htrack : Prepares (Event.Names · (.change document)) (Event.Sweeps · (.change document)) w
          (w.track document) :=
        track_prepares calm rfl
      exact htrack.acts (tellReview_acts htrack.calm fun _ h => h)
  | close document =>
      have hdrop : Prepares (Event.Names · (.close document)) (Event.Sweeps · (.close document)) w
          { w with documents := w.documents.drop (w.reviewer.document document).uri } :=
        ⟨rfl, rfl, rfl, fun _ hmem => .inl (mem_values_drop hmem), fun _ h => .inl h,
          ⟨calm.reviewer, calm.registry⟩⟩
      exact hdrop.acts (tellReview_acts hdrop.calm fun _ h => h)
  | abort n => exact abort_acts calm n

/-- The event closes the document. -/
def Event.Closes (document : String) : Event → Prop
  | .close name => name = document
  | .review (.close name) => name = document
  | _ => False

theorem tellReview_close_desk (w : Workspace) (document : String) :
    (w.tellReview (.close document)).desk = w.desk.close (w.reviewer.document document).uri := by
  obtain ⟨out, hout⟩ := Reviewer.close_eq w.reviewer document
  rw [(tell_rests w _).desk, tell_desk]
  change (w.reviewer.close document).desk = _
  rw [hout]
  rfl

/-- What is left when a document is closed. -/
theorem step_closes_desk {document : String} {e : Event} (closes : e.Closes document) :
    (w.step e).desk = w.desk.close (w.reviewer.document document).uri := by
  unfold Event.Closes at closes
  split at closes
  · rw [← closes]
    exact tellReview_close_desk _ _
  · rw [← closes]
    exact tellReview_close_desk w _
  · exact closes.elim

end Shellwright.Workspace
