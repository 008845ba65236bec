import Shellwright.Proofs.Review.Desk
/-!
# Every step of a review

What each event does to the desk, to the documents that calls are going to check, and to the documents
of the host.
-/

namespace Shellwright.Reviewer

open Review

variable {r r' r'' : Reviewer} {may : String → Prop} {e : Event}

/-- Nothing is dispatched and nothing published. -/
structure Rests (r r' : Reviewer) : Prop where
  sessions : r'.sessions = r.sessions
  runs : r'.runs.map Run.ticket = r.runs.map Run.ticket
  sink : r'.sink = r.sink
  buffers : r'.buffers = r.buffers
  awaits : ∀ n document, r'.Awaits n document → r.Awaits n document
  calm : r.registry.outbox = [] → r'.registry.outbox = []

structure Acts (may : String → Prop) (e : Event) (r r' : Reviewer) : Prop where
  desk : Does may r.buffers e r.desk r'.desk
  places : ∀ name, (r'.document name).uri = (r.document name).uri ∧
    (r'.document name).isShell = (r.document name).isShell
  awaits : ∀ n document, r'.Awaits n document → r.Awaits n document ∨ e.Asks n document
  calm : r.registry.outbox = [] → r'.registry.outbox = []

/-! ## Steps at rest -/

theorem Rests.refl (r : Reviewer) : r.Rests r := ⟨rfl, rfl, rfl, rfl, fun _ _ h => h, id⟩

theorem Rests.trans (h : r.Rests r') (h' : r'.Rests r'') : r.Rests r'' where
  sessions := h'.sessions.trans h.sessions
  runs := h'.runs.trans h.runs
  sink := h'.sink.trans h.sink
  buffers := h'.buffers.trans h.buffers
  awaits n document hawaits := h.awaits n document (h'.awaits n document hawaits)
  calm hcalm := h'.calm (h.calm hcalm)

theorem Mutters.rests (h : r.Mutters r') : r.Rests r' := by
  obtain ⟨out, rfl⟩ := h
  exact ⟨rfl, rfl, rfl, rfl, fun _ _ h => h, id⟩

theorem Rests.acts (h : r.Rests r') : Acts may e r r' where
  desk := .rests h.sessions h.runs h.sink
  places name := by
    unfold document
    rw [h.buffers]
    exact ⟨rfl, rfl⟩
  awaits n document hawaits := .inl (h.awaits n document hawaits)
  calm := h.calm

theorem foldl_rests {α : Type} {f : Reviewer → α → Reviewer}
    (h : ∀ (r : Reviewer) (a : α), r.Rests (f r a)) (r : Reviewer) (l : List α) :
    r.Rests (l.foldl f r) := by
  induction l generalizing r with
  | nil => exact .refl r
  | cons a rest ih => exact (h r a).trans (ih (f r a))

/-- A call is over. -/
theorem awaits_of_drop {calls : Keyed Nat Call} {n m : Nat} {document : String}
    (h : ∃ c, (calls.drop n).get? m = some c ∧ c.stage.Awaits document) :
    ∃ c, calls.get? m = some c ∧ c.stage.Awaits document := by
  obtain ⟨c, call, hawaits⟩ := h
  rw [Keyed.get?_drop] at call
  split at call
  · cases call
  · exact ⟨c, call, hawaits⟩

/-- A call has gone on. -/
theorem awaits_of_put {calls : Keyed Nat Call} {n m : Nat} {c : Call} {document : String}
    (h : ∃ c', (calls.put n c).get? m = some c' ∧ c'.stage.Awaits document) :
    (m = n ∧ c.stage.Awaits document) ∨ ∃ c', calls.get? m = some c' ∧ c'.stage.Awaits document := by
  obtain ⟨c', call, hawaits⟩ := h
  rw [Keyed.get?_put] at call
  split at call
  · rename_i heq
    cases call
    exact .inl ⟨heq, hawaits⟩
  · exact .inr ⟨c', call, hawaits⟩

theorem finish_rests (r : Reviewer) (n : Nat) (outcome : Outcome Reply) :
    r.Rests (r.finish n outcome) :=
  ⟨rfl, rfl, rfl, rfl, fun _ _ h => awaits_of_drop h, id⟩

/-- The call goes on, and checks no more than it was going to. -/
theorem setCall_rests {n : Nat} {c : Call}
    (h : ∀ document, c.stage.Awaits document → r.Awaits n document) : r.Rests (r.setCall n c) := by
  refine ⟨rfl, rfl, rfl, rfl, fun m document hawaits => ?_, id⟩
  rcases awaits_of_put hawaits with ⟨rfl, hstage⟩ | hbefore
  · exact h document hstage
  · exact hbefore

theorem tickets_modify (runs : List Run) (n : Nat) {f : Run → Run}
    (h : ∀ run, (f run).ticket = run.ticket) :
    (runs.modify n f).map Run.ticket = runs.map Run.ticket := by
  refine List.ext_getElem? fun i => ?_
  rw [List.getElem?_map, List.getElem?_map, List.getElem?_modify]
  cases runs[i]? with
  | none => rfl
  | some run =>
      by_cases hi : n = i
      · simp [hi, h]
      · simp [hi]

theorem setRun_rests {n : Nat} {f : Run → Run} (h : ∀ run, (f run).ticket = run.ticket) :
    r.Rests (r.setRun n f) :=
  ⟨rfl, tickets_modify r.runs n h, rfl, rfl, fun _ _ h => h, id⟩

theorem endRun_rests (r : Reviewer) (n : Nat) (outcome : Outcome Verdict) :
    r.Rests (r.endRun n outcome) := by
  have hset : r.Rests (r.setRun n fun run => { run with outcome := some outcome }) :=
    setRun_rests fun _ => rfl
  exact hset.trans (emit_mutters _ _).rests

/-! ## The registry below -/

theorem completeRun_acts (r : Reviewer) (n : Nat) (outcome : Outcome Registry.Reply) :
    Acts may e r (r.completeRun n outcome) := by
  have hstop : r.Rests (r.emit (.stopped n)) := (emit_mutters r _).rests
  unfold completeRun
  simp only
  split
  · rename_i run verdict hrun
    unfold publish
    split
    · exact (hstop.trans (endRun_rests _ _ _)).acts
    · rename_i session hsession
      split
      · exact (hstop.trans ((log_mutters _ _ _).rests.trans (endRun_rests _ _ _))).acts
      · rename_i hconclusive
        split
        · rename_i hnewest
          refine ⟨.publishes n run session verdict hrun hsession (by simpa using hconclusive)
            hnewest rfl, fun _ => ⟨rfl, rfl⟩, fun _ _ h => .inl h, id⟩
        · exact (hstop.trans ((log_mutters _ _ _).rests.trans (endRun_rests _ _ _))).acts
  · exact (hstop.trans (endRun_rests _ _ _)).acts
  · exact (hstop.trans (endRun_rests _ _ _)).acts

theorem completeRun_aborted (r : Reviewer) (n : Nat) : r.Rests (r.completeRun n .aborted) := by
  have hstop : r.Rests (r.emit (.stopped n)) := (emit_mutters r _).rests
  have hend : r.completeRun n .aborted = (r.emit (.stopped n)).endRun n .aborted := by
    unfold completeRun
    simp only
    cases (r.emit (.stopped n)).runs[n]? <;> rfl
  rw [hend]
  exact hstop.trans (endRun_rests _ _ _)

theorem applyEdits_places (d : TextDocument) (edits : List TextEdit) :
    (d.applyEdits edits).2.uri = d.uri ∧ (d.applyEdits edits).2.isShell = d.isShell := by
  induction edits generalizing d with
  | nil => exact ⟨rfl, rfl⟩
  | cons edit rest ih =>
      unfold TextDocument.applyEdits
      split
      · exact ih (d.update edit.newText)
      · exact ⟨rfl, rfl⟩

/-- Edits leave documents where they are. -/
theorem find_put (b : Buffers) (name other : String) (d : TextDocument)
    (uri : d.uri = (b.find name).uri) (shell : d.isShell = (b.find name).isShell) :
    (Buffers.find (Keyed.put b name d) other).uri = (b.find other).uri ∧
      (Buffers.find (Keyed.put b name d) other).isShell = (b.find other).isShell := by
  unfold Buffers.find at uri shell ⊢
  rw [Keyed.get?_put]
  split
  · rename_i heq
    rw [heq]
    exact ⟨uri, shell⟩
  · exact ⟨rfl, rfl⟩

/-- The edits of a formatter change the text of a document at most. -/
theorem applyEdits_eq (r : Reviewer) (document : String) (editable : List String)
    (edits : List TextEdit) :
    ∃ buffers : Buffers, (r.applyEdits document editable edits).1 = { r with buffers := buffers } ∧
      ∀ name, (buffers.find name).uri = (r.document name).uri ∧
        (buffers.find name).isShell = (r.document name).isShell := by
  unfold applyEdits
  simp only
  split
  · exact ⟨r.buffers, rfl, fun _ => ⟨rfl, rfl⟩⟩
  · rename_i name _
    obtain ⟨huri, hshell⟩ := applyEdits_places (r.document name) edits
    exact ⟨_, rfl, fun other => find_put r.buffers name other _ huri hshell⟩

theorem Does.of_places {b b' : Buffers} {d d' : Desk} (h : Does may b' e d d')
    (places : ∀ name, (b'.find name).uri = (b.find name).uri ∧
      (b'.find name).isShell = (b.find name).isShell) : Does may b e d d' := by
  cases h with
  | rests sessions runs sink => exact .rests sessions runs sink
  | publishes n run session verdict run_eq session_eq conclusive newest desk =>
      exact .publishes n run session verdict run_eq session_eq conclusive newest desk
  | diagnoses document allowed shell desk =>
      obtain ⟨huri, hshell⟩ := places document
      rw [huri] at desk
      rw [hshell] at shell
      exact .diagnoses document allowed shell desk
  | elapses number session debounce event session_eq pending desk =>
      exact .elapses number session debounce event session_eq pending desk
  | arms document debounce event own desk =>
      rw [(places document).1] at desk
      exact .arms document debounce event own desk
  | closes document event desk =>
      rw [(places document).1] at desk
      exact .closes document event desk
  | shuts n event desk => exact .shuts n event desk

theorem Acts.edited {buffers : Buffers} (h : Acts may e { r with buffers := buffers } r')
    (places : ∀ name, (buffers.find name).uri = (r.document name).uri ∧
      (buffers.find name).isShell = (r.document name).isShell) : Acts may e r r' where
  desk := Does.of_places h.desk places
  places name :=
    ⟨(h.places name).1.trans (places name).1, (h.places name).2.trans (places name).2⟩
  awaits := h.awaits
  calm := h.calm

/-- What follows leaves the desk as it is. -/
theorem Acts.then (h : Acts may e r r') (rests : r'.Rests r'') (desk : r''.desk = r'.desk) :
    Acts may e r r'' where
  desk := by
    rw [desk]
    exact h.desk
  places name := by
    unfold document
    rw [rests.buffers]
    exact h.places name
  awaits n document hawaits := h.awaits n document (rests.awaits n document hawaits)
  calm hcalm := rests.calm (h.calm hcalm)

theorem diagnose_acts {document : String} (allowed : may document) :
    Acts may e r (r.diagnose document).1 := by
  cases hshell : (r.document document).isShell with
  | true =>
      obtain ⟨out, hout⟩ := diagnose_eq hshell
      rw [hout]
      exact ⟨.diagnoses document allowed hshell rfl, fun _ => ⟨rfl, rfl⟩, fun _ _ h => .inl h, id⟩
  | false =>
      obtain ⟨out, hout⟩ := diagnose_none hshell
      rw [hout]
      exact (Mutters.rests ⟨out, rfl⟩).acts

/-- A check of a document, after which its call goes on or ends. -/
theorem Acts.of_diagnose {document : String} {result : Option Nat} (allowed : may document)
    (h : r.diagnose document = (r', result)) : Acts may e r r' := by
  have hfirst : (r.diagnose document).1 = r' := congrArg Prod.fst h
  rw [← hfirst]
  exact diagnose_acts allowed

/-- The end of a call, after which nothing happens but that something is logged. -/
theorem unfixed_rests (r : Reviewer) (n : Nat) (document : String) (verdict : FormatVerdict) :
    r.Rests (r.unfixed n document verdict) ∧ (r.unfixed n document verdict).desk = r.desk := by
  unfold unfixed
  split
  · exact ⟨finish_rests r n _, rfl⟩
  · split
    · exact ⟨finish_rests r n _, rfl⟩
    · exact ⟨(log_mutters r _ _).rests.trans (finish_rests _ n _), rfl⟩

theorem withoutEdits_rests (r : Reviewer) (n : Nat) (document : String) (verdict : FormatVerdict)
    (purpose : FormatPurpose) :
    r.Rests (r.withoutEdits n document verdict purpose) ∧
      (r.withoutEdits n document verdict purpose).desk = r.desk := by
  cases purpose with
  | edits => exact ⟨finish_rests r n _, rfl⟩
  | fix editable => exact unfixed_rests r n document verdict

theorem withEdits_acts {document : String} (allowed : may document) (n : Nat)
    (verdict : FormatVerdict) (purpose : FormatPurpose) :
    Acts may e r (r.withEdits n document verdict purpose) := by
  cases purpose with
  | edits => exact (finish_rests r n _).acts
  | fix editable =>
      obtain ⟨buffers, hbuffers, hplaces⟩ := applyEdits_eq r document editable verdict.edits
      have hedited : r.applyEdits document editable verdict.edits =
          ({ r with buffers := buffers }, (r.applyEdits document editable verdict.edits).2) := by
        rw [← hbuffers]
      simp only [withEdits]
      rw [hedited]
      simp only
      split
      · refine Acts.edited (Rests.acts ?_) hplaces
        exact (log_mutters _ _ _).rests.trans (finish_rests _ n _)
      · split
        · rename_i r₁ run hdiagnose
          refine Acts.edited ?_ hplaces
          exact (Acts.of_diagnose allowed hdiagnose).then (setCall_rests fun _ h => h.elim) rfl
        · rename_i r₁ hdiagnose
          refine Acts.edited ?_ hplaces
          exact (Acts.of_diagnose allowed hdiagnose).then (finish_rests _ n _) rfl

theorem completeFormat_acts {document : String} (allowed : may document) (n : Nat)
    (purpose : FormatPurpose) (verdict : FormatVerdict) :
    Acts may e r (r.completeFormat n document purpose verdict) := by
  unfold completeFormat
  split
  · exact withEdits_acts allowed n verdict purpose
  · split
    · split
      · rename_i r₁ run hdiagnose
        exact (Acts.of_diagnose allowed hdiagnose).then (setCall_rests fun _ h => h.elim) rfl
      · rename_i r₁ hdiagnose
        obtain ⟨hrests, hdesk⟩ := withoutEdits_rests r₁ n document verdict purpose
        exact (Acts.of_diagnose allowed hdiagnose).then hrests hdesk
    · exact (withoutEdits_rests r n document verdict purpose).1.acts

theorem completeCall_acts (allowed : ∀ n document, r.Awaits n document → may document) (n : Nat)
    (outcome : Outcome Registry.Reply) : Acts may e r (r.completeCall n outcome) := by
  unfold completeCall
  split
  · rename_i document purpose verdict hstage
    obtain ⟨c, hcall, hstage⟩ := Option.map_eq_some_iff.1 hstage
    refine completeFormat_acts (allowed n document ⟨c, hcall, ?_⟩) n purpose verdict
    rw [hstage]
    rfl
  · exact (finish_rests r n _).acts
  · exact (finish_rests r n _).acts
  · exact (emit_mutters r _).rests.acts

/-! ## What the registry wants done -/

theorem absorb_mutters {effect : Registry.Effect} (h : effect.finish? = none) (r : Reviewer) :
    r.Mutters (r.absorb effect) := by
  cases effect with
  | finish key outcome => cases h
  | later event => exact emit_mutters r _
  | ask key part plugin question => exact emit_mutters r _
  | quit key part => exact emit_mutters r _
  | log record => exact emit_mutters r _

theorem foldl_absorb_mutters (effects : List Registry.Effect) (r : Reviewer)
    (h : effects.filterMap Registry.Effect.finish? = []) : r.Mutters (effects.foldl absorb r) := by
  induction effects generalizing r with
  | nil => exact .refl r
  | cons effect rest ih =>
      cases heffect : effect.finish? with
      | none =>
          rw [List.filterMap_cons_none heffect] at h
          exact (absorb_mutters heffect r).trans (ih _ h)
      | some ending =>
          rw [List.filterMap_cons_some heffect] at h
          cases h

/-- The end of a call is taken in between other things that the registry wants done. -/
theorem foldl_absorb_one (effects : List Registry.Effect) (r : Reviewer) {key : CallKey}
    {outcome : Outcome Registry.Reply}
    (h : effects.filterMap Registry.Effect.finish? = [(key, outcome)]) :
    ∃ r₁, r.Mutters r₁ ∧ (r₁.absorb (.finish key outcome)).Mutters (effects.foldl absorb r) := by
  induction effects generalizing r with
  | nil => cases h
  | cons effect rest ih =>
      cases heffect : effect.finish? with
      | none =>
          rw [List.filterMap_cons_none heffect] at h
          obtain ⟨r₁, hbefore, hafter⟩ := ih (r.absorb effect) h
          exact ⟨r₁, (absorb_mutters heffect r).trans hbefore, hafter⟩
      | some ending =>
          rw [List.filterMap_cons_some heffect] at h
          obtain ⟨rfl, hrest⟩ := List.cons.inj h
          obtain rfl : effect = .finish key outcome := by
            cases effect <;> cases heffect
            rfl
          exact ⟨r, .refl r, foldl_absorb_mutters rest _ hrest⟩

theorem Acts.mutters (h : Acts may e r r') (mutters : r'.Mutters r'') : Acts may e r r'' := by
  refine h.then mutters.rests ?_
  obtain ⟨out, rfl⟩ := mutters
  rfl

theorem Acts.of_mutters (mutters : r.Mutters r') (h : Acts may e r' r'') : Acts may e r r'' := by
  obtain ⟨out, rfl⟩ := mutters
  exact ⟨h.desk, h.places, h.awaits, h.calm⟩

/-- The registry ends one call at most, and so the review goes on with one. -/
theorem tellRegistry_acts (calm : r.registry.outbox = [])
    (allowed : ∀ n document, r.Awaits n document → may document) (event : Registry.Event) :
    Acts may e r (r.tellRegistry event) := by
  -- Among all that the registry wants done only the end of a call changes anything here.
  have htold : Acts may e { r with
      registry := { r.registry.step r.buffers event with outbox := [] } } (r.tellRegistry event) := by
    rcases Registry.step_finishes calm r.buffers event with hnone | ⟨key, outcome, hone⟩
    · exact (foldl_absorb_mutters _ _ hnone).rests.acts
    · obtain ⟨r₁, hbefore, hafter⟩ := foldl_absorb_one _
        { r with registry := { r.registry.step r.buffers event with outbox := [] } } hone
      refine Acts.mutters (Acts.of_mutters hbefore ?_) hafter
      cases key with
      | run n => exact completeRun_acts r₁ n outcome
      | host n =>
          refine completeCall_acts (fun m document hawaits => allowed m document ?_) n outcome
          exact hbefore.rests.awaits m document hawaits
  exact ⟨htold.desk, htold.places, htold.awaits, fun _ => htold.calm rfl⟩

/-- To call a run off publishes nothing and checks nothing. -/
theorem tellRegistry_abort_rests (calm : r.registry.outbox = []) (n : Nat) :
    r.Rests (r.tellRegistry (.abort (.run n))) := by
  have htold : Rests { r with
      registry := { r.registry.step r.buffers (.abort (.run n)) with outbox := [] } }
      (r.tellRegistry (.abort (.run n))) := by
    rcases Registry.abort_finishes calm r.buffers (.run n) with hnone | hone
    · exact (foldl_absorb_mutters _ _ hnone).rests
    · obtain ⟨r₁, hbefore, hafter⟩ := foldl_absorb_one _
        { r with registry := { r.registry.step r.buffers (.abort (.run n)) with outbox := [] } }
        hone
      exact hbefore.rests.trans ((completeRun_aborted r₁ n).trans hafter.rests)
  exact ⟨htold.sessions, htold.runs, htold.sink, htold.buffers, htold.awaits,
    fun _ => htold.calm rfl⟩

theorem abortRun_rests (calm : r.registry.outbox = []) (n : Nat) : r.Rests (r.abortRun n) := by
  unfold abortRun
  split
  · exact tellRegistry_abort_rests calm n
  · exact setRun_rests fun _ => rfl

theorem foldl_abortRun_rests (calm : r.registry.outbox = []) (runs : List Nat) :
    r.Rests (runs.foldl abortRun r) := by
  induction runs generalizing r with
  | nil => exact .refl r
  | cons n rest ih =>
      have hfirst := abortRun_rests calm n
      exact hfirst.trans (ih (hfirst.calm calm))

/-! ## Events -/

/-- What may be checked when the event happens. -/
def May (r : Reviewer) (e : Event) (document : String) : Prop :=
  e.Names document ∨ ∃ n, r.Awaits n document

theorem May.of_awaits (n : Nat) (document : String) (h : r.Awaits n document) : r.May e document :=
  .inr ⟨n, h⟩

/-- A new call may check only what its event asks for. -/
theorem Acts.entered {n : Nat} {c : Call} (h : Acts may e (r.setCall n c) r')
    (asks : ∀ document, c.stage.Awaits document → e.Asks n document) : Acts may e r r' where
  desk := h.desk
  places := h.places
  awaits m document hawaits := by
    rcases h.awaits m document hawaits with hawaits | hasks
    · rcases awaits_of_put hawaits with ⟨rfl, hstage⟩ | hbefore
      · exact .inr (asks document hstage)
      · exact .inl hbefore
    · exact .inr hasks
  calm := h.calm

theorem format_acts (calm : r.registry.outbox = []) {n : Nat} {document : String}
    (names : e.Names document) (asks : e.Asks n document) (purpose : FormatPurpose)
    (event : Registry.Event) :
    Acts (r.May e) e r ((r.setCall n ⟨.formatting document purpose, false⟩).tellRegistry event) := by
  have hcalm : (r.setCall n ⟨.formatting document purpose, false⟩).registry.outbox = [] := calm
  refine Acts.entered (tellRegistry_acts hcalm ?_ event) ?_
  · intro m name hawaits
    rcases awaits_of_put hawaits with ⟨_, rfl⟩ | hbefore
    · exact .inl names
    · exact .inr ⟨m, hbefore⟩
  · rintro name rfl
    exact asks

theorem shutdown_acts (r : Reviewer) (n : Nat) (event : e = .call n .shutdown) :
    Acts may e r (r.shutdown n) := by
  obtain ⟨out, hout⟩ := foldl_mutters cancelNewest_mutters r r.sessions.registered.values
  have hclosed : Acts may e r { r with sessions := r.sessions.closeAll, outbox := out } :=
    ⟨.shuts n event rfl, fun _ => ⟨rfl, rfl⟩, fun _ _ h => .inl h, id⟩
  unfold shutdown
  simp only [hout]
  split
  · exact hclosed.then (finish_rests _ n _) rfl
  · exact hclosed.then (setCall_rests fun _ h => h.elim) rfl

theorem call_diagnose_acts (r : Reviewer) (n : Nat) {document : String} (allowed : may document) :
    Acts may e r (r.call n (.diagnose document)) := by
  cases hdiagnose : r.diagnose document with
  | mk r₁ result =>
      have hacts : Acts may e r r₁ := Acts.of_diagnose allowed hdiagnose
      cases result with
      | some run =>
          have hcall : r.call n (.diagnose document) = r₁.setCall n ⟨.running run, false⟩ := by
            unfold call
            simp only [hdiagnose]
          rw [hcall]
          exact hacts.then (setCall_rests fun _ h => h.elim) rfl
      | none =>
          have hcall : r.call n (.diagnose document) = r₁.finish n (.done (.verdict none)) := by
            unfold call
            simp only [hdiagnose]
          rw [hcall]
          exact hacts.then (finish_rests _ n _) rfl

theorem call_diagnoseAll_acts (r : Reviewer) (n : Nat) (documents : List String)
    (event : e = .call n (.diagnoseAll documents)) :
    Acts may e r (r.call n (.diagnoseAll documents)) ∧
      (r.call n (.diagnoseAll documents)).desk = r.desk := by
  unfold call
  simp only
  split
  · exact ⟨(finish_rests r n _).acts, rfl⟩
  · have hmutters := foldl_mutters (fun r i => emit_mutters r (.later (.member n i)))
      (r.setCall n ⟨.several ((documents.filter fun name => (r.document name).isShell).map
        fun name => (name, .waiting)), false⟩)
      (List.range (documents.filter fun name => (r.document name).isShell).length)
    refine ⟨Acts.mutters (Acts.entered (Rests.refl _).acts fun document hawaits => ?_) hmutters, ?_⟩
    · obtain ⟨member, hmember, rfl⟩ := List.mem_map.1 hawaits
      obtain ⟨name, hname, rfl⟩ := List.mem_map.1 hmember
      rw [event]
      exact ⟨rfl, (List.mem_filter.1 hname).1⟩
    · obtain ⟨out, hout⟩ := hmutters
      rw [hout]
      rfl

theorem call_acts (calm : r.registry.outbox = []) (n : Nat) (request : Request) :
    Acts (r.May (.call n request)) (.call n request) r (r.call n request) := by
  cases request with
  | diagnose document => exact call_diagnose_acts r n (.inl rfl)
  | diagnoseAll documents => exact (call_diagnoseAll_acts r n documents rfl).1
  | format document token =>
      have hnames : Event.Names document (.call n (.format document token)) := rfl
      exact format_acts calm hnames ⟨rfl, rfl⟩ .edits _
  | fixAll document token editable =>
      have hnames : Event.Names document (.call n (.fixAll document token editable)) := rfl
      unfold call
      simp only
      split
      · exact (finish_rests r n _).acts
      · exact format_acts calm hnames ⟨rfl, rfl⟩ (.fix editable) _
  | shutdown => exact shutdown_acts r n rfl

theorem change_acts (r : Reviewer) (document : String) :
    Acts may (.change document) r (r.change document) := by
  unfold change
  simp only
  split
  · exact (Rests.refl r).acts
  · split
    · exact ⟨.arms document none rfl nofun rfl, fun _ => ⟨rfl, rfl⟩, fun _ _ h => .inl h, id⟩
    · refine ⟨.arms document (some ⟨r.timers, document⟩) rfl ?_ rfl, fun _ => ⟨rfl, rfl⟩,
        fun _ _ h => .inl h, id⟩
      rintro x ⟨⟩
      rfl

theorem close_eq (r : Reviewer) (document : String) :
    ∃ out, r.close document =
      { r with
        sessions := (r.desk.close (r.document document).uri).sessions
        sink := (r.desk.close (r.document document).uri).sink
        outbox := out } := by
  have hcancel : r.Mutters (((r.sessions.get? (r.document document).uri).map r.cancelNewest).getD r) := by
    cases r.sessions.get? (r.document document).uri with
    | none => exact .refl r
    | some number => exact cancelNewest_mutters r number
  obtain ⟨out, hout⟩ := hcancel
  unfold close
  simp only [hout]
  exact ⟨out, rfl⟩

theorem close_acts (r : Reviewer) (document : String) :
    Acts may (.close document) r (r.close document) := by
  obtain ⟨out, hout⟩ := close_eq r document
  rw [hout]
  exact ⟨.closes document rfl rfl, fun _ => ⟨rfl, rfl⟩, fun _ _ h => .inl h, id⟩

theorem elapsed_acts (r : Reviewer) (timer : Nat) :
    Acts may (.elapsed timer) r (r.elapsed timer) := by
  unfold elapsed
  split
  · exact (Rests.refl r).acts
  · rename_i number hfind
    split
    · exact (Rests.refl r).acts
    · rename_i debounce hpending
      obtain ⟨session, hsession, hdebounce⟩ := Option.bind_eq_some_iff.1 hpending
      obtain ⟨hlt, htimer, _⟩ := List.findIdx?_eq_some_iff_getElem.1 hfind
      have hget : r.sessions.all[number]? = some session := hsession
      rw [List.getElem?_eq_getElem hlt, Option.some.injEq] at hget
      rw [hget, hdebounce] at htimer
      have hevent : Event.elapsed timer = .elapsed debounce.timer := by
        simpa using (beq_iff_eq.1 htimer).symm
      obtain ⟨out, hout⟩ := dispatch_eq { r with sessions := r.sessions.cancelPending number } number
        debounce.document
      rw [hout]
      exact ⟨.elapses number session debounce hevent hsession hdebounce rfl, fun _ => ⟨rfl, rfl⟩,
        fun _ _ h => .inl h, id⟩

/-- The members of a call stay the same; they only get further. -/
theorem setMembers_rests {n : Nat} {c : Call} {members members' : List (String × Member)}
    (call : r.calls.get? n = some c) (stage : c.stage = .several members)
    (same : members'.map Prod.fst = members.map Prod.fst) :
    r.Rests (r.setMembers n c members') ∧ (r.setMembers n c members').desk = r.desk := by
  have hset : r.Rests (r.setCall n { c with stage := .several members' }) := by
    refine setCall_rests fun document hawaits => ⟨c, call, ?_⟩
    rw [stage]
    change document ∈ members.map Prod.fst
    rw [← same]
    exact hawaits
  unfold setMembers
  simp only
  split
  · exact ⟨hset.trans (emit_mutters _ _).rests, rfl⟩
  · exact ⟨hset, rfl⟩

theorem map_fst_setMember (members : List (String × Member)) (i : Nat) (m : Member) :
    (setMember members i m).map Prod.fst = members.map Prod.fst := by
  refine List.ext_getElem? fun j => ?_
  rw [List.getElem?_map, List.getElem?_map, setMember, List.getElem?_modify]
  cases members[j]? with
  | none => rfl
  | some entry =>
      by_cases hj : i = j
      · simp [hj]
      · simp [hj]

theorem member_acts (n i : Nat) {c : Call} (call : r.calls.get? n = some c) :
    Acts (r.May (.member n i)) (.member n i) r (r.member n i c) := by
  unfold member
  split
  · exact (finish_rests r n _).acts
  · split
    · rename_i members hstage
      split
      · exact (Rests.refl r).acts
      · rename_i name m hmember
        have hawaits : r.Awaits n name := by
          refine ⟨c, call, ?_⟩
          rw [hstage]
          exact List.mem_map.2 ⟨_, List.mem_of_getElem? hmember, rfl⟩
        have hmay : r.May (.member n i) name := .inr ⟨n, hawaits⟩
        -- The check of the member changes no call.
        have hcalls : (r.diagnose name).1.calls = r.calls := by
          cases hshell : (r.document name).isShell with
          | true =>
              obtain ⟨out, hout⟩ := diagnose_eq hshell
              rw [hout]
          | false =>
              obtain ⟨out, hout⟩ := diagnose_none hshell
              rw [hout]
        split
        · rename_i r₁ run hdiagnose
          rw [hdiagnose] at hcalls
          obtain ⟨hrests, hdesk⟩ := setMembers_rests (hcalls ▸ call) hstage
            (map_fst_setMember members i (.running run))
          exact (Acts.of_diagnose hmay hdiagnose).then hrests hdesk
        · rename_i r₁ hdiagnose
          rw [hdiagnose] at hcalls
          obtain ⟨hrests, hdesk⟩ := setMembers_rests (hcalls ▸ call) hstage
            (map_fst_setMember members i (.settled none))
          exact (Acts.of_diagnose hmay hdiagnose).then hrests hdesk
    · exact (Rests.refl r).acts

theorem begin_acts (calm : r.registry.outbox = []) (n : Nat) (run : Run) :
    Acts (r.May (.begin n)) (.begin n) r (r.begin n run) := by
  unfold Reviewer.begin
  split
  · exact (endRun_rests r n _).acts
  · have hcalm : (r.emit (.started n)).registry.outbox = [] := calm
    have hallowed : ∀ m document, (r.emit (.started n)).Awaits m document →
        r.May (.begin n) document := May.of_awaits
    exact Acts.of_mutters (emit_mutters r _) (tellRegistry_acts hcalm hallowed
      (.call (.run n) (.check run.document ⟨some (.run n), r.timeout⟩)))

theorem resume_rests {n : Nat} {c : Call} (call : r.calls.get? n = some c) (run : Nat)
    (outcome : Outcome Verdict) : r.Rests (r.resume n run outcome c) := by
  unfold resume
  split
  · exact .refl r
  · split
    · simp only
      split
      · exact setCall_rests fun _ h => h.elim
      · split
        · exact finish_rests r n _
        · exact finish_rests r n _
    · exact finish_rests r n _
    · exact finish_rests r n _
    · exact finish_rests r n _
    · rename_i members verdict hstage
      refine (setMembers_rests call hstage ?_).1
      rw [List.map_map]
      refine List.map_congr_left fun m _ => ?_
      change (if m.2 = .running run then (m.1, Member.settled (some verdict)) else m).1 = m.1
      split <;> rfl
    · exact (withoutEdits_rests r n _ _ _).1
    · exact finish_rests r n _
    · exact .refl r

theorem ended_rests (r : Reviewer) (run : Nat) : r.Rests (r.ended run) := by
  unfold ended
  split
  · exact .refl r
  · refine foldl_rests (fun r n => ?_) r _
    split
    · rename_i c call
      exact resume_rests call run _
    · exact .refl r

theorem abort_acts (calm : r.registry.outbox = []) {n : Nat} {c : Call}
    (call : r.calls.get? n = some c) :
    Acts (r.May (.abort n)) (.abort n) r (r.abort n c) := by
  have hset : r.Rests (r.setCall n { c with aborting := true }) :=
    setCall_rests fun document hawaits => ⟨c, call, hawaits⟩
  have hcalm : (r.setCall n { c with aborting := true }).registry.outbox = [] := calm
  unfold abort
  simp only
  split
  · have hallowed : ∀ m document, (r.setCall n { c with aborting := true }).Awaits m document →
        r.May (.abort n) document := fun m document hawaits =>
      .inr ⟨m, hset.awaits m document hawaits⟩
    have hacts := tellRegistry_acts (e := .abort n) hcalm hallowed (.abort (.host n))
    exact ⟨hacts.desk, hacts.places,
      fun m document hawaits => (hacts.awaits m document hawaits).imp_left (hset.awaits m document),
      hacts.calm⟩
  · exact (hset.trans (foldl_abortRun_rests hcalm _)).acts

theorem update_acts (r : Reviewer) (document text : String) :
    Acts may e r { r with buffers := r.buffers.change document (·.update text) } := by
  refine ⟨.rests rfl rfl rfl, fun name => ?_, fun _ _ h => .inl h, id⟩
  change (Buffers.find (r.buffers.change document (·.update text)) name).uri =
      (r.buffers.find name).uri ∧
    (Buffers.find (r.buffers.change document (·.update text)) name).isShell =
      (r.buffers.find name).isShell
  unfold Buffers.find
  rw [Keyed.get?_change]
  split
  · cases Keyed.get? r.buffers name with
    | none => exact ⟨rfl, rfl⟩
    | some d => exact ⟨rfl, rfl⟩
  · exact ⟨rfl, rfl⟩

theorem withCall_acts {n : Nat} {f : Call → Reviewer}
    (h : ∀ c, r.calls.get? n = some c → Acts may e r (f c)) : Acts may e r (r.withCall n f) := by
  unfold withCall
  split
  · rename_i c call
    exact h c call
  · exact (Rests.refl r).acts

/-- What one step of a review does. -/
theorem step_acts (calm : r.registry.outbox = []) (e : Event) : Acts (r.May e) e r (r.step e) := by
  cases e with
  | registry event => exact tellRegistry_acts calm May.of_awaits event
  | call n request => exact call_acts calm n request
  | change document => exact change_acts r document
  | close document => exact close_acts r document
  | update document text => exact update_acts r document text
  | configure debounce timeout onChange =>
      exact Rests.acts ⟨rfl, rfl, rfl, rfl, fun _ _ h => h, id⟩
  | elapsed timer => exact elapsed_acts r timer
  | member n i => exact withCall_acts fun c call => member_acts n i call
  | begin n =>
      unfold step
      simp only
      split
      · exact begin_acts calm n _
      · exact (Rests.refl r).acts
  | ended n => exact (ended_rests r n).acts
  | gathered n =>
      refine withCall_acts fun c call => ?_
      unfold gathered
      split
      · exact (finish_rests r n _).acts
      · split
        · exact (finish_rests r n _).acts
        · exact (Rests.refl r).acts
  | abort n => exact withCall_acts fun c call => abort_acts calm call

end Shellwright.Reviewer
