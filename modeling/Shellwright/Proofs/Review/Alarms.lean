import Shellwright.Proofs.Review.Steps
import Shellwright.Proofs.Review.Runs
/-!
# Only an edit sets a timer

Timers are numbered as they are set, and none is set but when a document is edited. What is set for
edits stays the same until the host sets it anew.
-/

namespace Shellwright.Review

/-- The timer that is set, and how long it takes. -/
def Effect.timer? : Effect → Option (Nat × Int)
  | .timer number delay => some (number, delay)
  | _ => none

end Shellwright.Review

namespace Shellwright.Reviewer

open Review

/-- The timers that are to be set, each with the time that it takes. -/
def alarms (r : Reviewer) : List (Nat × Int) :=
  r.outbox.filterMap Effect.timer?

/-- No timer is set, and what is set for edits is the same. -/
structure Untimed (r r' : Reviewer) : Prop where
  timers : r'.timers = r.timers
  debounce : r'.debounce = r.debounce
  timeout : r'.timeout = r.timeout
  onChange : r'.onChange = r.onChange
  alarms : r'.alarms = r.alarms

variable {r r' r'' : Reviewer}

theorem Untimed.refl (r : Reviewer) : r.Untimed r := ⟨rfl, rfl, rfl, rfl, rfl⟩

theorem Untimed.trans (h : r.Untimed r') (h' : r'.Untimed r'') : r.Untimed r'' :=
  ⟨h'.timers.trans h.timers, h'.debounce.trans h.debounce, h'.timeout.trans h.timeout,
    h'.onChange.trans h.onChange, h'.alarms.trans h.alarms⟩

theorem foldl_untimed {α : Type} {f : Reviewer → α → Reviewer}
    (h : ∀ (r : Reviewer) (a : α), r.Untimed (f r a)) (r : Reviewer) (l : List α) :
    r.Untimed (l.foldl f r) := by
  induction l generalizing r with
  | nil => exact .refl r
  | cons a rest ih => exact (h r a).trans (ih (f r a))

theorem emit_untimed {e : Effect} (h : e.timer? = none) (r : Reviewer) : r.Untimed (r.emit e) :=
  ⟨rfl, rfl, rfl, rfl, filterMap_emit_none h r⟩

theorem log_untimed (r : Reviewer) (level : LogLevel) (text : String) :
    r.Untimed (r.log level text) :=
  emit_untimed rfl r

theorem setCall_untimed (r : Reviewer) (n : Nat) (c : Call) : r.Untimed (r.setCall n c) :=
  ⟨rfl, rfl, rfl, rfl, rfl⟩

theorem finish_untimed (r : Reviewer) (n : Nat) (outcome : Outcome Reply) :
    r.Untimed (r.finish n outcome) :=
  ⟨rfl, rfl, rfl, rfl, filterMap_emit_none rfl { r with calls := r.calls.drop n }⟩

theorem cancelNewest_untimed (r : Reviewer) (number : Nat) : r.Untimed (r.cancelNewest number) := by
  unfold cancelNewest
  split
  · exact emit_untimed rfl r
  · exact .refl r

theorem dispatch_untimed (r : Reviewer) (number : Nat) (document : String) :
    r.Untimed (r.dispatch number document).1 :=
  (cancelNewest_untimed r number).trans ⟨rfl, rfl, rfl, rfl, filterMap_emit_none rfl _⟩

theorem diagnose_untimed {document : String} {result : Option Nat}
    (h : r.diagnose document = (r', result)) : r.Untimed r' := by
  have hfirst : (r.diagnose document).1 = r' := congrArg Prod.fst h
  rw [← hfirst]
  unfold diagnose
  simp only
  split
  · exact log_untimed r _ _
  · refine Untimed.trans ⟨?_, ?_, ?_, ?_, ?_⟩ (dispatch_untimed _ _ document)
    all_goals rfl

/-! ## Ends of calls and runs -/

theorem withoutEdits_untimed (r : Reviewer) (n : Nat) (document : String) (verdict : FormatVerdict)
    (purpose : FormatPurpose) : r.Untimed (r.withoutEdits n document verdict purpose) := by
  cases purpose with
  | edits => exact finish_untimed r n _
  | fix editable =>
      simp only [withoutEdits, unfixed]
      split
      · exact finish_untimed r n _
      · split
        · exact finish_untimed r n _
        · exact (log_untimed r _ _).trans (finish_untimed _ n _)

theorem withEdits_untimed (r : Reviewer) (n : Nat) (document : String) (verdict : FormatVerdict)
    (purpose : FormatPurpose) : r.Untimed (r.withEdits n document verdict purpose) := by
  cases purpose with
  | edits => exact finish_untimed r n _
  | fix editable =>
      have hedited : r.Untimed (r.applyEdits document editable verdict.edits).1 := by
        obtain ⟨buffers, hbuffers, _⟩ := applyEdits_eq r document editable verdict.edits
        rw [hbuffers]
        exact ⟨rfl, rfl, rfl, rfl, rfl⟩
      simp only [withEdits]
      split
      · exact hedited.trans ((log_untimed _ _ _).trans (finish_untimed _ n _))
      · split
        · rename_i hdiagnose
          exact hedited.trans ((diagnose_untimed hdiagnose).trans (setCall_untimed _ n _))
        · rename_i hdiagnose
          exact hedited.trans ((diagnose_untimed hdiagnose).trans (finish_untimed _ n _))

theorem completeFormat_untimed (r : Reviewer) (n : Nat) (document : String) (purpose : FormatPurpose)
    (verdict : FormatVerdict) : r.Untimed (r.completeFormat n document purpose verdict) := by
  unfold completeFormat
  split
  · exact withEdits_untimed r n document verdict purpose
  · split
    · split
      · rename_i hdiagnose
        exact (diagnose_untimed hdiagnose).trans (setCall_untimed _ n _)
      · rename_i hdiagnose
        exact (diagnose_untimed hdiagnose).trans (withoutEdits_untimed _ n document verdict purpose)
    · exact withoutEdits_untimed r n document verdict purpose

theorem completeCall_untimed (r : Reviewer) (n : Nat) (outcome : Outcome Registry.Reply) :
    r.Untimed (r.completeCall n outcome) := by
  unfold completeCall
  split
  · exact completeFormat_untimed r n _ _ _
  · exact finish_untimed r n _
  · exact finish_untimed r n _
  · exact emit_untimed rfl r

theorem endRun_untimed (r : Reviewer) (n : Nat) (outcome : Outcome Verdict) :
    r.Untimed (r.endRun n outcome) :=
  ⟨rfl, rfl, rfl, rfl, filterMap_emit_none rfl (r.setRun n _)⟩

theorem publish_untimed (r : Reviewer) (run : Run) (verdict : Verdict) :
    r.Untimed (r.publish run verdict) := by
  unfold publish
  split
  · exact .refl r
  · split
    · exact log_untimed r _ _
    · split
      · exact ⟨rfl, rfl, rfl, rfl, rfl⟩
      · exact log_untimed r _ _

theorem completeRun_untimed (r : Reviewer) (n : Nat) (outcome : Outcome Registry.Reply) :
    r.Untimed (r.completeRun n outcome) := by
  have hstop : r.Untimed (r.emit (.stopped n)) := emit_untimed rfl r
  unfold completeRun
  simp only
  split
  · exact hstop.trans ((publish_untimed _ _ _).trans (endRun_untimed _ n _))
  · exact hstop.trans (endRun_untimed _ n _)
  · exact hstop.trans (endRun_untimed _ n _)

theorem tellRegistry_untimed (r : Reviewer) (event : Registry.Event) :
    r.Untimed (r.tellRegistry event) := by
  have habsorb (r : Reviewer) (effect : Registry.Effect) : r.Untimed (r.absorb effect) := by
    cases effect with
    | finish key outcome =>
        cases key with
        | run n => exact completeRun_untimed r n outcome
        | host n => exact completeCall_untimed r n outcome
    | _ => exact emit_untimed rfl r
  have hfold := foldl_untimed habsorb
    { r with registry := { r.registry.step r.buffers event with outbox := [] } }
    (r.registry.step r.buffers event).outbox
  exact ⟨hfold.timers, hfold.debounce, hfold.timeout, hfold.onChange, hfold.alarms⟩

/-! ## Events -/

theorem abortRun_untimed (r : Reviewer) (n : Nat) : r.Untimed (r.abortRun n) := by
  unfold abortRun
  split
  · exact tellRegistry_untimed r _
  · exact ⟨rfl, rfl, rfl, rfl, rfl⟩

theorem abort_untimed (r : Reviewer) (n : Nat) (c : Call) : r.Untimed (r.abort n c) := by
  unfold abort
  simp only
  split
  · exact (setCall_untimed r n _).trans (tellRegistry_untimed _ _)
  · exact (setCall_untimed r n _).trans (foldl_untimed abortRun_untimed _ _)

theorem setMembers_untimed (r : Reviewer) (n : Nat) (c : Call) (members : List (String × Member)) :
    r.Untimed (r.setMembers n c members) := by
  unfold setMembers
  simp only
  split
  · exact (setCall_untimed r n _).trans (emit_untimed rfl _)
  · exact setCall_untimed r n _

theorem shutdown_untimed (r : Reviewer) (n : Nat) : r.Untimed (r.shutdown n) := by
  have hcancelled := foldl_untimed cancelNewest_untimed r r.sessions.registered.values
  have hclosed : r.Untimed { r.sessions.registered.values.foldl cancelNewest r with
      sessions := (r.sessions.registered.values.foldl cancelNewest r).sessions.closeAll } :=
    ⟨hcancelled.timers, hcancelled.debounce, hcancelled.timeout, hcancelled.onChange,
      hcancelled.alarms⟩
  unfold shutdown
  simp only
  split
  · exact hclosed.trans (finish_untimed _ n _)
  · exact hclosed.trans (setCall_untimed _ n _)

theorem call_untimed (r : Reviewer) (n : Nat) (request : Request) : r.Untimed (r.call n request) := by
  cases request with
  | diagnose document =>
      unfold call
      simp only
      split
      · rename_i hdiagnose
        exact (diagnose_untimed hdiagnose).trans (setCall_untimed _ n _)
      · rename_i hdiagnose
        exact (diagnose_untimed hdiagnose).trans (finish_untimed _ n _)
  | diagnoseAll documents =>
      unfold call
      simp only
      split
      · exact finish_untimed r n _
      · exact (setCall_untimed r n _).trans
          (foldl_untimed (fun r i => emit_untimed (e := .later (.member n i)) rfl r) _ _)
  | format document token => exact (setCall_untimed r n _).trans (tellRegistry_untimed _ _)
  | fixAll document token editable =>
      unfold call
      simp only
      split
      · exact finish_untimed r n _
      · exact (setCall_untimed r n _).trans (tellRegistry_untimed _ _)
  | shutdown => exact shutdown_untimed r n

theorem close_untimed (r : Reviewer) (document : String) : r.Untimed (r.close document) := by
  have hcancelled : r.Untimed
      (((r.sessions.get? (r.document document).uri).map r.cancelNewest).getD r) := by
    cases r.sessions.get? (r.document document).uri with
    | none => exact .refl r
    | some number => exact cancelNewest_untimed r number
  exact ⟨hcancelled.timers, hcancelled.debounce, hcancelled.timeout, hcancelled.onChange,
    hcancelled.alarms⟩

theorem elapsed_untimed (r : Reviewer) (timer : Nat) : r.Untimed (r.elapsed timer) := by
  unfold elapsed
  split
  · exact .refl r
  · split
    · exact .refl r
    · refine Untimed.trans ⟨?_, ?_, ?_, ?_, ?_⟩ (dispatch_untimed _ _ _)
      all_goals rfl

theorem member_untimed (r : Reviewer) (n i : Nat) (c : Call) : r.Untimed (r.member n i c) := by
  unfold member
  split
  · exact finish_untimed r n _
  · split
    · split
      · exact .refl r
      · split
        · rename_i hdiagnose
          exact (diagnose_untimed hdiagnose).trans (setMembers_untimed _ n c _)
        · rename_i hdiagnose
          exact (diagnose_untimed hdiagnose).trans (setMembers_untimed _ n c _)
    · exact .refl r

theorem resume_untimed (r : Reviewer) (n run : Nat) (outcome : Outcome Verdict) (c : Call) :
    r.Untimed (r.resume n run outcome c) := by
  unfold resume
  split
  · exact .refl r
  · split
    · simp only
      split
      · exact setCall_untimed r n _
      · split
        · exact finish_untimed r n _
        · exact finish_untimed r n _
    · exact finish_untimed r n _
    · exact finish_untimed r n _
    · exact finish_untimed r n _
    · exact setMembers_untimed r n c _
    · exact withoutEdits_untimed r n _ _ _
    · exact finish_untimed r n _
    · exact .refl r

theorem ended_untimed (r : Reviewer) (run : Nat) : r.Untimed (r.ended run) := by
  unfold ended
  split
  · exact .refl r
  · refine foldl_untimed (fun r n => ?_) r _
    split
    · exact resume_untimed r n run _ _
    · exact .refl r

theorem withCall_untimed (r : Reviewer) (n : Nat) {f : Call → Reviewer} (h : ∀ c, r.Untimed (f c)) :
    r.Untimed (r.withCall n f) := by
  unfold withCall
  split
  · exact h _
  · exact .refl r

/-- The event may set a timer, or sets how timers are set. -/
def Times : Event → Bool
  | .change _ => true
  | .configure .. => true
  | _ => false

theorem step_untimed {e : Event} (h : Times e = false) : r.Untimed (r.step e) := by
  cases e with
  | registry event => exact tellRegistry_untimed r event
  | call n request => exact call_untimed r n request
  | change document => cases h
  | close document => exact close_untimed r document
  | update document text => exact ⟨rfl, rfl, rfl, rfl, rfl⟩
  | configure debounce timeout onChange => cases h
  | elapsed timer => exact elapsed_untimed r timer
  | member n i => exact withCall_untimed r n (member_untimed r n i)
  | begin n =>
      unfold step
      simp only
      split
      · unfold Reviewer.begin
        split
        · exact endRun_untimed r n _
        · exact (emit_untimed rfl r).trans (tellRegistry_untimed _ _)
      · exact .refl r
  | ended n => exact ended_untimed r n
  | gathered n =>
      refine withCall_untimed r n fun c => ?_
      unfold gathered
      split
      · exact finish_untimed r n _
      · split
        · exact finish_untimed r n _
        · exact .refl r
  | abort n => exact withCall_untimed r n (abort_untimed r n)

/-- What an edited document waits for, when the clock can measure the time that it is to be quiet. -/
def armed (r : Reviewer) (document : String) : Option Debounce :=
  (r.debounce.filter Execution.isMeasurable).map fun _ => ⟨r.timers, document⟩

/-- An edit sets one timer, which takes as long as the document is to be quiet. -/
theorem change_alarms (on : r.onChange = true) {document : String}
    (shell : (r.document document).isShell = true) :
    (r.change document).timers = r.timers + (r.armed document).toList.length ∧
      (r.change document).alarms = r.alarms ++
        (r.debounce.filter Execution.isMeasurable).toList.map (r.timers, ·) := by
  unfold change armed
  simp only [on, shell]
  cases r.debounce.filter Execution.isMeasurable with
  | none => exact ⟨rfl, (List.append_nil _).symm⟩
  | some delay => exact ⟨rfl, filterMap_emit _ _ _⟩

/-- An edit that is passed over changes nothing. -/
theorem change_ignored {document : String}
    (ignored : (r.onChange && (r.document document).isShell) = false) : r.change document = r := by
  unfold change
  refine if_pos ?_
  rw [← Bool.not_and, ignored]
  rfl

theorem change_untimed {document : String} (shell : (r.document document).isShell = false) :
    r.Untimed (r.change document) := by
  rw [change_ignored (by rw [shell, Bool.and_false])]
  exact .refl r

/-- An edit leaves what is set for edits as it is. -/
theorem change_settings (r : Reviewer) (document : String) :
    (r.change document).debounce = r.debounce ∧ (r.change document).onChange = r.onChange := by
  unfold change
  simp only
  split
  · exact ⟨rfl, rfl⟩
  · split
    · exact ⟨rfl, rfl⟩
    · exact ⟨rfl, rfl⟩

end Shellwright.Reviewer
