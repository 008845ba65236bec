import Shellwright.Proofs.Review.Endings
import Shellwright.Proofs.Review.Passing
/-!
# How a format is decided

The registry has given the verdict of the formatters. What becomes of the documents is settled there and
then; the reply is, too, although a run may come before it.
-/

namespace Shellwright.Review

/-- What a fix comes to with this verdict, when its edits are accepted or not. -/
def fixOutcome (v : FormatVerdict) (accepted : Bool) : FixOutcome :=
  if v.edits.isEmpty then
    if v.inconclusive then .inconclusive
    else if v.diagnostics.isEmpty then .unchanged
    else .refused
  else if accepted then .applied
  else .rejected

def FormatPurpose.reply (v : FormatVerdict) (accepted : Bool) : FormatPurpose → Reply
  | .edits => .formatted v
  | .fix _ => .fixed (fixOutcome v accepted)

/-- The call has this reply when the run that it waits for is over. -/
def Stage.Replies (reply : Reply) : Stage → Prop
  | .refreshing _ _ purpose v => v.edits = [] ∧ ∀ accepted, purpose.reply v accepted = reply
  | .applied _ => reply = .fixed .applied
  | _ => False

/-- The call formats a document, or waits for a run after that. -/
inductive Stage.Formats : Stage → Prop
  | asking (document : String) (purpose : FormatPurpose) : Formats (.formatting document purpose)
  | replies (stage : Stage) (reply : Reply) (replies : stage.Replies reply) : Formats stage

/-- The event begins a call of this number, of the review or of the registry. -/
def Event.Begins (n : Nat) : Event → Prop
  | .call m _ => m = n
  | .registry (.call (.host m) _) => m = n
  | _ => False

theorem Stage.Replies.unique {stage : Stage} {reply reply' : Reply} (h : stage.Replies reply)
    (h' : stage.Replies reply') : reply = reply' := by
  cases stage with
  | refreshing run document purpose v => exact (h.2 false).symm.trans (h'.2 false)
  | applied run => exact h.trans (Eq.symm h')
  | _ => exact h.elim

theorem FormatPurpose.reply_of_quiet {v : FormatVerdict} (h : v.edits = []) (a b : Bool)
    (purpose : FormatPurpose) : purpose.reply v a = purpose.reply v b := by
  cases purpose with
  | edits => rfl
  | fix editable => simp [reply, fixOutcome, h]

end Shellwright.Review

namespace Shellwright.Reviewer

open Review

/-- Whether the edits of a verdict are accepted where they are to be applied. -/
def accepts (r : Reviewer) (document : String) (v : FormatVerdict) : FormatPurpose → Bool
  | .edits => false
  | .fix editable => (r.applyEdits document editable v.edits).2

/-- The documents after the edits of a verdict. -/
def edited (r : Reviewer) (document : String) (v : FormatVerdict) : FormatPurpose → Buffers
  | .edits => r.buffers
  | .fix editable =>
    if v.edits.isEmpty then r.buffers else (r.applyEdits document editable v.edits).1.buffers

/-- The call is over, and this is how. -/
structure Ended (r : Reviewer) (n : Nat) (outcome : Outcome Reply) (r' : Reviewer) : Prop where
  gone : r'.calls.get? n = none
  ends : r'.endsOf n = r.endsOf n ++ [outcome]

/-- The verdict of the formatters has decided a call. -/
structure Decides (r : Reviewer) (n : Nat) (document : String) (purpose : FormatPurpose)
    (v : FormatVerdict) (r' : Reviewer) : Prop where
  buffers : r'.buffers = r.edited document v purpose
  reply : r.Ended n (.done (purpose.reply v (r.accepts document v purpose))) r' ∨
    (∃ c, r'.calls.get? n = some c ∧
      c.stage.Replies (purpose.reply v (r.accepts document v purpose))) ∧ r'.endsOf n = r.endsOf n

variable {r r' r'' : Reviewer} {n : Nat} {document : String} {purpose : FormatPurpose}
  {v : FormatVerdict}

/-! ## The end of one call -/

theorem endsOf_log (r : Reviewer) (level : LogLevel) (text : String) (n : Nat) :
    (r.log level text).endsOf n = r.endsOf n :=
  filterMap_emit_none rfl r

theorem finish_ended (r : Reviewer) (n : Nat) (outcome : Outcome Reply) :
    r.Ended n outcome (r.finish n outcome) where
  gone := (Keyed.get?_drop _ _ _).trans (if_pos rfl)
  ends := by
    have hend : Effect.endOf? n (.finish n outcome) = some outcome := if_pos rfl
    change (Reviewer.emit _ _).outbox.filterMap _ = _
    rw [filterMap_emit, hend]
    rfl

theorem Ended.after {outcome : Outcome Reply} (h : r'.Ended n outcome r'')
    (ends : r'.endsOf n = r.endsOf n) : r.Ended n outcome r'' :=
  ⟨h.gone, by rw [h.ends, ends]⟩

/-- A check of a document is dispatched; no call notices. -/
theorem diagnose_spares {result : Option Nat} (h : r.diagnose document = (r', result)) (n : Nat) :
    r'.calls.get? n = r.calls.get? n ∧ r'.endsOf n = r.endsOf n := by
  have hcarries : Carries (fun _ => False) r r' := .of_diagnose h
  exact hcarries.minds.spares n id

theorem diagnose_buffers {result : Option Nat} (h : r.diagnose document = (r', result)) :
    r'.buffers = r.buffers := by
  cases hshell : (r.document document).isShell with
  | true =>
      obtain ⟨out, hout⟩ := diagnose_eq hshell
      rw [hout] at h
      exact (congrArg (·.1.buffers) h).symm
  | false =>
      obtain ⟨out, hout⟩ := diagnose_none hshell
      rw [hout] at h
      exact (congrArg (·.1.buffers) h).symm

/-! ## The verdict -/

theorem withoutEdits_ended (r : Reviewer) (n : Nat) (document : String) (purpose : FormatPurpose)
    (quiet : v.edits = []) (accepted : Bool) :
    r.Ended n (.done (purpose.reply v accepted)) (r.withoutEdits n document v purpose) ∧
      (r.withoutEdits n document v purpose).buffers = r.buffers := by
  cases purpose with
  | edits => exact ⟨finish_ended r n _, rfl⟩
  | fix editable =>
      unfold withoutEdits unfixed
      simp only [FormatPurpose.reply, fixOutcome, quiet, List.isEmpty_nil, if_true]
      split
      · exact ⟨finish_ended r n _, rfl⟩
      · split
        · exact ⟨finish_ended r n _, rfl⟩
        · exact ⟨(finish_ended _ n _).after (endsOf_log r _ _ n), rfl⟩

theorem applyEdits_spares (r : Reviewer) (document : String) (editable : List String)
    (edits : List TextEdit) (n : Nat) :
    (r.applyEdits document editable edits).1.endsOf n = r.endsOf n := by
  have hcarries : Carries (fun _ => False) r (r.applyEdits document editable edits).1 :=
    applyEdits_carries r document editable edits
  exact (hcarries.minds.spares n id).2

theorem withEdits_decides (edits : v.edits ≠ []) :
    Decides r n document purpose v (r.withEdits n document v purpose) := by
  cases purpose with
  | edits => exact ⟨rfl, .inl (finish_ended r n _)⟩
  | fix editable =>
      have hsome : v.edits.isEmpty = false := by simpa using edits
      have hspares := applyEdits_spares r document editable v.edits n
      have hbuffers : (r.applyEdits document editable v.edits).1.buffers =
          r.edited document v (.fix editable) := by
        rw [edited, hsome]
        rfl
      have hreply : FormatPurpose.reply v (r.accepts document v (.fix editable)) (.fix editable) =
          .fixed (if (r.applyEdits document editable v.edits).2 then .applied else .rejected) := by
        rw [FormatPurpose.reply, fixOutcome, hsome, accepts]
        rfl
      generalize happly : r.applyEdits document editable v.edits = applied at hspares hbuffers hreply
      obtain ⟨r₁, accepted⟩ := applied
      unfold withEdits
      simp only [happly]
      cases accepted with
      | false =>
          refine ⟨hbuffers, .inl ?_⟩
          rw [hreply]
          exact (finish_ended _ n _).after ((endsOf_log r₁ _ _ n).trans hspares)
      | true =>
          simp only [Bool.not_true, Bool.false_eq_true, if_false]
          split
          · rename_i r₂ run hdiagnose
            refine ⟨(diagnose_buffers hdiagnose).trans hbuffers,
              .inr ⟨⟨⟨.applied run, false⟩, Keyed.get?_put_self _ _ _, hreply⟩, ?_⟩⟩
            exact (diagnose_spares hdiagnose n).2.trans hspares
          · rename_i r₂ hdiagnose
            refine ⟨(diagnose_buffers hdiagnose).trans hbuffers, .inl ?_⟩
            rw [hreply]
            exact (finish_ended r₂ n _).after ((diagnose_spares hdiagnose n).2.trans hspares)

theorem edited_of_quiet (quiet : v.edits = []) : r.edited document v purpose = r.buffers := by
  cases purpose with
  | edits => rfl
  | fix editable => rw [edited, quiet]; rfl

theorem completeFormat_decides (r : Reviewer) (n : Nat) (document : String)
    (purpose : FormatPurpose) (v : FormatVerdict) :
    Decides r n document purpose v (r.completeFormat n document purpose v) := by
  unfold completeFormat
  split
  · rename_i hedits
    exact withEdits_decides (by simpa using hedits)
  · rename_i hedits
    have hquiet : v.edits = [] := by simpa using hedits
    split
    · split
      · rename_i r₁ run hdiagnose
        refine ⟨(diagnose_buffers hdiagnose).trans (edited_of_quiet hquiet).symm,
          .inr ⟨⟨_, Keyed.get?_put_self _ _ _, hquiet, fun accepted => ?_⟩, ?_⟩⟩
        · exact FormatPurpose.reply_of_quiet hquiet _ _ purpose
        · exact (diagnose_spares hdiagnose n).2
      · rename_i r₁ hdiagnose
        obtain ⟨hended, hbuffers⟩ :=
          withoutEdits_ended r₁ n document purpose hquiet (r.accepts document v purpose)
        exact ⟨hbuffers.trans ((diagnose_buffers hdiagnose).trans (edited_of_quiet hquiet).symm),
          .inl (hended.after (diagnose_spares hdiagnose n).2)⟩
    · obtain ⟨hended, hbuffers⟩ :=
        withoutEdits_ended r n document purpose hquiet (r.accepts document v purpose)
      exact ⟨hbuffers.trans (edited_of_quiet hquiet).symm, .inl hended⟩

end Shellwright.Reviewer
