import Shellwright.Proofs.Review.Acting
import Shellwright.Proofs.Review.Deciding
/-!
# Steps that do not touch an address

What a step is about can be read off its event: a document, a timer, a run or a call. Whatever it does is
done to the address of that.
-/

namespace Shellwright.Reviewer

open Review

/-- Call `n` has a document of the address formatted. -/
def Formats (r : Reviewer) (uri : String) (n : Nat) : Prop :=
  ∃ document purpose, (r.calls.get? n).map Call.stage = some (.formatting document purpose) ∧
    (r.document document).uri = uri

/-- The event is about the address: one of its documents, the timer of its session, one of its runs, or
a call that formats one of its documents or waits for one of its runs. -/
def Touches (r : Reviewer) (uri : String) : Event → Prop
  | .registry event =>
    match event.key? with
    | some (.run k) => (r.run? uri k).isSome
    | some (.host n) => r.Formats uri n
    | none => False
  | .call _ (.diagnose document) | .call _ (.format document _) | .call _ (.fixAll document _ _)
  | .change document | .close document | .update document _ => (r.document document).uri = uri
  | .call _ .shutdown => True
  | .elapsed timer => ∃ n debounce s, r.pending? timer = some (n, debounce) ∧
      r.sessions.at? n = some s ∧ s.uri = uri
  | .member n i => ∃ document, r.memberAt n i = some document ∧ (r.document document).uri = uri
  | .begin k => (r.run? uri k).isSome
  | .abort n => r.Formats uri n ∨
      ∃ c, r.calls.get? n = some c ∧ ∃ k ∈ awaited c.stage, (r.run? uri k).isSome
  | _ => False

/-- The documents of the address are as they were. -/
def Holds (uri : String) (r r' : Reviewer) : Prop :=
  ∀ name, (r.document name).uri = uri → r'.document name = r.document name

variable {r r' r'' : Reviewer} {uri : String} {e : Event}

/-! ## Sessions -/

theorem run?_of_regards {k : Nat} (outcome : Outcome Registry.Reply)
    (h : r.Regards uri (.judges k outcome)) : (r.run? uri k).isSome := by
  obtain ⟨run, s, hrun, hs, huri⟩ := h
  rw [run?_eq_some.2 ⟨hrun, s, hs, huri⟩]
  rfl

/-- What the end of a call comes to is about the run, or the document that the call formats. -/
theorem ending_regards (key : CallKey) {outcome : Outcome Registry.Reply}
    (h : r.Regards uri (r.ending (key, outcome))) :
    match key with
    | .run k => (r.run? uri k).isSome = true
    | .host n => r.Formats uri n := by
  cases key with
  | run k => exact run?_of_regards outcome h
  | host n =>
      rcases r.ending_host n outcome with
        hrests | ⟨document, purpose, hstage, hchecks⟩
      · rw [hrests] at h
        exact h.elim
      · rw [hchecks] at h
        exact ⟨document, purpose, hstage, h⟩

/-- A call that has begun formats its document. -/
theorem formats_setCall {n : Nat} {document : String} {purpose : FormatPurpose}
    (h : (r.setCall n ⟨.formatting document purpose, false⟩).Formats uri n) :
    (r.document document).uri = uri := by
  obtain ⟨_, _, hstage, huri⟩ := h
  rw [show (r.setCall n ⟨.formatting document purpose, false⟩).calls.get? n = _ from
    Keyed.get?_put_self _ _ _] at hstage
  cases hstage
  exact huri

/-- The deed of a format that begins is about its document. -/
theorem heard_format_regards (calm : r.registry.outbox = []) {n : Nat} {document : String}
    {purpose : FormatPurpose} {request : Registry.Request}
    (h : r.Regards uri ((r.setCall n ⟨.formatting document purpose, false⟩).heard
      (.call (.host n) request))) : (r.document document).uri = uri := by
  rcases heard_ending (r := r.setCall n ⟨.formatting document purpose, false⟩) calm
    (.call (.host n) request) with hrests | ⟨key, outcome, hkey, hending⟩
  · rw [hrests] at h
    exact h.elim
  · cases hkey
    rw [hending] at h
    exact formats_setCall (ending_regards
      (r := r.setCall n ⟨.formatting document purpose, false⟩) (.host n) h)

/-- What the deed of a step is about its event is about. -/
theorem touches_of_regards (calm : r.registry.outbox = []) (h : r.Regards uri (r.deed e)) :
    r.Touches uri e := by
  cases e with
  | registry event =>
      rcases heard_ending calm event with hrests | ⟨key, outcome, hkey, hending⟩
      · rw [deed, hrests] at h
        exact h.elim
      · rw [deed, hending] at h
        have hof := ending_regards key h
        simp only [Touches, hkey]
        cases key with
        | run k => exact hof
        | host n => exact hof
  | call n request =>
      cases request with
      | diagnose document => exact h
      | diagnoseAll documents => exact h
      | format document token => exact heard_format_regards calm h
      | fixAll document token editable =>
          simp only [deed] at h
          split at h
          · exact heard_format_regards calm h
          · exact h.elim
      | shutdown => trivial
  | change document => exact h
  | close document => exact h
  | elapsed timer => exact h
  | member n i =>
      simp only [deed] at h
      cases hmember : r.memberAt n i with
      | none =>
          rw [hmember] at h
          exact h.elim
      | some document =>
          rw [hmember] at h
          exact ⟨document, hmember, h⟩
  | begin k =>
      simp only [deed] at h
      split at h
      · split at h
        · exact h.elim
        · rename_i run _ _
          rcases heard_ending calm (.call (.run k) (.check run.document ⟨some (.run k), r.timeout⟩))
            with hrests | ⟨key, outcome, hkey, hending⟩
          · rw [hrests] at h
            exact h.elim
          · cases hkey
            rw [hending] at h
            exact run?_of_regards outcome h
      · exact h.elim
  | _ => exact h.elim

/-- A step leaves alone the sessions and the diagnostics of every address that it does not touch. -/
theorem Ready.step_spares (h : r.Ready) (untouched : ¬ r.Touches uri e) :
    r.desk.Spares uri (r.step e).desk :=
  (deskAfter_spares h.sound h.flagged fun hregards =>
    untouched (touches_of_regards h.calm hregards)).agrees (step_agrees h.calm e)

theorem stopAct?_none {runs : List Nat} (h : ∀ k ∈ runs, (r.run? uri k).isSome = false) :
    r.stopAct? uri runs = none := by
  unfold stopAct?
  rw [List.filter_eq_nil_iff.2 fun k hk => by rw [h k hk]; exact Bool.false_ne_true]

/-- Nothing happens to an address that a step does not touch. -/
theorem act?_untouched (calm : r.registry.outbox = []) (untouched : ¬ r.Touches uri e) :
    r.act? uri e = none := by
  have hdeed : r.deedAct? uri (r.deed e) = none :=
    deedAct?_foreign fun hregards => untouched (touches_of_regards calm hregards)
  cases e with
  | registry event =>
      simp only [Touches] at untouched
      simp only [act?]
      cases hkey : event.key? with
      | none => exact hdeed
      | some key =>
          rw [hkey] at untouched
          cases key with
          | host n => exact hdeed
          | run k =>
              simp only at untouched ⊢
              rw [Option.not_isSome_iff_eq_none.1 untouched]
              rfl
  | begin k =>
      simp only [act?]
      rw [Option.not_isSome_iff_eq_none.1 untouched]
      rfl
  | abort n =>
      refine stopAct?_none fun k hk => ?_
      cases hcall : r.calls.get? n with
      | none =>
          rw [hcall] at hk
          cases hk
      | some c =>
          rw [hcall] at hk
          exact Bool.eq_false_iff.2 fun hof => untouched (.inr ⟨c, hcall, k, hk, hof⟩)
  | _ => exact hdeed

/-! ## Documents -/

theorem Holds.of_buffers (h : r'.buffers = r.buffers) : Holds uri r r' := by
  intro name _
  unfold document
  rw [h]

theorem Holds.trans (h : Holds uri r r') (h' : Holds uri r' r'') : Holds uri r r'' := by
  intro name huri
  have hsame := h name huri
  rw [h' name (by rw [hsame]; exact huri), hsame]

/-- Edits are applied to a document that has the address of the one they were meant for. -/
theorem applyEdits_holds {document : String} (foreign : (r.document document).uri ≠ uri)
    (editable : List String) (edits : List TextEdit) :
    Holds uri r (r.applyEdits document editable edits).1 := by
  intro name huri
  unfold applyEdits
  simp only
  split
  · rfl
  · rename_i target htarget
    have haddress := List.find?_some htarget
    have hother : name ≠ target := by
      rintro rfl
      exact foreign ((beq_iff_eq.1 haddress).symm.trans huri)
    change Buffers.find (Keyed.put r.buffers target _) name = r.buffers.find name
    unfold Buffers.find
    rw [Keyed.get?_put_of_ne _ hother]

theorem completeFormat_holds {document : String} (foreign : (r.document document).uri ≠ uri) (n : Nat)
    (purpose : FormatPurpose) (verdict : FormatVerdict) :
    Holds uri r (r.completeFormat n document purpose verdict) := by
  have hbuffers := (completeFormat_decides r n document purpose verdict).buffers
  cases purpose with
  | edits => exact .of_buffers hbuffers
  | fix editable =>
      rw [edited] at hbuffers
      split at hbuffers
      · exact .of_buffers hbuffers
      · exact (applyEdits_holds foreign editable verdict.edits).trans (.of_buffers hbuffers)

theorem completeCall_holds {n : Nat} (foreign : ¬ r.Formats uri n) (outcome : Outcome Registry.Reply) :
    Holds uri r (r.completeCall n outcome) := by
  unfold completeCall
  split
  · rename_i document purpose verdict hstage
    exact completeFormat_holds (fun huri => foreign ⟨document, purpose, hstage, huri⟩) n purpose verdict
  · exact .of_buffers rfl
  · exact .of_buffers rfl
  · exact .of_buffers rfl

theorem completeRun_buffers (r : Reviewer) (k : Nat) (outcome : Outcome Registry.Reply) :
    (r.completeRun k outcome).buffers = r.buffers := by
  unfold completeRun
  simp only
  split
  · unfold publish
    split
    · rfl
    · split
      · rfl
      · split <;> rfl
  · rfl
  · rfl

theorem Mutters.holds (h : r.Mutters r') : Holds uri r r' := .of_buffers h.rests.buffers

theorem Formats.of_mutters {n : Nat} (h : r.Mutters r') (formats : r'.Formats uri n) :
    r.Formats uri n := by
  obtain ⟨out, rfl⟩ := h
  exact formats

/-- The end of a call of the registry changes the documents that the call formats at most. -/
theorem tellRegistry_holds (calm : r.registry.outbox = []) {event : Registry.Event}
    (foreign : ∀ n, event.key? = some (.host n) → ¬ r.Formats uri n) :
    Holds uri r (r.tellRegistry event) := by
  have htold : Holds uri { r with registry := { r.registry.step r.buffers event with outbox := [] } }
      (r.tellRegistry event) := by
    rcases Registry.step_finishes_own calm r.buffers event with hnone | ⟨key, outcome, hkey, hone⟩
    · exact (foldl_absorb_mutters _ _ hnone).holds
    · obtain ⟨r₁, hbefore, hafter⟩ := foldl_absorb_one _
        { r with registry := { r.registry.step r.buffers event with outbox := [] } } hone
      refine hbefore.holds.trans (.trans ?_ hafter.holds)
      cases key with
      | run k => exact .of_buffers (completeRun_buffers r₁ k outcome)
      | host n =>
          refine completeCall_holds (fun hformats => ?_) outcome
          have hbefore := hformats.of_mutters hbefore
          exact foreign n hkey hbefore
  exact htold

theorem diagnose_holds {document : String} {result : Option Nat}
    (h : r.diagnose document = (r', result)) (buffers : r''.buffers = r'.buffers) :
    Holds uri r r'' :=
  .of_buffers (buffers.trans (diagnose_buffers h))

/-- The registry is asked to format a document for a call that begins. -/
theorem format_holds (calm : r.registry.outbox = []) {n : Nat} {document : String}
    {purpose : FormatPurpose} {request : Registry.Request} (foreign : (r.document document).uri ≠ uri) :
    Holds uri r ((r.setCall n ⟨.formatting document purpose, false⟩).tellRegistry
      (.call (.host n) request)) := by
  refine tellRegistry_holds (r := r.setCall n ⟨.formatting document purpose, false⟩) calm
    fun m hkey hformats => foreign ?_
  cases hkey
  exact formats_setCall hformats

theorem setMembers_buffers (r : Reviewer) (n : Nat) (c : Call) (members : List (String × Member)) :
    (r.setMembers n c members).buffers = r.buffers := by
  unfold setMembers
  simp only
  split <;> rfl

theorem call_holds (calm : r.registry.outbox = []) {n : Nat} {request : Request}
    (untouched : ¬ r.Touches uri (.call n request)) : Holds uri r (r.step (.call n request)) := by
  cases request with
  | diagnose document =>
      unfold step call
      simp only
      split
      · rename_i r₁ run hdiagnose
        exact diagnose_holds hdiagnose rfl
      · rename_i r₁ hdiagnose
        exact diagnose_holds hdiagnose rfl
  | diagnoseAll documents =>
      have hlater (m : List Nat) (r : Reviewer) :
          (m.foldl (fun r i => r.emit (.later (.member n i))) r).buffers = r.buffers := by
        induction m generalizing r with
        | nil => rfl
        | cons i rest ih => exact ih _
      unfold step call
      simp only
      split
      · exact .of_buffers rfl
      · exact .of_buffers (hlater _ _)
  | format document token => exact format_holds calm untouched
  | fixAll document token editable =>
      cases hshell : (r.document document).isShell with
      | true =>
          rw [step_fixAll hshell]
          exact format_holds calm untouched
      | false =>
          rw [step_fixAll_skipped hshell]
          exact .of_buffers rfl
  | shutdown => exact absurd trivial untouched

theorem abort_holds (calm : r.registry.outbox = []) {n : Nat} {c : Call}
    (call : r.calls.get? n = some c) (foreign : ¬ r.Formats uri n) : Holds uri r (r.abort n c) := by
  have hcalm : (r.setCall n { c with aborting := true }).registry.outbox = [] := calm
  unfold abort
  simp only
  split
  · rename_i document purpose hstage
    refine tellRegistry_holds hcalm fun m hkey hformats => foreign ?_
    cases hkey
    obtain ⟨document', purpose', hformatting, huri⟩ := hformats
    rw [show (r.setCall n _).calls.get? n = _ from Keyed.get?_put_self _ _ _] at hformatting
    exact ⟨document', purpose', by rw [call]; exact hformatting, huri⟩
  · exact .of_buffers (foldl_abortRun_rests hcalm _).buffers

theorem member_holds (r : Reviewer) (n i : Nat) (c : Call) : Holds uri r (r.member n i c) := by
  unfold member
  split
  · exact .of_buffers rfl
  · split
    · split
      · exact .of_buffers rfl
      · split
        · rename_i r₁ run hdiagnose
          exact diagnose_holds hdiagnose (setMembers_buffers r₁ n c _)
        · rename_i r₁ hdiagnose
          exact diagnose_holds hdiagnose (setMembers_buffers r₁ n c _)
    · exact .of_buffers rfl

/-- A step leaves alone the documents of every address that it does not touch. -/
theorem step_holds (calm : r.registry.outbox = []) (untouched : ¬ r.Touches uri e) :
    Holds uri r (r.step e) := by
  cases e with
  | registry event =>
      refine tellRegistry_holds calm fun n hkey hformats => untouched ?_
      simp only [Touches, hkey]
      exact hformats
  | call n request => exact call_holds calm untouched
  | change document =>
      unfold step change
      simp only
      split
      · exact .of_buffers rfl
      · split
        · exact .of_buffers rfl
        · exact .of_buffers rfl
  | close document =>
      obtain ⟨out, hout⟩ := close_eq r document
      unfold step
      simp only [hout]
      exact .of_buffers rfl
  | update document text =>
      intro name huri
      have hother : name ≠ document := by
        rintro rfl
        exact untouched huri
      change Buffers.find (r.buffers.change document (·.update text)) name = r.buffers.find name
      unfold Buffers.find
      rw [Keyed.get?_change, if_neg hother]
  | configure debounce timeout onChange => exact .of_buffers rfl
  | elapsed timer =>
      unfold step elapsed
      simp only
      split
      · exact .of_buffers rfl
      · rename_i number _
        split
        · exact .of_buffers rfl
        · rename_i debounce _
          obtain ⟨out, hout⟩ := dispatch_eq { r with sessions := r.sessions.cancelPending number }
            number debounce.document
          simp only [hout]
          exact .of_buffers rfl
  | member n i =>
      unfold step withCall
      simp only
      split
      · exact member_holds r n i _
      · exact .of_buffers rfl
  | begin k =>
      unfold step
      simp only
      split
      · unfold Reviewer.begin
        split
        · exact .of_buffers rfl
        · refine tellRegistry_holds (r := r.emit (.started k)) calm ?_
          rintro n ⟨⟩
      · exact .of_buffers rfl
  | ended k => exact .of_buffers (ended_rests r k).buffers
  | gathered n =>
      unfold step withCall gathered
      simp only
      split
      · split
        · exact .of_buffers rfl
        · split
          · exact .of_buffers rfl
          · exact .of_buffers rfl
      · exact .of_buffers rfl
  | abort n =>
      unfold step withCall
      simp only
      split
      · rename_i c call
        exact abort_holds calm call fun hformats => untouched (.inl hformats)
      · exact .of_buffers rfl

end Shellwright.Reviewer
