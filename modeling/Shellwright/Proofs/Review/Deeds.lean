import Shellwright.Proofs.Review.Endings
import Shellwright.Proofs.Review.Passing
import Shellwright.Proofs.Review.Sessions
/-!
# What each step does

Of all that a step does the sessions of a review notice one thing at most: a document is checked, edited
or closed, a timer runs out, the review is shut down, or the check of a run comes to its end. What that
is can be told before the step, and so can the desk after it.
-/

namespace Shellwright.Review

/-- What the sessions of a review notice of a step. -/
inductive Deed
  | checks (document : String)
  | edits (document : String)
  | elapses (timer : Nat)
  | closes (document : String)
  | shuts
  /-- The registry has ended the check of a run. -/
  | judges (run : Nat) (outcome : Outcome Registry.Reply)
  | rests

/-- Run `k` has been called off before it has begun. -/
def Desk.dropped (d : Desk) (k : Nat) : Bool :=
  d.runs[k]?.any (·.dropped)

/-- The desks differ at most in how runs have ended, or which have been called off. -/
structure Desk.Agrees (d d' : Desk) : Prop where
  sessions : d'.sessions = d.sessions
  runs : d'.runs.map Run.ticket = d.runs.map Run.ticket
  sink : d'.sink = d.sink

/-- The desks differ at most in how runs have ended. -/
structure Desk.Keeps (d d' : Desk) : Prop extends d.Agrees d' where
  dropped : d'.dropped = d.dropped

theorem Desk.Keeps.refl (d : Desk) : d.Keeps d := ⟨⟨rfl, rfl, rfl⟩, rfl⟩

theorem Desk.Keeps.of_eq {d d' : Desk} (h : d' = d) : d.Keeps d' := h ▸ .refl d

theorem Desk.Keeps.trans {d d' d'' : Desk} (h : d.Keeps d') (h' : d'.Keeps d'') : d.Keeps d'' :=
  ⟨⟨h'.sessions.trans h.sessions, h'.runs.trans h.runs, h'.sink.trans h.sink⟩,
    h'.dropped.trans h.dropped⟩

/-- A run ends. -/
theorem Desk.dropped_modify (d : Desk) (n : Nat) {f : Run → Run}
    (h : ∀ run, (f run).dropped = run.dropped) :
    Desk.dropped { d with runs := d.runs.modify n f } = d.dropped := by
  funext k
  unfold Desk.dropped
  simp only [List.getElem?_modify]
  split
  · cases d.runs[k]? with
    | none => rfl
    | some run => exact h run
  · cases d.runs[k]? <;> rfl

/-- A run that is dispatched has not been called off. -/
theorem Desk.dropped_append (d : Desk) (run : Run) (h : run.dropped = false) :
    Desk.dropped { d with runs := d.runs ++ [run] } = d.dropped := by
  funext k
  unfold Desk.dropped
  simp only [List.getElem?_append]
  split
  · rfl
  · rename_i hge
    rw [List.getElem?_eq_none (Nat.le_of_not_lt hge), List.getElem?_singleton]
    split
    · exact h
    · rfl

end Shellwright.Review

namespace Shellwright.Reviewer

open Review

/-! ## What a step is going to do -/

/-- The session that waits for a timer, and what it waits for. -/
def pending? (r : Reviewer) (timer : Nat) : Option (Nat × Debounce) :=
  (r.sessions.all.findIdx? fun session => session.debounce.any (·.timer == timer)).bind
    fun number => ((r.sessions.at? number).bind (·.debounce)).map fun debounce => (number, debounce)

/-- The verdict of a formatter has the document checked anew. -/
def rechecks (r : Reviewer) (document : String) (verdict : FormatVerdict) : FormatPurpose → Bool
  | .edits => verdict.edits.isEmpty && verdict.diagnostics.any Diagnostic.isBlocking
  | .fix editable =>
    if verdict.edits.isEmpty then verdict.diagnostics.any Diagnostic.isBlocking
    else (r.applyEdits document editable verdict.edits).2

/-- What comes of the end of a call of the registry. -/
def ending (r : Reviewer) : CallKey × Outcome Registry.Reply → Deed
  | (.run n, outcome) => .judges n outcome
  | (.host n, outcome) =>
    match (r.calls.get? n).map Call.stage, outcome with
    | some (.formatting document purpose), .done (.formatted verdict) =>
      if r.rechecks document verdict purpose then .checks document else .rests
    | _, _ => .rests

/-- What comes of an event of the registry. -/
def heard (r : Reviewer) (event : Registry.Event) : Deed :=
  ((r.registry.step r.buffers event).finishes.head?.map r.ending).getD .rests

/-- The document that is next to be checked for a call about several. -/
def memberAt (r : Reviewer) (n i : Nat) : Option String :=
  (r.calls.get? n).bind fun
    | ⟨.several members, false⟩ => members[i]?.map Prod.fst
    | _ => none

def deed (r : Reviewer) : Event → Deed
  | .registry event => r.heard event
  | .call _ (.diagnose document) => .checks document
  | .call n (.format document token) =>
    (r.setCall n ⟨.formatting document .edits, false⟩).heard
      (.call (.host n) (.format document ⟨token, r.timeout⟩))
  | .call n (.fixAll document token editable) =>
    if (r.document document).isShell then
      (r.setCall n ⟨.formatting document (.fix editable), false⟩).heard
        (.call (.host n) (.format document ⟨token, r.timeout⟩))
    else .rests
  | .call _ .shutdown => .shuts
  | .change document => .edits document
  | .close document => .closes document
  | .elapsed timer => .elapses timer
  | .member n i => ((r.memberAt n i).map .checks).getD .rests
  | .begin n =>
    match r.runs[n]? with
    | some run =>
      if run.dropped then .rests
      else r.heard (.call (.run n) (.check run.document ⟨some (.run n), r.timeout⟩))
    | none => .rests
  | _ => .rests

/-- The desk when the check of a run has come to its end. -/
def judged (r : Reviewer) (n : Nat) : Outcome Registry.Reply → Desk
  | .done (.checked verdict) =>
    match r.runs[n]? with
    | some run =>
      match r.sessions.at? run.session with
      | some session =>
        if !verdict.inconclusive && session.mayPublish run.sequence then
          r.desk.publish n run session verdict
        else r.desk
      | none => r.desk
    | none => r.desk
  | _ => r.desk

/-- The desk after a deed. -/
def deskAfter (r : Reviewer) : Deed → Desk
  | .checks document =>
    if (r.document document).isShell then r.desk.diagnose (r.document document).uri document
    else r.desk
  | .edits document =>
    if r.onChange && (r.document document).isShell then
      r.desk.arm (r.document document).uri
        ((r.debounce.filter Execution.isMeasurable).map fun _ => ⟨r.timers, document⟩)
    else r.desk
  | .elapses timer =>
    match r.pending? timer with
    | some (number, debounce) => r.desk.elapse number debounce.document
    | none => r.desk
  | .closes document => r.desk.close (r.document document).uri
  | .shuts => r.desk.shut
  | .judges n outcome => r.judged n outcome
  | .rests => r.desk

variable {r r' r'' : Reviewer}

theorem Rests.agrees (h : r.Rests r') : r.desk.Agrees r'.desk :=
  ⟨h.sessions, h.runs, h.sink⟩

theorem Mutters.keeps (h : r.Mutters r') : r.desk.Keeps r'.desk := .of_eq h.desk

theorem endRun_keeps (r : Reviewer) (n : Nat) (outcome : Outcome Verdict) :
    r.desk.Keeps (r.endRun n outcome).desk :=
  ⟨(endRun_rests r n outcome).agrees, Desk.dropped_modify r.desk n fun _ => rfl⟩

/-! ## Runs and formats -/

theorem diagnose_desk (r : Reviewer) (document : String) :
    (r.diagnose document).1.desk = r.deskAfter (.checks document) := by
  cases hshell : (r.document document).isShell with
  | true =>
      obtain ⟨out, hout⟩ := diagnose_eq hshell
      rw [hout]
      simp only [deskAfter, hshell, if_true]
      rfl
  | false =>
      obtain ⟨out, hout⟩ := diagnose_none hshell
      rw [hout]
      simp only [deskAfter, hshell]
      rfl

/-- A check of a document, after which its call goes on or ends. -/
theorem diagnose_keeps {document : String} {result : Option Nat}
    (h : r.diagnose document = (r', result)) (desk : r''.desk = r'.desk) :
    (r.deskAfter (.checks document)).Keeps r''.desk := by
  refine .of_eq ?_
  rw [← diagnose_desk, h]
  exact desk

/-- The verdict of a run that goes on to its end. -/
theorem publish_keeps {n : Nat} {run : Run} (hrun : r.runs[n]? = some run) (verdict : Verdict) :
    (r.judged n (.done (.checked verdict))).Keeps
      ((r.publish run verdict).endRun n (.done verdict)).desk := by
  have hlog (text : String) : r.desk.Keeps ((r.log .debug text).endRun n (.done verdict)).desk :=
    (log_mutters r .debug text).keeps.trans (endRun_keeps _ n _)
  unfold judged publish
  simp only [hrun]
  cases r.sessions.at? run.session with
  | none => exact endRun_keeps r n _
  | some session =>
      simp only
      cases hinconclusive : verdict.inconclusive with
      | true => exact hlog _
      | false =>
          cases hnewest : session.mayPublish run.sequence with
          | true => exact .of_eq rfl
          | false => exact hlog _

theorem completeRun_keeps (r : Reviewer) (n : Nat) (outcome : Outcome Registry.Reply) :
    (r.judged n outcome).Keeps (r.completeRun n outcome).desk := by
  have hend (outcome : Outcome Verdict) :
      r.desk.Keeps ((r.emit (.stopped n)).endRun n outcome).desk :=
    (emit_mutters r _).keeps.trans (endRun_keeps _ n outcome)
  unfold completeRun
  simp only
  cases hrun : (r.emit (.stopped n)).runs[n]? with
  | some run =>
      cases outcome with
      | raised trouble => exact hend (.raised trouble)
      | aborted => exact hend .aborted
      | done reply =>
          cases reply with
          | checked verdict => exact publish_keeps (r := r.emit (.stopped n)) hrun verdict
          | _ => exact hend .aborted
  | none =>
      have hrun : r.runs[n]? = none := hrun
      have hnone : r.judged n outcome = r.desk := by
        unfold judged
        split
        · rw [hrun]
        · rfl
      rw [hnone]
      cases outcome with
      | raised trouble => exact hend (.raised trouble)
      | _ => exact hend .aborted

/-- The edits of a formatter move no document. -/
theorem deskAfter_edited {buffers : Buffers}
    (places : ∀ name, (buffers.find name).uri = (r.document name).uri ∧
      (buffers.find name).isShell = (r.document name).isShell) (document : String) :
    deskAfter { r with buffers := buffers } (.checks document) = r.deskAfter (.checks document) := by
  obtain ⟨huri, hshell⟩ := places document
  unfold Reviewer.document at huri hshell
  simp only [deskAfter, Reviewer.document, huri, hshell]
  rfl

theorem withEdits_keeps (r : Reviewer) (n : Nat) (document : String) (verdict : FormatVerdict)
    (purpose : FormatPurpose) (edits : verdict.edits.isEmpty = false) :
    (r.deskAfter (if r.rechecks document verdict purpose then .checks document else .rests)).Keeps
      (r.withEdits n document verdict purpose).desk := by
  cases purpose with
  | edits =>
      simp only [rechecks, edits]
      exact .of_eq rfl
  | fix editable =>
      obtain ⟨buffers, hbuffers, hplaces⟩ := applyEdits_eq r document editable verdict.edits
      simp only [rechecks, edits, withEdits]
      cases happly : r.applyEdits document editable verdict.edits with
      | mk r₁ accepted =>
          rw [happly] at hbuffers
          subst hbuffers
          cases accepted with
          | false => exact .of_eq rfl
          | true =>
              have hsame := deskAfter_edited hplaces document
              simp only [Bool.not_true, Bool.false_eq_true, if_false, if_true]
              rw [← hsame]
              split
              · rename_i r₂ run hdiagnose
                exact diagnose_keeps hdiagnose rfl
              · rename_i r₂ hdiagnose
                exact diagnose_keeps hdiagnose rfl

theorem completeFormat_keeps (r : Reviewer) (n : Nat) (document : String) (purpose : FormatPurpose)
    (verdict : FormatVerdict) :
    (r.deskAfter (if r.rechecks document verdict purpose then .checks document else .rests)).Keeps
      (r.completeFormat n document purpose verdict).desk := by
  unfold completeFormat
  cases hedits : verdict.edits.isEmpty with
  | false => exact withEdits_keeps r n document verdict purpose hedits
  | true =>
      have hrechecks : r.rechecks document verdict purpose =
          verdict.diagnostics.any Diagnostic.isBlocking := by
        cases purpose <;> simp [rechecks, hedits]
      rw [hrechecks]
      cases verdict.diagnostics.any Diagnostic.isBlocking with
      | false => exact .of_eq (withoutEdits_rests r n document verdict purpose).2
      | true =>
          simp only [Bool.not_true, Bool.false_eq_true, if_false, if_true]
          split
          · rename_i r₁ run hdiagnose
            exact diagnose_keeps hdiagnose rfl
          · rename_i r₁ hdiagnose
            exact diagnose_keeps hdiagnose (withoutEdits_rests r₁ n document verdict purpose).2

theorem completeCall_keeps (r : Reviewer) (n : Nat) (outcome : Outcome Registry.Reply) :
    (r.deskAfter (r.ending (.host n, outcome))).Keeps (r.completeCall n outcome).desk := by
  unfold completeCall ending
  simp only
  cases (r.calls.get? n).map Call.stage with
  | none => exact .of_eq rfl
  | some stage =>
      cases stage with
      | formatting document purpose =>
          cases outcome with
          | raised trouble => exact .of_eq rfl
          | aborted => exact .of_eq rfl
          | done reply =>
              cases reply with
              | formatted verdict => exact completeFormat_keeps r n document purpose verdict
              | _ => exact .of_eq rfl
      | _ => exact .of_eq rfl

/-! ## Steps -/

theorem rechecks_congr (buffers : r'.buffers = r.buffers) : r'.rechecks = r.rechecks := by
  funext document verdict purpose
  unfold rechecks applyEdits Reviewer.document
  rw [buffers]
  cases purpose with
  | edits => rfl
  | fix editable =>
      simp only
      split
      · rfl
      · split <;> rfl

theorem ending_congr (calls : r'.calls = r.calls) (buffers : r'.buffers = r.buffers) :
    r'.ending = r.ending := by
  funext ⟨key, outcome⟩
  unfold ending
  rw [calls, rechecks_congr buffers]

theorem deskAfter_mutters (h : r.Mutters r') (deed : Deed) : r'.deskAfter deed = r.deskAfter deed := by
  obtain ⟨out, rfl⟩ := h
  cases deed <;> rfl

theorem ending_mutters (h : r.Mutters r') : r'.ending = r.ending := by
  obtain ⟨out, rfl⟩ := h
  exact ending_congr rfl rfl

theorem tellRegistry_keeps (calm : r.registry.outbox = []) (event : Registry.Event) :
    (r.deskAfter (r.heard event)).Keeps (r.tellRegistry event).desk := by
  have htold (deed : Deed) (registry : Registry) :
      deskAfter { r with registry := registry } deed = r.deskAfter deed := by
    cases deed <;> rfl
  unfold heard
  rcases Registry.step_finishes calm r.buffers event with hnone | ⟨key, outcome, hone⟩
  · rw [hnone]
    exact .of_eq (foldl_absorb_mutters _ _ hnone).desk
  · obtain ⟨r₁, hbefore, hafter⟩ := foldl_absorb_one _
      { r with registry := { r.registry.step r.buffers event with outbox := [] } } hone
    have hkeeps : (r₁.deskAfter (r₁.ending (key, outcome))).Keeps
        (r₁.absorb (.finish key outcome)).desk := by
      cases key with
      | run n => exact completeRun_keeps r₁ n outcome
      | host n => exact completeCall_keeps r₁ n outcome
    rw [ending_mutters hbefore, deskAfter_mutters hbefore, htold] at hkeeps
    have hending : ending { r with
        registry := { r.registry.step r.buffers event with outbox := [] } } = r.ending :=
      ending_congr rfl rfl
    rw [hending] at hkeeps
    rw [hone]
    unfold tellRegistry
    rw [hafter.desk]
    exact hkeeps

theorem call_keeps (calm : r.registry.outbox = []) (n : Nat) (request : Request) :
    (r.deskAfter (r.deed (.call n request))).Keeps (r.call n request).desk := by
  have hset (c : Call) (deed : Deed) : (r.setCall n c).deskAfter deed = r.deskAfter deed := by
    cases deed <;> rfl
  cases request with
  | diagnose document =>
      unfold call
      simp only
      split
      · rename_i r₁ run hdiagnose
        exact diagnose_keeps hdiagnose rfl
      · rename_i r₁ hdiagnose
        exact diagnose_keeps hdiagnose rfl
  | diagnoseAll documents =>
      have hacts : Acts (fun _ => True) (.call n (.diagnoseAll documents)) r _ ∧ _ :=
        call_diagnoseAll_acts r n documents rfl
      exact .of_eq hacts.2
  | format document token =>
      have htold := tellRegistry_keeps (r := r.setCall n ⟨.formatting document .edits, false⟩) calm
        (.call (.host n) (.format document ⟨token, r.timeout⟩))
      rw [hset] at htold
      exact htold
  | fixAll document token editable =>
      cases hshell : (r.document document).isShell with
      | true =>
          have htold := tellRegistry_keeps
            (r := r.setCall n ⟨.formatting document (.fix editable), false⟩) calm
            (.call (.host n) (.format document ⟨token, r.timeout⟩))
          rw [hset] at htold
          have hdeed : r.deed (.call n (.fixAll document token editable)) =
              (r.setCall n ⟨.formatting document (.fix editable), false⟩).heard
                (.call (.host n) (.format document ⟨token, r.timeout⟩)) := if_pos hshell
          rw [hdeed]
          change (r.deskAfter _).Keeps (r.step (.call n (.fixAll document token editable))).desk
          rw [step_fixAll hshell]
          exact htold
      | false =>
          have hdeed : r.deed (.call n (.fixAll document token editable)) = .rests :=
            if_neg (by simp [hshell])
          rw [hdeed]
          change (r.deskAfter _).Keeps (r.step (.call n (.fixAll document token editable))).desk
          rw [step_fixAll_skipped hshell]
          exact .of_eq rfl
  | shutdown =>
      obtain ⟨out, hout⟩ := foldl_mutters cancelNewest_mutters r r.sessions.registered.values
      unfold call shutdown
      simp only [hout]
      split
      · exact .of_eq rfl
      · exact .of_eq rfl

theorem change_keeps (r : Reviewer) (document : String) :
    (r.deskAfter (.edits document)).Keeps (r.change document).desk := by
  unfold change deskAfter
  simp only
  cases honChange : r.onChange with
  | false => exact .of_eq rfl
  | true =>
      cases hshell : (r.document document).isShell with
      | false => exact .of_eq rfl
      | true =>
          cases r.debounce.filter Execution.isMeasurable with
          | none => exact .of_eq rfl
          | some delay => exact .of_eq rfl

theorem elapsed_keeps (r : Reviewer) (timer : Nat) :
    (r.deskAfter (.elapses timer)).Keeps (r.elapsed timer).desk := by
  unfold elapsed
  simp only [deskAfter, pending?]
  cases r.sessions.all.findIdx? fun session => session.debounce.any (·.timer == timer) with
  | none => exact .of_eq rfl
  | some number =>
      simp only [Option.bind_some]
      cases (r.sessions.at? number).bind (·.debounce) with
      | none => exact .of_eq rfl
      | some debounce =>
          obtain ⟨out, hout⟩ := dispatch_eq { r with sessions := r.sessions.cancelPending number }
            number debounce.document
          simp only [hout]
          exact .of_eq rfl

theorem setMembers_desk (r : Reviewer) (n : Nat) (c : Call) (members : List (String × Member)) :
    (r.setMembers n c members).desk = r.desk := by
  unfold setMembers
  simp only
  split <;> rfl

theorem member_keeps (n i : Nat) {c : Call} (call : r.calls.get? n = some c) :
    (r.deskAfter (r.deed (.member n i))).Keeps (r.member n i c).desk := by
  obtain ⟨stage, aborting⟩ := c
  simp only [member, deed, memberAt, call, Option.bind_some]
  cases aborting with
  | true => cases stage <;> exact .of_eq rfl
  | false =>
      cases stage with
      | several members =>
          simp only [Bool.false_eq_true, if_false]
          cases members[i]? with
          | none => exact .of_eq rfl
          | some entry =>
              obtain ⟨name, m⟩ := entry
              simp only [Option.map_some, Option.getD_some]
              split
              · rename_i r₁ run hdiagnose
                exact diagnose_keeps hdiagnose (setMembers_desk _ _ _ _)
              · rename_i r₁ hdiagnose
                exact diagnose_keeps hdiagnose (setMembers_desk _ _ _ _)
      | _ => exact .of_eq rfl

/-- A call that is not under way is not about any document. -/
theorem memberAt_none {n : Nat} (call : r.calls.get? n = none) (i : Nat) : r.memberAt n i = none := by
  simp only [memberAt, call, Option.bind_none]

theorem heard_abort (calm : r.registry.outbox = []) (n : Nat) :
    r.heard (.abort (.host n)) = .rests := by
  unfold heard
  rcases Registry.abort_finishes calm r.buffers (.host n) with hnone | hone
  · rw [hnone]
    rfl
  · rw [hone]
    simp only [List.head?_cons, Option.map_some, Option.getD_some, ending]
    split
    · rename_i hformatted
      cases hformatted
    · rfl

/-- To call a call off is noticed by no session. -/
theorem abort_agrees (calm : r.registry.outbox = []) (n : Nat) (c : Call) :
    r.desk.Agrees (r.abort n c).desk := by
  have hcalm : (r.setCall n { c with aborting := true }).registry.outbox = [] := calm
  unfold abort
  simp only
  split
  · have htold := tellRegistry_keeps hcalm (.abort (.host n))
    rw [heard_abort hcalm] at htold
    exact htold.toAgrees
  · exact (foldl_abortRun_rests hcalm _).agrees

theorem resume_desk (r : Reviewer) (n run : Nat) (outcome : Outcome Verdict) (c : Call) :
    (r.resume n run outcome c).desk = r.desk := by
  unfold resume
  split
  · rfl
  · split
    · simp only
      split
      · rfl
      · split <;> rfl
    · rfl
    · rfl
    · rfl
    · exact setMembers_desk r n c _
    · exact (withoutEdits_rests r n _ _ _).2
    · rfl
    · rfl

theorem ended_desk (r : Reviewer) (run : Nat) : (r.ended run).desk = r.desk := by
  unfold ended
  split
  · rfl
  · rename_i outcome houtcome
    clear houtcome
    generalize r.calls.keys = keys
    induction keys generalizing r with
    | nil => rfl
    | cons n rest ih =>
        rw [List.foldl_cons, ih]
        split
        · exact resume_desk r n run outcome _
        · rfl

/-- The desk after a step; to call a call off may call off runs that have not begun. -/
theorem step_keeps (calm : r.registry.outbox = []) {e : Event} (kept : ∀ n, e ≠ .abort n) :
    (r.deskAfter (r.deed e)).Keeps (r.step e).desk := by
  cases e with
  | registry event => exact tellRegistry_keeps calm event
  | call n request => exact call_keeps calm n request
  | change document => exact change_keeps r document
  | close document =>
      obtain ⟨out, hout⟩ := close_eq r document
      unfold step
      simp only [hout]
      exact .of_eq rfl
  | update document text => exact .of_eq rfl
  | configure debounce timeout onChange => exact .of_eq rfl
  | elapsed timer => exact elapsed_keeps r timer
  | member n i =>
      unfold step withCall
      simp only
      split
      · rename_i c call
        exact member_keeps n i call
      · rename_i call
        simp only [deed, memberAt_none call]
        exact .of_eq rfl
  | begin n =>
      unfold step deed
      simp only
      cases r.runs[n]? with
      | none => exact .of_eq rfl
      | some run =>
          simp only [Reviewer.begin]
          cases run.dropped with
          | true => exact endRun_keeps r n .aborted
          | false =>
              have hheard (event : Registry.Event) : (r.emit (.started n)).heard event =
                  r.heard event := by
                unfold heard
                rw [ending_mutters (emit_mutters r (.started n))]
                rfl
              have htold := tellRegistry_keeps (r := r.emit (.started n)) calm
                (.call (.run n) (.check run.document ⟨some (.run n), r.timeout⟩))
              rw [hheard, deskAfter_mutters (emit_mutters r (.started n))] at htold
              exact htold
  | ended n => exact .of_eq (ended_desk r n)
  | gathered n =>
      unfold step withCall gathered
      simp only
      split
      · split
        · exact .of_eq rfl
        · split
          · exact .of_eq rfl
          · exact .of_eq rfl
      · exact .of_eq rfl
  | abort n => exact absurd rfl (kept n)

theorem step_agrees (calm : r.registry.outbox = []) (e : Event) :
    (r.deskAfter (r.deed e)).Agrees (r.step e).desk := by
  by_cases habort : ∃ n, e = .abort n
  · obtain ⟨n, rfl⟩ := habort
    unfold step withCall
    simp only
    split
    · exact abort_agrees calm n _
    · exact ⟨rfl, rfl, rfl⟩
  · exact (step_keeps calm fun n heq => habort ⟨n, heq⟩).toAgrees

end Shellwright.Reviewer
