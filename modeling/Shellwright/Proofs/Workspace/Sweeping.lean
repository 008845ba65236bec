import Shellwright.Proofs.Review.Heeding
import Shellwright.Proofs.Workspace.Passing
/-!
# Checking all documents

A call can have all open documents checked. Each check is dispatched in its own turn, and the call ends
when all of them have ended; what else the review does meanwhile does not concern the call.
-/

namespace Shellwright

/-- The ends of the calls that the host has made. -/
def Registry.hostEnds (r : Registry) : List Workspace.Ending :=
  r.finishes.filterMap fun
    | (.host n, outcome) => some (.registry n outcome)
    | _ => none

namespace Review

/-- The part of a call that is put off. -/
def Effect.part? : Effect → Option Event
  | .later (.member n i) => some (.member n i)
  | .later (.gathered n) => some (.gathered n)
  | _ => none

/-- The event follows from what the review has asked for. -/
def Event.inner : Event → Bool
  | .registry _ => true
  | .elapsed _ => true
  | .member .. => true
  | .begin _ => true
  | .ended _ => true
  | .gathered _ => true
  | _ => false

/-- The run of some members has come to a verdict. -/
def settle (members : List (String × Member)) (run : Nat) (verdict : Verdict) :
    List (String × Member) :=
  members.map fun m => if m.2 = .running run then (m.1, .settled (some verdict)) else m

end Review

namespace Reviewer

open Review

/-- The parts of calls that have been put off. -/
def parts (r : Reviewer) : List Event :=
  r.outbox.filterMap Effect.part?

/-- The calls that have ended, and how. -/
def reports (r : Reviewer) : List Workspace.Ending :=
  r.outbox.filterMap Workspace.endingOf?

/-- The calls are `calls` now; these parts of them have been put off, these ends have been reported and so many
runs have been dispatched. -/
structure Proceeds (calls : Keyed Nat Call) (parts : List Event) (reports : List Workspace.Ending) (fresh : Nat)
    (r r' : Reviewer) : Prop where
  calls : r'.calls = calls
  buffers : r'.buffers = r.buffers
  parts : r'.parts = r.parts ++ parts
  reports : r'.reports = r.reports ++ reports
  runs : r'.runs.length = r.runs.length + fresh

/-- No call waits for a formatter. -/
def Unformatted (r : Reviewer) : Prop :=
  ∀ n c document purpose, r.calls.get? n = some c → c.stage ≠ .formatting document purpose

variable {r r' r'' : Reviewer} {calls calls' : Keyed Nat Call} {ps ps' : List Event}
  {es es' : List Workspace.Ending} {fresh fresh' n : Nat} {members : List (String × Member)}

theorem Proceeds.of_eq (calls : r'.calls = r.calls) (buffers : r'.buffers = r.buffers)
    (outbox : r'.outbox = r.outbox) (runs : r'.runs.length = r.runs.length) :
    Proceeds r.calls [] [] 0 r r' :=
  ⟨calls, buffers, by simp [Reviewer.parts, outbox], by simp [Reviewer.reports, outbox], runs⟩

theorem Proceeds.refl (r : Reviewer) : Proceeds r.calls [] [] 0 r r := .of_eq rfl rfl rfl rfl

theorem Proceeds.trans (h : Proceeds calls ps es fresh r r')
    (h' : Proceeds calls' ps' es' fresh' r' r'') :
    Proceeds calls' (ps ++ ps') (es ++ es') (fresh + fresh') r r'' where
  calls := h'.calls
  buffers := h'.buffers.trans h.buffers
  parts := by rw [h'.parts, h.parts, List.append_assoc]
  reports := by rw [h'.reports, h.reports, List.append_assoc]
  runs := by rw [h'.runs, h.runs, Nat.add_assoc]

/-- What comes after it leaves the calls as they are. -/
theorem Proceeds.then (h : Proceeds calls ps es fresh r r')
    (h' : Proceeds r'.calls [] [] 0 r' r'') : Proceeds calls ps es fresh r r'' := by
  have htrans := h.trans h'
  rwa [h.calls, List.append_nil, List.append_nil] at htrans

theorem emit_proceeds (r : Reviewer) (e : Effect) :
    Proceeds r.calls e.part?.toList (Workspace.endingOf? e).toList 0 r (r.emit e) :=
  ⟨rfl, rfl, filterMap_emit Effect.part? r e, filterMap_emit Workspace.endingOf? r e, rfl⟩

/-- The effect is not about a call. -/
theorem emit_aside {e : Effect} (part : e.part? = none) (ending : Workspace.endingOf? e = none)
    (r : Reviewer) : Proceeds r.calls [] [] 0 r (r.emit e) := by
  have hemit := emit_proceeds r e
  rwa [part, ending] at hemit

theorem log_proceeds (r : Reviewer) (level : LogLevel) (text : String) :
    Proceeds r.calls [] [] 0 r (r.log level text) :=
  emit_aside rfl rfl r

theorem setCall_proceeds (r : Reviewer) (n : Nat) (c : Call) :
    Proceeds (r.calls.put n c) [] [] 0 r (r.setCall n c) :=
  ⟨rfl, rfl, (List.append_nil _).symm, (List.append_nil _).symm, rfl⟩

theorem finish_proceeds (r : Reviewer) (n : Nat) (outcome : Outcome Reply) :
    Proceeds (r.calls.drop n) [] [.review n outcome] 0 r (r.finish n outcome) := by
  have hended : Proceeds (r.calls.drop n) [] [.review n outcome] 0 { r with calls := r.calls.drop n }
      (r.finish n outcome) :=
    emit_proceeds { r with calls := r.calls.drop n } (.finish n outcome)
  exact ⟨hended.calls, hended.buffers, hended.parts, hended.reports, hended.runs⟩

/-! ## Runs -/

theorem cancelNewest_proceeds (r : Reviewer) (number : Nat) :
    Proceeds r.calls [] [] 0 r (r.cancelNewest number) := by
  unfold cancelNewest
  split
  · exact emit_aside rfl rfl r
  · exact .refl r

theorem dispatch_proceeds (r : Reviewer) (number : Nat) (document : String) :
    Proceeds r.calls [] [] 1 r (r.dispatch number document).1 := by
  have hcancelled := cancelNewest_proceeds r number
  refine ⟨hcancelled.calls, hcancelled.buffers, ?_, ?_, ?_⟩
  · exact (filterMap_emit_none rfl _).trans hcancelled.parts
  · exact (filterMap_emit_none rfl _).trans hcancelled.reports
  · exact List.length_append.trans (congrArg (· + 1) hcancelled.runs)

theorem diagnose_proceeds {document : String} (shell : (r.document document).isShell = true) :
    Proceeds r.calls [] [] 1 r (r.diagnose document).1 := by
  have hdispatch := dispatch_proceeds
    { r with
      sessions := (r.sessions.obtain (r.document document).uri).1.cancelPending
        (r.sessions.obtain (r.document document).uri).2 }
    (r.sessions.obtain (r.document document).uri).2 document
  unfold diagnose
  rw [if_neg (by simp [shell])]
  exact ⟨hdispatch.calls, hdispatch.buffers, hdispatch.parts, hdispatch.reports, hdispatch.runs⟩

theorem elapsed_proceeds (r : Reviewer) (timer : Nat) :
    ∃ fresh, Proceeds r.calls [] [] fresh r (r.elapsed timer) := by
  unfold elapsed
  split
  · exact ⟨0, .refl r⟩
  · rename_i number _
    split
    · exact ⟨0, .refl r⟩
    · rename_i debounce _
      have hdispatch := dispatch_proceeds
        { r with sessions := r.sessions.cancelPending number } number debounce.document
      exact ⟨1, hdispatch.calls, hdispatch.buffers, hdispatch.parts, hdispatch.reports,
        hdispatch.runs⟩

theorem publish_proceeds (r : Reviewer) (run : Run) (verdict : Verdict) :
    Proceeds r.calls [] [] 0 r (r.publish run verdict) := by
  unfold publish
  split
  · exact .refl r
  · split
    · exact log_proceeds r _ _
    · split
      · exact .of_eq rfl rfl rfl rfl
      · exact log_proceeds r _ _

theorem endRun_proceeds (r : Reviewer) (n : Nat) (outcome : Outcome Verdict) :
    Proceeds r.calls [] [] 0 r (r.endRun n outcome) := by
  have hset : Proceeds r.calls [] [] 0 r
      (r.setRun n fun run => { run with outcome := some outcome }) :=
    .of_eq rfl rfl rfl (List.length_modify ..)
  exact hset.then (emit_aside rfl rfl _)

theorem completeRun_proceeds (r : Reviewer) (n : Nat) (outcome : Outcome Registry.Reply) :
    Proceeds r.calls [] [] 0 r (r.completeRun n outcome) := by
  have hstopped : Proceeds r.calls [] [] 0 r (r.emit (.stopped n)) := emit_aside rfl rfl r
  unfold completeRun
  simp only
  split
  · exact hstopped.then ((publish_proceeds _ _ _).then (endRun_proceeds _ _ _))
  · exact hstopped.then (endRun_proceeds _ _ _)
  · exact hstopped.then (endRun_proceeds _ _ _)

/-! ## The registry below -/

theorem Unformatted.same (h : r.Unformatted) (calls : r'.calls = r.calls) : r'.Unformatted := by
  intro n c document purpose hcall
  rw [calls] at hcall
  exact h n c document purpose hcall

theorem completeCall_proceeds (h : r.Unformatted) (n : Nat) (outcome : Outcome Registry.Reply) :
    Proceeds r.calls [] [.registry n outcome] 0 r (r.completeCall n outcome) := by
  have hnone (document : String) (purpose : FormatPurpose) :
      (r.calls.get? n).map Call.stage ≠ some (.formatting document purpose) := by
    intro hstage
    obtain ⟨c, hcall, hformatting⟩ := Option.map_eq_some_iff.1 hstage
    exact h n c document purpose hcall hformatting
  unfold completeCall
  split
  · rename_i hstage
    exact absurd hstage (hnone _ _)
  · rename_i hstage
    exact absurd hstage (hnone _ _)
  · rename_i hstage _ _
    exact absurd hstage (hnone _ _)
  · exact emit_proceeds r (.finishRegistry n _)

def hostEnd? : Registry.Effect → Option Workspace.Ending
  | .finish (.host n) outcome => some (.registry n outcome)
  | _ => none

theorem absorb_proceeds (h : r.Unformatted) (effect : Registry.Effect) :
    Proceeds r.calls [] (hostEnd? effect).toList 0 r (r.absorb effect) := by
  cases effect with
  | later event => exact emit_aside rfl rfl r
  | ask key part plugin question => exact emit_aside rfl rfl r
  | quit key part => exact emit_aside rfl rfl r
  | log record => exact emit_aside rfl rfl r
  | finish key outcome =>
      cases key with
      | run n => exact completeRun_proceeds r n outcome
      | host n => exact completeCall_proceeds h n outcome

theorem foldl_absorb_proceeds (h : r.Unformatted) (effects : List Registry.Effect) :
    Proceeds r.calls [] (effects.filterMap hostEnd?) 0 r (effects.foldl absorb r) := by
  induction effects generalizing r with
  | nil => exact .refl r
  | cons effect rest ih =>
      have hfirst := absorb_proceeds h effect
      have hrest := ih (h.same hfirst.calls)
      rw [hfirst.calls] at hrest
      have htrans := hfirst.trans hrest
      rw [List.filterMap_cons]
      cases hend : hostEnd? effect <;> simpa [hend] using htrans

theorem hostEnds_eq (r : Registry) : r.hostEnds = r.outbox.filterMap hostEnd? := by
  unfold Registry.hostEnds Registry.finishes
  rw [List.filterMap_filterMap]
  refine congrArg (List.filterMap · r.outbox) (funext fun effect => ?_)
  cases effect with
  | finish key outcome => cases key <;> rfl
  | _ => rfl

theorem tellRegistry_proceeds (h : r.Unformatted) (event : Registry.Event) :
    Proceeds r.calls [] (r.registry.step r.buffers event).hostEnds 0 r (r.tellRegistry event) := by
  rw [hostEnds_eq]
  have hfold := foldl_absorb_proceeds
    (r := { r with registry := { r.registry.step r.buffers event with outbox := [] } }) h
    (r.registry.step r.buffers event).outbox
  exact ⟨hfold.calls, hfold.buffers, hfold.parts, hfold.reports, hfold.runs⟩

theorem begin_proceeds (h : r.Unformatted) (calm : r.registry.outbox = []) (k : Nat) :
    Proceeds r.calls [] (r.reached (.begin k)).hostEnds 0 r (r.step (.begin k)) := by
  have hidle : r.registry.hostEnds = [] := by
    rw [hostEnds_eq, calm]
    rfl
  cases hrun : r.runs[k]? with
  | none =>
      have hreached : r.reached (.begin k) = r.registry := by simp [reached, conveyed, hrun]
      rw [hreached, hidle]
      simp only [step, hrun]
      exact .refl r
  | some run =>
      cases hdropped : run.dropped with
      | true =>
          have hreached : r.reached (.begin k) = r.registry := by
            simp [reached, conveyed, hrun, hdropped]
          rw [hreached, hidle]
          simp only [step, hrun, Reviewer.begin, hdropped, if_true]
          exact endRun_proceeds r k .aborted
      | false =>
          have hreached : r.reached (.begin k) = r.registry.step r.buffers
              (.call (.run k) (.check run.document ⟨some (.run k), r.timeout⟩)) := by
            simp [reached, conveyed, hrun, hdropped]
          rw [hreached]
          simp only [step, hrun, Reviewer.begin, hdropped, Bool.false_eq_true, if_false]
          have hstarted : Proceeds r.calls [] [] 0 r (r.emit (.started k)) := emit_aside rfl rfl r
          have htold := tellRegistry_proceeds (r := r.emit (.started k)) h
            (.call (.run k) (.check run.document ⟨some (.run k), r.timeout⟩))
          exact hstarted.trans htold

/-! ## The members of a call -/

/-- What an event is to a call that has its members checked. -/
inductive Follows (n : Nat) (members : List (String × Member)) (e : Event) (r r' : Reviewer) : Prop
  | rests (fresh : Nat) (still : fresh = 0 ∨ ∃ timer, e = .elapsed timer)
      (proceeds : Proceeds r.calls [] [] fresh r r')
  | checks (i : Nat) (name : String) (event : e = .member n i)
      (waiting : members[i]? = some (name, .waiting))
      (desk : r'.desk = r.desk.diagnose (r.document name).uri name)
      (proceeds : Proceeds
        [(n, ⟨.several (setMember members i (.running r.runs.length)), false⟩)] [] [] 1 r r')
  | settles (run : Nat) (verdict : Verdict)
      (proceeds : Proceeds [(n, ⟨.several (settle members run verdict), false⟩)]
        (if Reviewer.allSettled (settle members run verdict) then [.gathered n] else []) [] 0 r r')
  | ended (outcome : Outcome Reply) (complete : ∀ reply, outcome = .done reply → e = .gathered n)
      (proceeds : Proceeds [] [] [.review n outcome] 0 r r')

section Members

variable (several : r.calls = [(n, ⟨.several members, false⟩)])
include several

theorem unformatted_of_several : r.Unformatted := by
  intro m c document purpose hcall
  rw [several] at hcall
  obtain ⟨e, hfind, rfl⟩ := Option.map_eq_some_iff.1 hcall
  cases List.mem_singleton.1 (List.mem_of_find?_eq_some hfind)
  nofun

theorem get?_several (m : Nat) :
    r.calls.get? m = if m = n then some ⟨.several members, false⟩ else none := by
  rw [several]
  by_cases hm : m = n
  · subst hm
    simp [Keyed.get?]
  · simp [Keyed.get?, hm, Ne.symm hm]

theorem withCall_several (m : Nat) (f : Call → Reviewer) :
    r.withCall m f = if m = n then f ⟨.several members, false⟩ else r := by
  unfold withCall
  rw [get?_several several]
  split <;> split <;> simp_all

theorem setMembers_proceeds (members' : List (String × Member)) :
    Proceeds [(n, ⟨.several members', false⟩)]
      (if Reviewer.allSettled members' then [.gathered n] else []) [] 0 r
      (r.setMembers n ⟨.several members, false⟩ members') := by
  have hset := setCall_proceeds r n ⟨.several members', false⟩
  have hput : r.calls.put n ⟨.several members', false⟩ = [(n, ⟨.several members', false⟩)] := by
    simp [several, Keyed.put]
  rw [hput] at hset
  unfold setMembers
  simp only
  split
  · have hgathered : Proceeds (r.setCall n ⟨.several members', false⟩).calls [.gathered n] [] 0 _
        ((r.setCall n ⟨.several members', false⟩).emit (.later (.gathered n))) :=
      emit_proceeds (r.setCall n ⟨.several members', false⟩) (.later (.gathered n))
    rw [hset.calls] at hgathered
    exact hset.trans hgathered
  · exact hset

theorem finish_several (outcome : Outcome Reply) :
    Proceeds [] [] [.review n outcome] 0 r (r.finish n outcome) := by
  have hfinish := finish_proceeds r n outcome
  have hdrop : r.calls.drop n = [] := by simp [several, Keyed.drop]
  rwa [hdrop] at hfinish

theorem member_follows {i : Nat} {name : String} (waiting : members[i]? = some (name, .waiting))
    (shell : (r.document name).isShell = true) :
    Follows n members (.member n i) r (r.step (.member n i)) := by
  have hproceeds := diagnose_proceeds shell
  obtain ⟨out, hout⟩ := diagnose_eq shell
  have hstep : r.step (.member n i) = (r.diagnose name).1.setMembers n ⟨.several members, false⟩
      (setMember members i (.running r.runs.length)) := by
    change r.withCall n (r.member n i) = _
    rw [withCall_several several, if_pos rfl]
    unfold member
    simp [waiting, hout]
  have hcalls : (r.diagnose name).1.calls = [(n, ⟨.several members, false⟩)] :=
    hproceeds.calls.trans several
  have hset := setMembers_proceeds hcalls (setMember members i (.running r.runs.length))
  have hunsettled : Reviewer.allSettled (setMember members i (.running r.runs.length)) = false := by
    refine List.all_eq_false.2 ⟨(name, .running r.runs.length), ?_, by simp⟩
    refine List.mem_of_getElem? (i := i) ?_
    rw [setMember, List.getElem?_modify_eq, waiting]
    rfl
  rw [hunsettled] at hset
  rw [hstep]
  refine .checks i name rfl waiting ?_ (hproceeds.trans hset)
  rw [hout]
  unfold setMembers
  simp only [hunsettled]
  rfl

theorem ended_follows (k : Nat) : Follows n members (.ended k) r (r.step (.ended k)) := by
  have hrests : Follows n members (.ended k) r r := .rests 0 (.inl rfl) (.refl r)
  change Follows n members (.ended k) r (r.ended k)
  unfold ended
  split
  · exact hrests
  · rename_i outcome _
    have hcall : r.calls.get? n = some ⟨.several members, false⟩ := by
      rw [get?_several several, if_pos rfl]
    have hkeys : r.calls.keys = [n] := by rw [several]; rfl
    rw [hkeys, List.foldl_cons, List.foldl_nil]
    simp only [hcall, resume]
    split
    · exact hrests
    · cases outcome with
      | done verdict => exact .settles k verdict (setMembers_proceeds several _)
      | raised trouble => exact .ended (.raised trouble) (fun _ heq => by cases heq) (finish_several several _)
      | aborted => exact .ended .aborted (fun _ heq => by cases heq) (finish_several several _)

theorem gathered_follows : Follows n members (.gathered n) r (r.step (.gathered n)) := by
  have hstep : r.step (.gathered n) = r.finish n (.done (.verdicts (r.verdictsOf members))) := by
    change r.withCall n (r.gathered n) = _
    rw [withCall_several several, if_pos rfl]
    rfl
  rw [hstep]
  exact .ended _ (fun _ _ => rfl) (finish_several several _)

/-- What any event is to the call that follows from what the review has asked for. -/
theorem step_follows (calm : r.registry.outbox = []) {e : Event} (inner : e.inner = true)
    (due : ∀ i, e = .member n i → ∃ name, members[i]? = some (name, .waiting))
    (shell : ∀ name ∈ members.map Prod.fst, (r.document name).isShell = true)
    (quiet : (r.reached e).hostEnds = []) : Follows n members e r (r.step e) := by
  have hunformatted := unformatted_of_several several
  cases e with
  | registry event =>
      have hregistry := tellRegistry_proceeds hunformatted event
      rw [show (r.registry.step r.buffers event).hostEnds = [] from quiet] at hregistry
      exact .rests 0 (.inl rfl) hregistry
  | begin k =>
      have hbegin := begin_proceeds hunformatted calm k
      rw [quiet] at hbegin
      exact .rests 0 (.inl rfl) hbegin
  | elapsed timer =>
      obtain ⟨fresh, hproceeds⟩ := elapsed_proceeds r timer
      exact .rests fresh (.inr ⟨timer, rfl⟩) hproceeds
  | ended k => exact ended_follows several k
  | member m i =>
      by_cases hm : m = n
      · subst hm
        obtain ⟨name, hwaiting⟩ := due i rfl
        refine member_follows several hwaiting (shell name ?_)
        exact List.mem_map.2 ⟨_, List.mem_of_getElem? hwaiting, rfl⟩
      · change Follows n members _ r (r.withCall m (r.member m i))
        rw [withCall_several several, if_neg hm]
        exact .rests 0 (.inl rfl) (.refl r)
  | gathered m =>
      by_cases hm : m = n
      · subst hm
        exact gathered_follows several
      · change Follows n members _ r (r.withCall m (r.gathered m))
        rw [withCall_several several, if_neg hm]
        exact .rests 0 (.inl rfl) (.refl r)
  | _ => cases inner

end Members

theorem foldl_member_proceeds (r : Reviewer) (n : Nat) (is : List Nat) :
    Proceeds r.calls (is.map (.member n ·)) [] 0 r
      (is.foldl (fun r i => r.emit (.later (.member n i))) r) := by
  induction is generalizing r with
  | nil => exact .refl r
  | cons i rest ih =>
      exact (emit_proceeds r (.later (.member n i))).trans (ih (r.emit (.later (.member n i))))

/-- All documents are to be checked that are shell scripts. -/
theorem diagnoseAll_proceeds (calls : r.calls = []) (n : Nat) {names targets : List String}
    (shell : (names.filter fun name => (r.document name).isShell) = targets) :
    if targets = [] then
      Proceeds [] [] [.review n (.done (.verdicts []))] 0 r (r.step (.call n (.diagnoseAll names)))
    else
      Proceeds [(n, ⟨.several (targets.map (·, .waiting)), false⟩)]
        ((List.range targets.length).map (.member n ·)) [] 0 r
        (r.step (.call n (.diagnoseAll names))) := by
  change if targets = [] then Proceeds _ _ _ _ r (r.call n (.diagnoseAll names))
    else Proceeds _ _ _ _ r (r.call n (.diagnoseAll names))
  unfold Reviewer.call
  simp only [shell]
  by_cases hnone : targets = []
  · rw [if_pos hnone, if_pos (by simp [hnone])]
    have hfinish := finish_proceeds r n (.done (.verdicts []))
    rwa [calls] at hfinish
  · rw [if_neg hnone, if_neg (by simpa using hnone)]
    have hset := setCall_proceeds r n ⟨.several (targets.map (·, .waiting)), false⟩
    rw [calls] at hset
    have hmembers := foldl_member_proceeds
      (r.setCall n ⟨.several (targets.map (·, .waiting)), false⟩) n (List.range targets.length)
    rw [hset.calls] at hmembers
    exact hset.trans hmembers

/-- Without calls of its own the review only passes on how those of the registry end. -/
theorem step_proceeds (calls : r.calls = []) (calm : r.registry.outbox = []) {e : Event}
    (inner : e.inner = true) : ∃ fresh, (fresh = 0 ∨ ∃ timer, e = .elapsed timer) ∧
      Proceeds [] [] (r.reached e).hostEnds fresh r (r.step e) := by
  have hunformatted : r.Unformatted := by
    intro n c document purpose hcall
    rw [calls] at hcall
    cases hcall
  have hidle : r.registry.hostEnds = [] := by
    rw [hostEnds_eq, calm]
    rfl
  have hnone (m : Nat) (f : Call → Reviewer) : r.withCall m f = r := by
    simp [withCall, calls, Keyed.get?]
  have hrefl : Proceeds [] [] r.registry.hostEnds 0 r r := by
    rw [hidle, ← calls]
    exact .refl r
  cases e with
  | registry event =>
      refine ⟨0, .inl rfl, ?_⟩
      rw [← calls]
      exact tellRegistry_proceeds hunformatted event
  | begin k =>
      refine ⟨0, .inl rfl, ?_⟩
      rw [← calls]
      exact begin_proceeds hunformatted calm k
  | elapsed timer =>
      obtain ⟨fresh, hproceeds⟩ := elapsed_proceeds r timer
      refine ⟨fresh, .inr ⟨timer, rfl⟩, ?_⟩
      change Proceeds [] [] r.registry.hostEnds fresh r (r.elapsed timer)
      rw [hidle, ← calls]
      exact hproceeds
  | ended k =>
      refine ⟨0, .inl rfl, ?_⟩
      have hstep : r.step (.ended k) = r := by
        change r.ended k = r
        unfold ended
        split
        · rfl
        · simp [calls, Keyed.keys]
      rw [hstep]
      exact hrefl
  | member m i =>
      refine ⟨0, .inl rfl, ?_⟩
      rw [show r.step (.member m i) = r from hnone m _]
      exact hrefl
  | gathered m =>
      refine ⟨0, .inl rfl, ?_⟩
      rw [show r.step (.gathered m) = r from hnone m _]
      exact hrefl
  | _ => cases inner

end Reviewer

end Shellwright
