import Shellwright.Proofs.Review.Sessions
/-!
# Runs that are dispatched

Most of what a review does ends no run and leaves the registry as it is; the runs that it dispatches
are going to begin.
-/

namespace Shellwright.Review

/-- The run that is to begin. -/
def Effect.run? : Effect → Option Nat
  | .later (.begin n) => some n
  | _ => none

/-- What the registry wants done and the review only passes on. -/
def Effect.passed? : Effect → Option Registry.Effect
  | .later (.registry e) => some (.later e)
  | .ask key part plugin question => some (.ask key part plugin question)
  | _ => none

/-- The call that has ended. -/
def Effect.ended? : Effect → Option Nat
  | .finish n _ => some n
  | .finishRegistry n _ => some n
  | _ => none

/-- How the call has ended. -/
def Effect.endOf? (n : Nat) : Effect → Option (Outcome Reply)
  | .finish m outcome => if m = n then some outcome else none
  | _ => none

/-- The effect is about no run that is to begin, no call that has ended and not the registry. -/
def Effect.Idle (e : Effect) : Prop :=
  e.run? = none ∧ e.passed? = none ∧ e.ended? = none

/-- The call that an event begins. -/
def Event.number? : Event → Option Nat
  | .call n _ => some n
  | _ => none

theorem Effect.endOf?_eq_none {e : Effect} {n : Nat} (h : e.ended? ≠ some n) :
    e.endOf? n = none := by
  cases e with
  | finish m outcome => exact if_neg fun heq => h (congrArg some heq)
  | _ => rfl

/-- The event does not reach the registry, and no run begins or is called off with it. -/
def Event.quiet : Event → Bool
  | .registry _ => false
  | .begin _ => false
  | .abort _ => false
  | .call _ (.format ..) => false
  | .call _ (.fixAll ..) => false
  | _ => true

end Shellwright.Review

namespace Shellwright.Reviewer

open Review

/-- The runs that were dispatched and are still to begin. -/
def begins (r : Reviewer) : List Nat :=
  r.outbox.filterMap Effect.run?

def passed (r : Reviewer) : List Registry.Effect :=
  r.outbox.filterMap Effect.passed?

def endings (r : Reviewer) : List Nat :=
  r.outbox.filterMap Effect.ended?

def endsOf (r : Reviewer) (n : Nat) : List (Outcome Reply) :=
  r.outbox.filterMap (·.endOf? n)

def outcomes (r : Reviewer) : List (Option (Outcome Verdict)) :=
  r.runs.map (·.outcome)

/-- No run ends, and every new run is to begin. -/
structure Dispatches (r r' : Reviewer) : Prop where
  registry : r'.registry = r.registry
  runs : ∃ m, r'.outcomes = r.outcomes ++ List.replicate m none ∧
    r'.begins = r.begins ++ List.range' r.runs.length m

/-- The registry stays as it is, and only the calls `own` come about, go on or end. -/
structure Minds (own : Nat → Prop) (r r' : Reviewer) : Prop where
  registry : r'.registry = r.registry
  passed : r'.passed = r.passed
  spares : ∀ n, ¬ own n → r'.calls.get? n = r.calls.get? n ∧ r'.endsOf n = r.endsOf n
  endings : ∀ n ∈ r'.endings, n ∈ r.endings ∨ own n

structure Carries (own : Nat → Prop) (r r' : Reviewer) : Prop where
  dispatches : r.Dispatches r'
  minds : Minds own r r'

variable {r r' r'' : Reviewer} {own : Nat → Prop}

theorem length_outcomes (r : Reviewer) : r.outcomes.length = r.runs.length := by
  simp [outcomes]

/-! ## Runs that are dispatched -/

theorem Dispatches.of_eq (registry : r'.registry = r.registry) (outcomes : r'.outcomes = r.outcomes)
    (begins : r'.begins = r.begins) : r.Dispatches r' :=
  ⟨registry, 0, by simp [outcomes], by simp [begins]⟩

theorem Dispatches.trans (h : r.Dispatches r') (h' : r'.Dispatches r'') : r.Dispatches r'' := by
  obtain ⟨m, houtcomes, hbegins⟩ := h.runs
  obtain ⟨m', houtcomes', hbegins'⟩ := h'.runs
  have hlength : r'.runs.length = r.runs.length + m := by
    rw [← length_outcomes, houtcomes, List.length_append, List.length_replicate, length_outcomes]
  refine ⟨h'.registry.trans h.registry, m + m', ?_, ?_⟩
  · rw [houtcomes', houtcomes, List.append_assoc, List.replicate_append_replicate]
  · rw [hbegins', hbegins, hlength, List.append_assoc]
    simp

theorem Minds.calls (h : Minds own r r') (n : Nat) (call : r'.calls.get? n ≠ none) :
    r.calls.get? n ≠ none ∨ own n := by
  by_cases hmine : own n
  · exact .inr hmine
  · exact .inl ((h.spares n hmine).1 ▸ call)

theorem Minds.of_eq (registry : r'.registry = r.registry) (calls : r'.calls = r.calls)
    (passed : r'.passed = r.passed) (endings : r'.endings = r.endings)
    (ends : ∀ n, r'.endsOf n = r.endsOf n) : Minds own r r' where
  registry := registry
  passed := passed
  spares n _ := ⟨by rw [calls], ends n⟩
  endings _ hn := .inl (endings ▸ hn)

theorem Minds.trans (h : Minds own r r') (h' : Minds own r' r'') : Minds own r r'' where
  registry := h'.registry.trans h.registry
  passed := h'.passed.trans h.passed
  spares n hn :=
    ⟨(h'.spares n hn).1.trans (h.spares n hn).1, (h'.spares n hn).2.trans (h.spares n hn).2⟩
  endings n hn := (h'.endings n hn).elim (h.endings n) .inr

theorem Carries.trans (h : Carries own r r') (h' : Carries own r' r'') : Carries own r r'' :=
  ⟨h.dispatches.trans h'.dispatches, h.minds.trans h'.minds⟩

/-- What changes concerns neither runs nor calls. -/
theorem Carries.of_eq (registry : r'.registry = r.registry) (runs : r'.runs = r.runs)
    (calls : r'.calls = r.calls) (outbox : r'.outbox = r.outbox) : Carries own r r' where
  dispatches := .of_eq registry (congrArg (List.map _) runs) (congrArg (List.filterMap _) outbox)
  minds := .of_eq registry calls (congrArg (List.filterMap _) outbox)
    (congrArg (List.filterMap _) outbox) fun _ => congrArg (List.filterMap _) outbox

theorem Carries.refl (r : Reviewer) : Carries own r r := .of_eq rfl rfl rfl rfl

theorem foldl_carries {α : Type} {f : Reviewer → α → Reviewer}
    (h : ∀ (r : Reviewer) (a : α), Carries own r (f r a)) (r : Reviewer) (l : List α) :
    Carries own r (l.foldl f r) := by
  induction l generalizing r with
  | nil => exact .refl r
  | cons a rest ih => exact (h r a).trans (ih (f r a))

theorem filterMap_emit {α : Type} (f : Effect → Option α) (r : Reviewer) (e : Effect) :
    (r.emit e).outbox.filterMap f = r.outbox.filterMap f ++ (f e).toList := by
  unfold emit
  rw [List.filterMap_append]
  cases h : f e <;> simp [h]

theorem filterMap_emit_none {α : Type} {f : Effect → Option α} {e : Effect} (h : f e = none)
    (r : Reviewer) : (r.emit e).outbox.filterMap f = r.outbox.filterMap f := by
  rw [filterMap_emit, h, Option.toList_none, List.append_nil]

theorem emit_carries {e : Effect} (h : e.Idle) (r : Reviewer) : Carries own r (r.emit e) where
  dispatches := .of_eq rfl rfl (filterMap_emit_none h.1 r)
  minds := .of_eq rfl rfl (filterMap_emit_none h.2.1 r) (filterMap_emit_none h.2.2 r) fun n =>
    filterMap_emit_none (Effect.endOf?_eq_none (by rw [h.2.2]; nofun)) r

theorem log_carries (r : Reviewer) (level : LogLevel) (text : String) :
    Carries own r (r.log level text) :=
  emit_carries ⟨rfl, rfl, rfl⟩ r

theorem setCall_carries (r : Reviewer) {n : Nat} (mine : own n) (c : Call) :
    Carries own r (r.setCall n c) := by
  refine ⟨.of_eq rfl rfl rfl, rfl, rfl, fun m hm => ⟨?_, rfl⟩, fun _ hm => .inl hm⟩
  exact Keyed.get?_put_of_ne c fun heq => hm (heq ▸ mine)

/-- The end of a call is told. -/
theorem emit_ending_carries {e : Effect} {n : Nat} (run : e.run? = none) (passed : e.passed? = none)
    (ended : e.ended? = some n) (r : Reviewer) (mine : own n) : Carries own r (r.emit e) := by
  refine ⟨.of_eq rfl rfl (filterMap_emit_none run r), rfl, filterMap_emit_none passed r,
    fun m hm => ⟨rfl, filterMap_emit_none (Effect.endOf?_eq_none ?_) r⟩, fun m hm => ?_⟩
  · rw [ended]
    exact fun heq => hm (Option.some.inj heq ▸ mine)
  unfold endings at hm
  rw [filterMap_emit, ended] at hm
  rcases List.mem_append.1 hm with hm | hm
  · exact .inl hm
  · obtain rfl := List.mem_singleton.1 hm
    exact .inr mine

theorem finish_carries (r : Reviewer) {n : Nat} (mine : own n) (outcome : Outcome Reply) :
    Carries own r (r.finish n outcome) := by
  have hdropped : Carries own r { r with calls := r.calls.drop n } := by
    refine ⟨.of_eq rfl rfl rfl, rfl, rfl, fun m hm => ⟨?_, rfl⟩, fun _ hm => .inl hm⟩
    refine (Keyed.get?_drop _ _ _).trans (if_neg ?_)
    rintro rfl
    exact hm mine
  exact hdropped.trans (emit_ending_carries (e := .finish n outcome) rfl rfl rfl _ mine)

theorem cancelNewest_carries (r : Reviewer) (number : Nat) :
    Carries own r (r.cancelNewest number) := by
  unfold cancelNewest
  split
  · exact emit_carries ⟨rfl, rfl, rfl⟩ r
  · exact .refl r

theorem dispatch_carries (r : Reviewer) (number : Nat) (document : String) :
    Carries own r (r.dispatch number document).1 := by
  refine (cancelNewest_carries r number).trans ⟨⟨rfl, 1, ?_, ?_⟩, .of_eq rfl rfl ?_ ?_ fun _ => ?_⟩
  · simp [outcomes, dispatch, emit]
  · exact filterMap_emit Effect.run? _ _
  · exact filterMap_emit_none rfl _
  · exact filterMap_emit_none rfl _
  · exact filterMap_emit_none rfl _

theorem diagnose_carries (r : Reviewer) (document : String) :
    Carries own r (r.diagnose document).1 := by
  unfold diagnose
  simp only
  split
  · exact log_carries r _ _
  · refine Carries.trans (.of_eq ?_ ?_ ?_ ?_) (dispatch_carries _ _ document)
    all_goals rfl

theorem Carries.of_diagnose {document : String} {result : Option Nat}
    (h : r.diagnose document = (r', result)) : Carries own r r' := by
  have hfirst : (r.diagnose document).1 = r' := congrArg Prod.fst h
  rw [← hfirst]
  exact diagnose_carries r document

/-! ## Calls that go on -/

theorem applyEdits_carries (r : Reviewer) (document : String) (editable : List String)
    (edits : List TextEdit) : Carries own r (r.applyEdits document editable edits).1 := by
  obtain ⟨buffers, hbuffers, _⟩ := applyEdits_eq r document editable edits
  rw [hbuffers]
  exact .of_eq rfl rfl rfl rfl

theorem withoutEdits_carries (r : Reviewer) {n : Nat} (mine : own n) (document : String)
    (verdict : FormatVerdict) (purpose : FormatPurpose) :
    Carries own r (r.withoutEdits n document verdict purpose) := by
  cases purpose with
  | edits => exact finish_carries r mine _
  | fix editable =>
      simp only [withoutEdits, unfixed]
      split
      · exact finish_carries r mine _
      · split
        · exact finish_carries r mine _
        · exact (log_carries r _ _).trans (finish_carries _ mine _)

theorem withEdits_carries (r : Reviewer) {n : Nat} (mine : own n) (document : String)
    (verdict : FormatVerdict) (purpose : FormatPurpose) :
    Carries own r (r.withEdits n document verdict purpose) := by
  cases purpose with
  | edits => exact finish_carries r mine _
  | fix editable =>
      have hedited : Carries own r (r.applyEdits document editable verdict.edits).1 :=
        applyEdits_carries r document editable verdict.edits
      simp only [withEdits]
      split
      · exact hedited.trans ((log_carries _ _ _).trans (finish_carries _ mine _))
      · split
        · rename_i hdiagnose
          exact hedited.trans ((Carries.of_diagnose hdiagnose).trans (setCall_carries _ mine _))
        · rename_i hdiagnose
          exact hedited.trans ((Carries.of_diagnose hdiagnose).trans (finish_carries _ mine _))

theorem completeFormat_carries (r : Reviewer) {n : Nat} (mine : own n) (document : String)
    (purpose : FormatPurpose) (verdict : FormatVerdict) :
    Carries own r (r.completeFormat n document purpose verdict) := by
  unfold completeFormat
  split
  · exact withEdits_carries r mine document verdict purpose
  · split
    · split
      · rename_i hdiagnose
        exact (Carries.of_diagnose hdiagnose).trans (setCall_carries _ mine _)
      · rename_i hdiagnose
        exact (Carries.of_diagnose hdiagnose).trans
          (withoutEdits_carries _ mine document verdict purpose)
    · exact withoutEdits_carries r mine document verdict purpose

theorem completeCall_carries (r : Reviewer) {n : Nat} (mine : own n)
    (outcome : Outcome Registry.Reply) :
    Carries own r (r.completeCall n outcome) := by
  unfold completeCall
  split
  · exact completeFormat_carries r mine _ _ _
  · exact finish_carries r mine _
  · exact finish_carries r mine _
  · exact emit_ending_carries rfl rfl rfl r mine

theorem setMembers_carries (r : Reviewer) {n : Nat} (mine : own n) (c : Call)
    (members : List (String × Member)) :
    Carries own r (r.setMembers n c members) := by
  unfold setMembers
  simp only
  split
  · exact (setCall_carries r mine _).trans (emit_carries ⟨rfl, rfl, rfl⟩ _)
  · exact setCall_carries r mine _

theorem resume_carries (r : Reviewer) {n : Nat} (mine : own n) (run : Nat)
    (outcome : Outcome Verdict) (c : Call) :
    Carries own r (r.resume n run outcome c) := by
  unfold resume
  split
  · exact .refl r
  · split
    · simp only
      split
      · exact setCall_carries r mine _
      · split
        · exact finish_carries r mine _
        · exact finish_carries r mine _
    · exact finish_carries r mine _
    · exact finish_carries r mine _
    · exact finish_carries r mine _
    · exact setMembers_carries r mine c _
    · exact withoutEdits_carries r mine _ _ _
    · exact finish_carries r mine _
    · exact .refl r

/-- Calls under way go on after a run, one after another. -/
theorem foldl_resume_carries (r : Reviewer) (mine : ∀ n, r.calls.get? n ≠ none → own n) (run : Nat)
    (outcome : Outcome Verdict) (numbers : List Nat) :
    Carries own r (numbers.foldl (fun r n =>
      match r.calls.get? n with
      | some c => r.resume n run outcome c
      | none => r) r) := by
  induction numbers generalizing r with
  | nil => exact .refl r
  | cons n rest ih =>
      have hfirst : Carries own r (match r.calls.get? n with
          | some c => r.resume n run outcome c
          | none => r) := by
        split
        · rename_i call
          exact resume_carries r (mine n (by simp [call])) run outcome _
        · exact .refl r
      exact hfirst.trans (ih _ fun m hcall => (hfirst.minds.calls m hcall).elim (mine m) id)

theorem ended_carries (r : Reviewer) (mine : ∀ n, r.calls.get? n ≠ none → own n) (run : Nat) :
    Carries own r (r.ended run) := by
  unfold ended
  split
  · exact .refl r
  · exact foldl_resume_carries r mine run _ _

theorem shutdown_carries (r : Reviewer) {n : Nat} (mine : own n) : Carries own r (r.shutdown n) := by
  have hcancelled : Carries own r (r.sessions.registered.values.foldl cancelNewest r) :=
    foldl_carries cancelNewest_carries r _
  have hclosed : Carries own r { r.sessions.registered.values.foldl cancelNewest r with
      sessions := (r.sessions.registered.values.foldl cancelNewest r).sessions.closeAll } :=
    hcancelled.trans (.of_eq rfl rfl rfl rfl)
  unfold shutdown
  simp only
  split
  · exact hclosed.trans (finish_carries _ mine _)
  · exact hclosed.trans (setCall_carries _ mine _)

/-! ## Events that leave the registry alone -/

theorem call_diagnose_carries (r : Reviewer) {n : Nat} (mine : own n) (document : String) :
    Carries own r (r.call n (.diagnose document)) := by
  cases hdiagnose : r.diagnose document with
  | mk r₁ result =>
      have hcarries : Carries own r r₁ := Carries.of_diagnose hdiagnose
      unfold call
      simp only [hdiagnose]
      cases result with
      | some run => exact hcarries.trans (setCall_carries _ mine _)
      | none => exact hcarries.trans (finish_carries _ mine _)

theorem call_diagnoseAll_carries (r : Reviewer) {n : Nat} (mine : own n) (documents : List String) :
    Carries own r (r.call n (.diagnoseAll documents)) := by
  unfold call
  simp only
  split
  · exact finish_carries r mine _
  · exact (setCall_carries r mine _).trans
      (foldl_carries (fun r i => emit_carries (e := .later (.member n i)) ⟨rfl, rfl, rfl⟩ r) _ _)

theorem change_carries (r : Reviewer) (document : String) : Carries own r (r.change document) := by
  unfold change
  simp only
  split
  · exact .refl r
  · split
    · exact .of_eq rfl rfl rfl rfl
    · rename_i delay _
      refine Carries.trans (.of_eq ?_ ?_ ?_ ?_)
        (emit_carries (e := .timer r.timers delay) ⟨rfl, rfl, rfl⟩ _)
      all_goals rfl

theorem close_carries (r : Reviewer) (document : String) : Carries own r (r.close document) := by
  have hcancelled : Carries own r
      (((r.sessions.get? (r.document document).uri).map r.cancelNewest).getD r) := by
    cases r.sessions.get? (r.document document).uri with
    | none => exact .refl r
    | some number => exact cancelNewest_carries r number
  unfold close
  exact hcancelled.trans (.of_eq rfl rfl rfl rfl)

theorem elapsed_carries (r : Reviewer) (timer : Nat) : Carries own r (r.elapsed timer) := by
  unfold elapsed
  split
  · exact .refl r
  · split
    · exact .refl r
    · refine Carries.trans (.of_eq ?_ ?_ ?_ ?_) (dispatch_carries _ _ _)
      all_goals rfl

theorem member_carries (r : Reviewer) {n : Nat} (mine : own n) (i : Nat) (c : Call) :
    Carries own r (r.member n i c) := by
  unfold member
  split
  · exact finish_carries r mine _
  · split
    · split
      · exact .refl r
      · split
        · rename_i hdiagnose
          exact (Carries.of_diagnose hdiagnose).trans (setMembers_carries _ mine c _)
        · rename_i hdiagnose
          exact (Carries.of_diagnose hdiagnose).trans (setMembers_carries _ mine c _)
    · exact .refl r

theorem gathered_carries (r : Reviewer) {n : Nat} (mine : own n) (c : Call) :
    Carries own r (r.gathered n c) := by
  unfold gathered
  split
  · exact finish_carries r mine _
  · split
    · exact finish_carries r mine _
    · exact .refl r

theorem withCall_carries {n : Nat} (mine : r.calls.get? n ≠ none → own n) {f : Call → Reviewer}
    (h : own n → ∀ c, Carries own r (f c)) : Carries own r (r.withCall n f) := by
  unfold withCall
  split
  · rename_i call
    exact h (mine (by simp [call])) _
  · exact .refl r

/-- The calls that the event may concern. -/
def Own (r : Reviewer) (e : Event) (n : Nat) : Prop :=
  r.calls.get? n ≠ none ∨ e.number? = some n

theorem step_carries {e : Event} (quiet : e.quiet = true) : Carries (r.Own e) r (r.step e) := by
  cases e with
  | call n request =>
      have hmine : r.Own (.call n request) n := .inr rfl
      cases request with
      | diagnose document => exact call_diagnose_carries r hmine document
      | diagnoseAll documents => exact call_diagnoseAll_carries r hmine documents
      | shutdown => exact shutdown_carries r hmine
      | format document token => cases quiet
      | fixAll document token editable => cases quiet
  | change document => exact change_carries r document
  | close document => exact close_carries r document
  | update document text => exact .of_eq rfl rfl rfl rfl
  | configure debounce timeout onChange => exact .of_eq rfl rfl rfl rfl
  | elapsed timer => exact elapsed_carries r timer
  | member n i => exact withCall_carries .inl fun mine c => member_carries r mine i c
  | ended n => exact ended_carries r (fun _ => .inl) n
  | gathered n => exact withCall_carries .inl fun mine c => gathered_carries r mine c
  | registry e => cases quiet
  | begin n => cases quiet
  | abort n => cases quiet

end Shellwright.Reviewer
