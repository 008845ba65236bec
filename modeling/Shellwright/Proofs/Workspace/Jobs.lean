import Mathlib.Algebra.GroupWithZero.Nat
import Mathlib.Data.List.Perm.Basic
import Shellwright.Proofs.Workspace.Opening
/-!
# The check of one document among others

The run of a document that has been opened is to begin, is being checked, has ended or has been replied
to, and each phase comes with the tasks that lead to the next one.
-/

namespace Shellwright

open Registry (Progress setPart allChecked)
open Workspace (Task)

/-- The number of the run that a call of the registry is about. -/
def CallKey.run? : CallKey → Option Nat
  | .run k => some k
  | .host _ => none

/-- The run that a task is about. -/
def Workspace.Task.run? : Task → Option Nat
  | .event (.review (.begin k)) => some k
  | .event (.review (.ended k)) => some k
  | .event (.review (.registry e)) => e.key?.bind CallKey.run?
  | .inquiry q => q.key.run?
  | _ => none

/-- A bound on the turns that a task leads to, itself among them; `width` tells how many plugins are asked
for a run. -/
def Workspace.Task.weight (width : Nat → Nat) : Task → Nat
  | .event (.review (.begin k)) => 4 * width k + 2
  | .event (.review (.registry (.begin _ _))) => 4
  | .inquiry _ => 3
  | .event (.review (.registry (.gathered _))) => 2
  | _ => 1

/-- What a review knows of a run and of the call that waits for it. -/
structure Lane where
  check : Option Registry.Call
  outcome : Option (Outcome Verdict)
  call : Option Review.Call

/-- The run of a document that has been opened; the call that waits for it has the same number. -/
structure Job where
  run : Nat
  limit : Option Execution.Limit
  plugins : List Plugin
  /-- What a plugin says. -/
  share : Plugin → Verdict

/-- How far a job has come. -/
inductive Phase
  | due
  | checking (parts : List (Plugin × Progress Verdict))
  | ended
  | replied

namespace Job

def document (j : Job) : String :=
  toString j.run

def options (j : Job) : CallOptions :=
  ⟨some (.run j.run), j.limit⟩

def verdict (j : Job) : Verdict :=
  Verdict.merge (j.plugins.map j.share)

/-- The call that waits for the run. -/
def call (j : Job) : Review.Call :=
  ⟨.running j.run, false⟩

def checking (j : Job) (parts : List (Plugin × Progress Verdict)) : Registry.Call :=
  ⟨.checking j.document j.options parts, false⟩

def beginning (j : Job) : Task :=
  .event (.review (.begin j.run))

def asking (j : Job) (i : Nat) : Task :=
  .event (.review (.registry (.begin (.run j.run) i)))

def answering (j : Job) (i : Nat) (p : Plugin) : Task :=
  .inquiry ⟨.run j.run, i, p, .check j.document j.options⟩

def gathering (j : Job) : Task :=
  .event (.review (.registry (.gathered (.run j.run))))

def ending (j : Job) : Task :=
  .event (.review (.ended j.run))

/-- What is still to happen for part `i`. -/
def partTasks (j : Job) (i : Nat) (p : Plugin) : Progress Verdict → List Task
  | .waiting => [j.asking i]
  | .asked => [j.answering i p]
  | .settled _ => []

/-- What is still to happen for the parts from number `i` on. -/
def openTasks (j : Job) (i : Nat) : List (Plugin × Progress Verdict) → List Task
  | [] => []
  | (p, progress) :: rest => j.partTasks i p progress ++ j.openTasks (i + 1) rest

/-- The verdicts are put together when all are there. -/
def gatherings (j : Job) (parts : List (Plugin × Progress Verdict)) : List Task :=
  if allChecked parts then [j.gathering] else []

end Job

namespace Phase

def lane (j : Job) : Phase → Lane
  | .due => ⟨none, none, some j.call⟩
  | .checking parts => ⟨some (j.checking parts), none, some j.call⟩
  | .ended => ⟨none, some (.done j.verdict), some j.call⟩
  | .replied => ⟨none, some (.done j.verdict), none⟩

/-- What is still to happen in a phase. -/
def tasks (j : Job) : Phase → List Task
  | .due => [j.beginning]
  | .checking parts => j.openTasks 0 parts ++ j.gatherings parts
  | .ended => [j.ending]
  | .replied => []

def replies (j : Job) : Phase → List (Nat × Outcome Workspace.Reply)
  | .replied => [(j.run, .done (.review (.verdict (some j.verdict))))]
  | _ => []

/-- The plugins of the job are asked, and what they have said is what they say. -/
def Fits (j : Job) : Phase → Prop
  | .checking parts => parts.map Prod.fst = j.plugins ∧
      ∀ (i : Nat) p v, parts[i]? = some (p, .settled v) → v = j.share p
  | _ => True

end Phase

/-- A task has its turn: the phase that comes after it, and the tasks that it leaves. -/
inductive Job.Goes (j : Job) : Phase → Task → Phase → List Task → Prop
  | begins (someone : j.plugins ≠ []) :
      j.Goes .due j.beginning (.checking (j.plugins.map (·, .waiting)))
        ((List.range j.plugins.length).map j.asking)
  | passes (nobody : j.plugins = []) : j.Goes .due j.beginning .ended [j.ending]
  | asks {parts : List (Plugin × Progress Verdict)} {i : Nat} {p : Plugin}
      (part : parts[i]? = some (p, .waiting)) :
      j.Goes (.checking parts) (j.asking i) (.checking (setPart parts i .asked)) [j.answering i p]
  | settles {parts : List (Plugin × Progress Verdict)} {i : Nat} {p : Plugin}
      (part : parts[i]? = some (p, .asked)) :
      j.Goes (.checking parts) (j.answering i p) (.checking (setPart parts i (.settled (j.share p))))
        (j.gatherings (setPart parts i (.settled (j.share p))))
  | gathers {parts : List (Plugin × Progress Verdict)} (all : allChecked parts = true) :
      j.Goes (.checking parts) j.gathering .ended [j.ending]
  | replies : j.Goes .ended j.ending .replied []

namespace Job

variable {j : Job} {phase phase' : Phase} {t : Task} {new : List Task}
  {parts : List (Plugin × Progress Verdict)} {i k : Nat} {p : Plugin} {progress : Progress Verdict}

/-! ## Tasks -/

/-- The tasks of one part come apart from those of the others. -/
theorem openTasks_setPart (j : Job) (part : parts[k]? = some (p, progress)) (i : Nat) :
    ∃ rest, (j.openTasks i parts).Perm (j.partTasks (i + k) p progress ++ rest) ∧
      ∀ progress', (j.openTasks i (setPart parts k progress')).Perm
        (j.partTasks (i + k) p progress' ++ rest) := by
  induction parts generalizing i k with
  | nil => cases part
  | cons entry others ih =>
      obtain ⟨q, old⟩ := entry
      cases k with
      | zero =>
          obtain ⟨rfl, rfl⟩ : q = p ∧ old = progress := by simpa using part
          exact ⟨j.openTasks (i + 1) others, .refl _, fun progress' => .refl _⟩
      | succ k =>
          obtain ⟨rest, hbefore, hafter⟩ := ih part (i + 1)
          rw [show i + 1 + k = i + (k + 1) by omega] at hbefore hafter
          refine ⟨j.partTasks i q old ++ rest, ?_, fun progress' => ?_⟩
          · exact (hbefore.append_left _).trans (List.perm_append_comm_assoc _ _ _)
          · exact ((hafter progress').append_left _).trans (List.perm_append_comm_assoc _ _ _)

theorem openTasks_waiting (j : Job) (ps : List Plugin) (i : Nat) :
    j.openTasks i (ps.map (·, .waiting)) = (List.range' i ps.length).map j.asking := by
  induction ps generalizing i with
  | nil => rfl
  | cons p rest ih => exact congrArg (j.asking i :: ·) (ih (i + 1))

/-- An open task is that of a part which has not answered. -/
theorem mem_openTasks (h : t ∈ j.openTasks i parts) :
    ∃ (k : Nat) (p : Plugin), (parts[k]? = some (p, .waiting) ∧ t = j.asking (i + k)) ∨
      parts[k]? = some (p, .asked) ∧ t = j.answering (i + k) p := by
  induction parts generalizing i with
  | nil => cases h
  | cons entry rest ih =>
      obtain ⟨p, progress⟩ := entry
      rcases List.mem_append.1 h with hfirst | hrest
      · refine ⟨0, p, ?_⟩
        cases progress with
        | waiting => exact .inl ⟨rfl, List.mem_singleton.1 hfirst⟩
        | asked => exact .inr ⟨rfl, List.mem_singleton.1 hfirst⟩
        | settled v => cases hfirst
      · obtain ⟨k, q, hk⟩ := ih hrest
        refine ⟨k + 1, q, ?_⟩
        rw [show i + (k + 1) = i + 1 + k by omega]
        exact hk

/-- Nothing is to happen for any part when all have answered. -/
theorem openTasks_eq_nil : j.openTasks i parts = [] ↔ allChecked parts = true := by
  induction parts generalizing i with
  | nil => exact ⟨fun _ => rfl, fun _ => rfl⟩
  | cons entry rest ih =>
      obtain ⟨p, progress⟩ := entry
      have hchecked : allChecked ((p, progress) :: rest) = true ↔
          progress.result?.isSome = true ∧ allChecked rest = true := Bool.and_eq_true_iff
      rw [openTasks, List.append_eq_nil_iff, hchecked, ih]
      cases progress <;> simp [partTasks, Progress.result?]

theorem gatherings_of_open (part : parts[i]? = some (p, progress)) (unsettled : progress.result? = none) :
    j.gatherings parts = [] :=
  if_neg (by rw [Registry.not_allChecked part unsettled]; exact Bool.false_ne_true)

/-- A phase without tasks is the last one. -/
theorem eq_replied (h : phase.tasks j = []) : phase = .replied := by
  cases phase with
  | replied => rfl
  | due => cases h
  | ended => cases h
  | checking parts =>
      obtain ⟨hopen, hgatherings⟩ := List.append_eq_nil_iff.1 h
      rw [gatherings, openTasks_eq_nil.1 hopen] at hgatherings
      cases hgatherings

/-- Every task of a phase can have its turn. -/
theorem exists_goes (h : t ∈ phase.tasks j) : ∃ phase' new, j.Goes phase t phase' new := by
  cases phase with
  | due =>
      obtain rfl := List.mem_singleton.1 h
      by_cases hnobody : j.plugins = []
      · exact ⟨_, _, .passes hnobody⟩
      · exact ⟨_, _, .begins hnobody⟩
  | checking parts =>
      rcases List.mem_append.1 h with hopen | hgathering
      · obtain ⟨i, p, ⟨hpart, rfl⟩ | ⟨hpart, rfl⟩⟩ := mem_openTasks hopen
        · rw [Nat.zero_add]
          exact ⟨_, _, .asks hpart⟩
        · rw [Nat.zero_add]
          exact ⟨_, _, .settles hpart⟩
      · unfold gatherings at hgathering
        split at hgathering
        · rename_i hall
          obtain rfl := List.mem_singleton.1 hgathering
          exact ⟨_, _, .gathers hall⟩
        · cases hgathering
  | ended =>
      obtain rfl := List.mem_singleton.1 h
      exact ⟨_, _, .replies⟩
  | replied => cases h

/-! ## Turns -/

/-- A turn takes its task away and adds what it leaves. -/
theorem Goes.tasks (h : j.Goes phase t phase' new) :
    ∃ rest, (phase.tasks j).Perm (t :: rest) ∧ (phase'.tasks j).Perm (rest ++ new) := by
  cases h with
  | begins someone =>
      refine ⟨[], .refl _, ?_⟩
      have hopen := j.openTasks_waiting j.plugins 0
      rw [← List.range_eq_range'] at hopen
      have hnone : j.gatherings (j.plugins.map (·, .waiting)) = [] := by
        rw [gatherings, Registry.allChecked_waiting someone]
        rfl
      rw [Phase.tasks, hopen, hnone, List.append_nil]
      exact .refl _
  | passes nobody => exact ⟨[], .refl _, .refl _⟩
  | asks part =>
      obtain ⟨rest, hbefore, hafter⟩ := j.openTasks_setPart part 0
      rw [Nat.zero_add] at hbefore hafter
      refine ⟨rest, ?_, ?_⟩
      · rw [Phase.tasks, gatherings_of_open part rfl, List.append_nil]
        exact hbefore
      · rw [Phase.tasks, gatherings_of_open (Registry.getElem?_setPart_self part _) rfl,
          List.append_nil]
        exact (hafter .asked).trans List.perm_append_comm
  | settles part =>
      obtain ⟨rest, hbefore, hafter⟩ := j.openTasks_setPart part 0
      rw [Nat.zero_add] at hbefore hafter
      refine ⟨rest, ?_, ?_⟩
      · rw [Phase.tasks, gatherings_of_open part rfl, List.append_nil]
        exact hbefore
      · exact (hafter (.settled _)).append_right _
  | gathers all =>
      refine ⟨[], ?_, .refl _⟩
      rw [Phase.tasks, openTasks_eq_nil.2 all, gatherings, all]
      exact .refl _
  | replies => exact ⟨[], .refl _, .refl _⟩

/-- The verdicts that are put together are those of all plugins of the job. -/
theorem results_eq (fits : (Phase.checking parts).Fits j) (all : allChecked parts = true) :
    parts.filterMap (·.2.result?) = j.plugins.map j.share := by
  obtain ⟨hplugins, hshare⟩ := fits
  rw [← hplugins]
  clear hplugins
  induction parts with
  | nil => rfl
  | cons entry rest ih =>
      obtain ⟨p, progress⟩ := entry
      obtain ⟨hfirst, hrest⟩ := Bool.and_eq_true_iff.1 all
      have hothers := ih hrest fun i q v hq => hshare (i + 1) q v hq
      cases progress with
      | settled v =>
          have hv : v = j.share p := hshare 0 p v rfl
          exact hv ▸ congrArg (v :: ·) hothers
      | waiting => cases hfirst
      | asked => cases hfirst

theorem fits_setPart (fits : (Phase.checking parts).Fits j) (part : parts[i]? = some (p, progress))
    {progress' : Progress Verdict} (said : ∀ v, progress' = .settled v → v = j.share p) :
    (Phase.checking (setPart parts i progress')).Fits j := by
  refine ⟨(Registry.map_fst_setPart parts i progress').trans fits.1, fun k q v hk => ?_⟩
  by_cases hki : k = i
  · subst hki
    rw [Registry.getElem?_setPart_self part] at hk
    cases hk
    exact said v rfl
  · rw [Registry.getElem?_setPart_of_ne parts progress' hki] at hk
    exact fits.2 k q v hk

theorem Goes.fits (h : j.Goes phase t phase' new) (fits : phase.Fits j) : phase'.Fits j := by
  cases h with
  | begins someone =>
      refine ⟨by simp [Function.comp_def], fun i p v hi => ?_⟩
      rw [List.getElem?_map] at hi
      obtain ⟨q, _, heq⟩ := Option.map_eq_some_iff.1 hi
      cases heq
  | asks part => exact fits_setPart fits part nofun
  | settles part => exact fits_setPart fits part fun v hv => (Progress.settled.inj hv).symm
  | passes nobody => trivial
  | gathers all => trivial
  | replies => trivial

/-- A turn is about one run, and so is what it leaves. -/
theorem Goes.own (h : j.Goes phase t phase' new) :
    t.run? = some j.run ∧ ∀ t' ∈ new, t'.run? = some j.run := by
  cases h with
  | begins someone =>
      refine ⟨rfl, fun t' ht' => ?_⟩
      obtain ⟨i, _, rfl⟩ := List.mem_map.1 ht'
      rfl
  | settles part =>
      refine ⟨rfl, fun t' ht' => ?_⟩
      unfold gatherings at ht'
      split at ht'
      · obtain rfl := List.mem_singleton.1 ht'
        rfl
      · cases ht'
  | replies => exact ⟨rfl, fun t' ht' => absurd ht' List.not_mem_nil⟩
  | passes nobody => exact ⟨rfl, fun t' ht' => List.mem_singleton.1 ht' ▸ rfl⟩
  | asks part => exact ⟨rfl, fun t' ht' => List.mem_singleton.1 ht' ▸ rfl⟩
  | gathers all => exact ⟨rfl, fun t' ht' => List.mem_singleton.1 ht' ▸ rfl⟩

/-- What a turn leaves weighs less than its task. -/
theorem Goes.weight (h : j.Goes phase t phase' new) {width : Nat → Nat}
    (own : width j.run = j.plugins.length) :
    (new.map (Task.weight width)).sum < t.weight width := by
  cases h with
  | begins someone =>
      have hconst (is : List Nat) : ((is.map j.asking).map (Task.weight width)).sum = 4 * is.length := by
        induction is with
        | nil => rfl
        | cons i rest ih =>
            change 4 + ((rest.map j.asking).map (Task.weight width)).sum = 4 * (rest.length + 1)
            omega
      have hbegins := hconst (List.range j.plugins.length)
      rw [List.length_range] at hbegins
      change _ < 4 * width j.run + 2
      omega
  | settles part =>
      unfold gatherings
      split
      · exact Nat.lt_add_one 2
      · exact Nat.zero_lt_succ 2
  | passes nobody =>
      change 1 < 4 * width j.run + 2
      omega
  | asks part => exact Nat.lt_add_one 3
  | gathers all => exact Nat.lt_add_one 1
  | replies => exact Nat.lt_add_one 0

end Job

end Shellwright
