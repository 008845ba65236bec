import Shellwright.Plugin.Basic
import Shellwright.Proofs.Command.Reporting
import Shellwright.Proofs.Diagnostic.Edits
import Shellwright.Proofs.Review.Fixing
/-!
# Formats that change nothing

A format without edits and diagnostics is taken for a sign that the text is formatted. That is so
exactly when no formatter failed to start and was told to keep quiet about it.
-/

namespace Shellwright

/-- What the run of a tool comes to that formats a text. -/
inductive ToolRun
  /-- It was read; a failed execution is kept quiet unless `reports`. -/
  | read (reports : Bool) (report : Report)
  | raised (text : String)

namespace ToolRun

/-- The answer of a plugin that had its tool format `text`. -/
def answer (p : Plugin) (text : String) : ToolRun → Answer
  | .read reports report => .formatted (FormatVerdict.ofReport p.name reports report text)
  | .raised text => .raised text

/-- The tool ran to its end and gave the text back. -/
def Reproduces (text : String) : ToolRun → Prop
  | .read _ report => report.isBlocking = false ∧ report.formatted = some text
  | .raised _ => False

/-- The tool could not be started, and nothing is said about it. -/
def IsSilenced : ToolRun → Prop
  | .read reports report =>
    reports = false ∧ ∃ failure, report.executionFailure = some failure ∧
      failure.isInconclusive = false
  | .raised _ => False

/-- Every plugin that works with a tool answers so. -/
theorem exists_answer (p : Plugin) (tool : Tool) (reports : Bool) (document : String)
    (options : CallOptions) (text : String) (e : Execution) :
    ∃ run : ToolRun, (p.answerOf tool reports (.format document options) text e).1 =
      run.answer p text := by
  simp only [Plugin.answerOf]
  split
  · rename_i error _
    exact ⟨.raised error.message, rfl⟩
  · rename_i report _
    exact ⟨.read reports report, rfl⟩

end ToolRun

variable {source text : String} {reports : Bool} {r : Report}

theorem Diagnostic.ofReport_ne_nil (blocking : r.isBlocking = true) :
    Diagnostic.ofReport source r text ≠ [] := by
  unfold Diagnostic.ofReport
  split
  · nofun
  · nofun
  · rename_i hexecution hfailure
    have hunparsed : r.syntaxErrors ≠ [] := by
      simpa [Report.isBlocking, hexecution, hfailure] using blocking
    simp [hunparsed]

/-- A tool that failed leaves no trace exactly when it did not start and is kept quiet. -/
theorem Verdict.ofReport_diagnostics (blocking : r.isBlocking = true)
    (conclusive : r.isInconclusive = false) :
    (Verdict.ofReport source reports r text).diagnostics = [] ↔
      reports = false ∧ r.executionFailure.isSome = true := by
  unfold Verdict.ofReport
  rw [conclusive]
  simp only [Bool.false_eq_true, if_false]
  split
  · rename_i hexecution
    simp [hexecution]
  · rename_i hreported
    refine iff_of_false (Diagnostic.ofReport_ne_nil blocking) ?_
    rintro ⟨rfl, hsome⟩
    obtain ⟨failure, hfailure⟩ := Option.isSome_iff_exists.1 hsome
    exact hreported failure hfailure rfl

theorem ToolRun.isBlocking_of_silenced (h : (ToolRun.read reports r).IsSilenced) :
    r.isBlocking = true := by
  obtain ⟨-, failure, hfailure, -⟩ := h
  exact r.isBlocking_of_failure hfailure

theorem ToolRun.not_silenced {run : ToolRun} (h : run.Reproduces text) : ¬ run.IsSilenced := by
  intro hsilenced
  cases run with
  | raised message => exact h.elim
  | read reports report =>
      have hclear : report.isBlocking = false := h.1
      rw [isBlocking_of_silenced hsilenced] at hclear
      cases hclear

/-- The verdict on a tool that was cut short says so. -/
theorem FormatVerdict.not_quiet_of_cut (cut : r.isInconclusive = true) :
    ¬ (FormatVerdict.ofReport source reports r text).IsQuiet := by
  intro hquiet
  have hconclusive := hquiet.conclusive
  rw [FormatVerdict.ofReport, if_pos cut] at hconclusive
  cases hconclusive

theorem ToolRun.isSilenced_iff (conclusive : r.isInconclusive = false) :
    (ToolRun.read reports r).IsSilenced ↔ reports = false ∧ r.executionFailure.isSome = true := by
  constructor
  · rintro ⟨hkept, failure, hfailure, -⟩
    exact ⟨hkept, Option.isSome_iff_exists.2 ⟨failure, hfailure⟩⟩
  · rintro ⟨hkept, hsome⟩
    obtain ⟨failure, hfailure⟩ := Option.isSome_iff_exists.1 hsome
    refine ⟨hkept, failure, hfailure, ?_⟩
    simpa [Report.isInconclusive, hfailure] using conclusive

/-- The verdict on a failure says nothing exactly when the tool did not start and is kept quiet. -/
theorem FormatVerdict.isQuiet_of_blocking (blocking : r.isBlocking = true)
    (conclusive : r.isInconclusive = false) :
    (FormatVerdict.ofReport source reports r text).IsQuiet ↔ (ToolRun.read reports r).IsSilenced := by
  have hdiagnostics : (Verdict.ofReport source reports r text).diagnostics = [] ↔
      reports = false ∧ r.executionFailure.isSome = true :=
    Verdict.ofReport_diagnostics blocking conclusive
  rw [ToolRun.isSilenced_iff conclusive, ← hdiagnostics, FormatVerdict.ofReport, conclusive,
    if_neg Bool.false_ne_true, if_pos blocking]
  exact ⟨fun hquiet => hquiet.diagnostics, fun hnone => ⟨rfl, rfl, hnone⟩⟩

/-- The verdict on a tool that ran to its end says nothing exactly when it gave the text back. -/
theorem FormatVerdict.isQuiet_of_clear (clear : r.isBlocking = false)
    (conclusive : r.isInconclusive = false) :
    (FormatVerdict.ofReport source reports r text).IsQuiet ↔
      (ToolRun.read reports r).Reproduces text := by
  rw [FormatVerdict.ofReport, conclusive, clear, if_neg Bool.false_ne_true,
    if_neg Bool.false_ne_true]
  cases hformatted : r.formatted with
  | none =>
      refine iff_of_false (fun hquiet => by cases hquiet.diagnostics) ?_
      rintro ⟨-, hsome⟩
      rw [hformatted] at hsome
      cases hsome
  | some formatted =>
      have hedits : r.edits text = [] ↔ formatted = text := Report.edits_eq_nil clear hformatted
      constructor
      · intro hquiet
        exact ⟨clear, by rw [hformatted, hedits.1 hquiet.edits]⟩
      · rintro ⟨-, hsame⟩
        rw [hformatted] at hsame
        exact ⟨rfl, hedits.2 (Option.some.inj hsame), rfl⟩

/-- A verdict says nothing when the tool gave the text back, or did not start and is kept quiet. -/
theorem FormatVerdict.isQuiet_ofReport :
    (FormatVerdict.ofReport source reports r text).IsQuiet ↔
      (ToolRun.read reports r).Reproduces text ∨ (ToolRun.read reports r).IsSilenced := by
  cases hconclusive : r.isInconclusive with
  | true =>
      refine iff_of_false (not_quiet_of_cut hconclusive) ?_
      obtain ⟨failure, hfailure, hcut⟩ := (Option.any_eq_true _ _).1 hconclusive
      rintro (⟨hclear, -⟩ | ⟨-, failure', hfailure', hstarted⟩)
      · rw [r.isBlocking_of_failure hfailure] at hclear
        cases hclear
      · obtain rfl := Option.some.inj (hfailure.symm.trans hfailure')
        rw [hcut] at hstarted
        cases hstarted
  | false =>
      cases hblocking : r.isBlocking with
      | true =>
          have hnot : ¬ (ToolRun.read reports r).Reproduces text := fun h =>
            Bool.false_ne_true (h.1.symm.trans hblocking)
          rw [isQuiet_of_blocking hblocking hconclusive, or_iff_right hnot]
      | false =>
          have hnot : ¬ (ToolRun.read reports r).IsSilenced := fun h =>
            Bool.false_ne_true (hblocking.symm.trans (ToolRun.isBlocking_of_silenced h))
          rw [isQuiet_of_clear hblocking hconclusive, or_iff_left hnot]

theorem ToolRun.isQuiet_share (run : ToolRun) (p : Plugin) (d : TextDocument) :
    (Registry.formatShare p d (run.answer p text)).IsQuiet ↔
      run.Reproduces text ∨ run.IsSilenced := by
  cases run with
  | read reports report => exact FormatVerdict.isQuiet_ofReport
  | raised message =>
      refine iff_of_false (fun hquiet => by cases hquiet.diagnostics) ?_
      rintro (h | h) <;> exact h

namespace Review

/-- A fix is without change exactly when the verdict says nothing. -/
theorem fixOutcome_unchanged {v : FormatVerdict} (accepted : Bool) :
    fixOutcome v accepted = .unchanged ↔ v.IsQuiet := by
  constructor
  · intro h
    unfold fixOutcome at h
    split at h
    · rename_i hedits
      split at h
      · cases h
      · rename_i hconclusive
        split at h
        · rename_i hdiagnostics
          exact ⟨by simpa using hconclusive, List.isEmpty_iff.1 hedits,
            List.isEmpty_iff.1 hdiagnostics⟩
        · cases h
    · split at h <;> cases h
  · rintro ⟨hconclusive, hedits, hdiagnostics⟩
    simp [fixOutcome, hconclusive, hedits, hdiagnostics]

namespace Course

variable (c : Course)

/-- The formatters that call `n` consulted up to event `t` answered for these runs of their tools. -/
def Ran (run : Consultation → ToolRun) (n : Nat) (document : String) (t : Nat) : Prop :=
  ∀ k ∈ c.consulted n (t + 1), k.answer = (run k).answer k.plugin (c.textAsked document k)

/-- Every formatter that was consulted ran to its end and gave back the text it was given. -/
def AllReproduce (run : Consultation → ToolRun) (n : Nat) (document : String) (t : Nat) : Prop :=
  ∀ k ∈ c.consulted n (t + 1), (run k).Reproduces (c.textAsked document k)

/-- Some formatters did not start and were kept quiet, and the others gave back the text. -/
structure Hushed (run : Consultation → ToolRun) (n : Nat) (document : String) (t : Nat) : Prop where
  nothing : ∀ k ∈ c.consulted n (t + 1),
    (run k).Reproduces (c.textAsked document k) ∨ (run k).IsSilenced
  silenced : ∃ k ∈ c.consulted n (t + 1), (run k).IsSilenced

/-- That the verdict `v` of a format says nothing, that a fix changed nothing or that the check of files
succeeds is a sign that the text is formatted. -/
structure Trusted (run : Consultation → ToolRun) (n : Nat) (document : String) (t₀ t : Nat)
    (v : FormatVerdict) : Prop where
  verdict : v.IsQuiet → c.AllReproduce run n document t
  fixed : ∀ token editable u, c.Starts n t₀ document token (.fix editable) → t₀ ≤ u →
    c.Single n t₀ u → c.Ends u n (.done (.fixed .unchanged)) → c.AllReproduce run n document t
  checked : ∀ settings loader timed files s s₁ s' fs,
    Command.formatAll settings loader timed files s = (.ok fs, s₁) →
    Command.format settings loader timed .check files s = (.ok 0, s') →
    (∃ f ∈ fs, f.verdict = v) → c.AllReproduce run n document t

variable {c} {run : Consultation → ToolRun} {n t t₀ : Nat} {document : String} {options : CallOptions}
  {v : FormatVerdict}

theorem Formats.isQuiet_iff (h : c.Formats n document options t₀ t v) (ran : c.Ran run n document t) :
    v.IsQuiet ↔ ∀ k ∈ c.consulted n (t + 1),
      (run k).Reproduces (c.textAsked document k) ∨ (run k).IsSilenced := by
  rw [h.consulted.verdict, FormatVerdict.isQuiet_first]
  constructor
  · intro hquiet k hk
    have hshare := hquiet _ (List.mem_map_of_mem hk)
    rw [share, ran k hk] at hshare
    exact ((run k).isQuiet_share _ _).1 hshare
  · intro hnothing w hw
    obtain ⟨k, hk, rfl⟩ := List.mem_map.1 hw
    rw [share, ran k hk]
    exact ((run k).isQuiet_share _ _).2 (hnothing k hk)

/-- A document is fixed with one formatter, whose tool comes to this report. -/
def fixBy (reports : Bool) (report : Report) : Course :=
  fixOf [formatter 0 "fmt"] "echo" [.registry (.answered (.host 0) 0
    (.formatted (FormatVerdict.ofReport "fmt" reports report "echo")))]

theorem fixBy_single {reports : Bool} {report : Report} (t : Nat) :
    (fixBy reports report).Single 0 0 t :=
  fixOf_single (List.forall_mem_singleton.2 id) t

theorem fixBy_formats {reports : Bool} {report : Report} {v : FormatVerdict}
    (ended : (fixBy reports report).Settles 1 (.host 0) (.done (.formatted v))) :
    (fixBy reports report).Formats 0 "d" {} 0 1 v :=
  fixOf_starts.formats (Nat.zero_le 1) (fixBy_single 1) ended

/-- The tool gives the text back. -/
def sameText : Report :=
  { formatted := some "echo" }

/-- The tool is not there. -/
def notInstalled : Report :=
  { executionFailure := some (.spawn "fmt not installed" none .notFound) }

end Course

end Review

end Shellwright
