import Shellwright.Proofs.Output.Legible
import Shellwright.Proofs.Output.Notes
/-!
# Verdicts of the formatter

A report of the formatter says one thing: that there was no execution to report on, that the document could
not be parsed, that it is not formatted, what it is when formatted, that the formatter failed, or, by saying
nothing, that the document is formatted. Which one it is depends on the exit status, on what was asked for and
on both outputs, and every report comes with the circumstances it stands for.

A clean report of the formatter stands for a run that succeeded. The linter is also reported on that way when
it ended abnormally without a finding or a note: when its exit status is not that of a failure, or when it has
not complained on standard error.
-/

namespace Shellwright

namespace Report

/-- How many things a report tells of; each issue counts. -/
def populated (r : Report) : Nat :=
  r.executionFailure.toList.length + r.failure.toList.length + r.formatted.toList.length + r.issues.length

/-- The report finds nothing wrong and has nothing to hand over. -/
structure IsClean (r : Report) : Prop where
  executionFailure : r.executionFailure = none
  failure : r.failure = none
  formatted : r.formatted = none
  issues : r.issues = []

end Report

namespace Output

open Shellwright.Text

/-! ## Syntax errors -/

/-- Some line has the form of a syntax error. -/
def HasError (text : String) : Prop :=
  ∃ raw ∈ lines text.toList, ∃ l : ErrorLine, l.Spells (trim raw)

/-- The issue is told by the first line that has the form of a syntax error, its coordinates counted from
zero. Of several ways to take that line apart the one with the shortest file counts. -/
def FirstError (text : String) (issue : SyntaxIssue) : Prop :=
  ∃ (before : List (List Char)) (raw : List Char) (after : List (List Char)) (l : ErrorLine),
    lines text.toList = before ++ raw :: after ∧
    (∀ line ∈ before, ∀ l' : ErrorLine, ¬ l'.Spells (trim line)) ∧
    l.Spells (trim raw) ∧ (∀ l' : ErrorLine, l'.Spells (trim raw) → l.file.length ≤ l'.file.length) ∧
    issue = ⟨digitsValue l.line - 1, digitsValue l.column - 1, String.ofList (trim l.message)⟩

theorem errorLines_eq (text : String) :
    errorLines text = (lines text.toList).filterMap fun raw => ErrorLine.read (trim raw) :=
  matching_eq rfl _

theorem errorLines_eq_nil_iff {text : String} : errorLines text = [] ↔ ¬ HasError text := by
  unfold HasError
  rw [errorLines_eq, List.filterMap_eq_nil_iff]
  push Not
  exact forall₂_congr fun raw hraw => ErrorLine.read_eq_none_iff (feed_not_mem_trim hraw)

/-- A text of blanks has no syntax error. -/
theorem not_hasError_of_blank {text : String} (blank : isBlankText text = true) : ¬ HasError text := by
  rintro ⟨raw, hraw, l, -, hspells⟩
  have hnil : trim raw = [] := trim_eq_nil_iff.2 fun c hc =>
    List.all_eq_true.1 blank c ((infix_of_mem_lines hraw).mem hc)
  rw [hnil] at hspells
  simp [ErrorLine.remainder] at hspells

theorem ErrorLine.eq_of_issue_eq_ok {l : ErrorLine} {issue : SyntaxIssue} (h : l.issue = .ok issue) :
    issue = ⟨digitsValue l.line - 1, digitsValue l.column - 1, String.ofList (trim l.message)⟩ := by
  have hlegible := ErrorLine.issue_ok_iff.1 ⟨issue, h⟩
  unfold ErrorLine.issue at h
  rw [coordinate_of_short hlegible.1, coordinate_of_short hlegible.2] at h
  exact (Except.ok.inj h).symm

theorem firstError_of_errorLines {text : String} {l : ErrorLine} {rest : List ErrorLine}
    {issue : SyntaxIssue} (h : errorLines text = l :: rest) (hl : l.issue = .ok issue) :
    FirstError text issue := by
  rw [errorLines_eq, List.filterMap_eq_cons_iff] at h
  obtain ⟨before, raw, after, hlines, hbefore, hraw, -⟩ := h
  have single {line : List Char} (h : line ∈ before ++ raw :: after) : '\n' ∉ trim line :=
    feed_not_mem_trim (hlines ▸ h)
  obtain ⟨hspells, hshortest⟩ := (ErrorLine.read_eq_some_iff (single (by simp))).1 hraw
  refine ⟨before, raw, after, l, hlines, fun line hline => ?_, hspells, hshortest,
    ErrorLine.eq_of_issue_eq_ok hl⟩
  exact (ErrorLine.read_eq_none_iff (single (List.mem_append_left _ hline))).1 (hbefore line hline)

/-- A syntax error is found where there is one, and the first one is. -/
theorem firstSyntaxError_spec {text : String} {found : Option SyntaxIssue}
    (h : firstSyntaxError text = .ok found) :
    (found ≠ none ↔ HasError text) ∧ ∀ issue ∈ found, FirstError text issue := by
  refine ⟨?_, fun issue hissue => ?_⟩
  · rw [← not_iff_not, ← errorLines_eq_nil_iff, not_not]
    exact firstSyntaxError_eq_none_iff h
  · rw [Option.mem_def] at hissue
    subst hissue
    unfold firstSyntaxError at h
    split at h
    · cases h
    · rename_i l rest herrors
      obtain ⟨issue', hl, h⟩ := bind_eq_ok_iff.1 h
      cases h
      exact firstError_of_errorLines herrors hl

/-! ## Outcomes -/

/-- What the report says on an execution, with the circumstances in which it is said. -/
inductive Outcome (mode : FormatterMode) (e : Execution) : Report → Prop
  | unrun {failure : Failure} (ending : e.ending = .failed failure) :
      Outcome mode e { executionFailure := some failure, command := some e.command }
  | misparsed {status : Int} {issue : SyntaxIssue} (ending : e.ending = .exited status)
      (nonzero : status ≠ 0) (error : HasError e.stderr) (first : FirstError e.stderr issue) :
      Outcome mode e { issues := [.syntaxError issue], command := some e.command }
  | misformatted {status : Int} {issue : FormatIssue} (ending : e.ending = .exited status)
      (parsed : status ≠ 0 → ¬ HasError e.stderr) (check : mode = .check)
      (shown : isBlankText e.stdout = false) (diff : issue.diff = e.stdout) :
      Outcome mode e { issues := [.misformat issue], command := some e.command }
  | clean (ending : e.ending = .exited 0) (check : mode = .check) (blank : isBlankText e.stdout = true) :
      Outcome mode e { command := some e.command }
  | formatted (ending : e.ending = .exited 0) (format : mode = .format) :
      Outcome mode e { formatted := some e.stdout, command := some e.command }
  | failed {status : Int} {failure : String} (ending : e.ending = .exited status) (nonzero : status ≠ 0)
      (parsed : ¬ HasError e.stderr) (blank : mode = .check → isBlankText e.stdout = true) :
      Outcome mode e { failure := some failure, command := some e.command }

theorem succeeded_iff {e : Execution} {status : Int} (ending : e.ending = .exited status) :
    e.succeeded = true ↔ status = 0 := by
  simp [Execution.succeeded, Execution.status?, ending]

theorem failed_iff {e : Execution} {status : Int} (ending : e.ending = .exited status) :
    e.succeeded = false ↔ status ≠ 0 := by
  rw [Bool.eq_false_iff]
  exact not_congr (succeeded_iff ending)

theorem diff_of_patchIssue {diff : String} {issue : FormatIssue} (h : patchIssue diff = .ok issue) :
    issue.diff = diff := by
  unfold patchIssue at h
  split at h
  · cases h
    rfl
  · obtain ⟨line, -, h⟩ := bind_eq_ok_iff.1 h
    cases h
    rfl

theorem eq_of_formatterFailure {e : Execution} {status : Int} {r : Report}
    (h : formatterFailure e status = .ok r) :
    ∃ failure, r = { failure := some failure, command := some e.command } := by
  unfold formatterFailure at h
  dsimp only at h
  split at h
  · obtain ⟨detail, -, h⟩ := bind_eq_ok_iff.1 h
    cases h
    exact ⟨_, rfl⟩
  · cases h
    exact ⟨_, rfl⟩

theorem parsedReport_outcome {mode : FormatterMode} {e : Execution} {status : Int} {r : Report}
    (ending : e.ending = .exited status) (parsed : status ≠ 0 → ¬ HasError e.stderr)
    (h : parsedReport mode e status = .ok r) : Outcome mode e r := by
  have hzero {status : Int} (ending : e.ending = .exited status) (h : e.succeeded = true) :
      e.ending = .exited 0 := by
    rw [ending, (succeeded_iff ending).1 h]
  unfold parsedReport at h
  cases mode with
  | check =>
      dsimp only at h
      split at h
      · rename_i hshown
        obtain ⟨issue, hissue, h⟩ := bind_eq_ok_iff.1 h
        cases h
        exact .misformatted ending parsed rfl (by simpa using hshown) (diff_of_patchIssue hissue)
      · rename_i hblank
        rw [Bool.not_eq_true, Bool.not_eq_false'] at hblank
        split at h
        · rename_i hsucceeded
          cases h
          exact .clean (hzero ending hsucceeded) rfl hblank
        · rename_i hfailed
          have hnonzero := (failed_iff ending).1 (Bool.eq_false_iff.2 hfailed)
          obtain ⟨failure, rfl⟩ := eq_of_formatterFailure h
          exact .failed ending hnonzero (parsed hnonzero) fun _ => hblank
  | format =>
      dsimp only at h
      split at h
      · rename_i hsucceeded
        cases h
        exact .formatted (hzero ending hsucceeded) rfl
      · rename_i hfailed
        have hnonzero := (failed_iff ending).1 (Bool.eq_false_iff.2 hfailed)
        obtain ⟨failure, rfl⟩ := eq_of_formatterFailure h
        exact .failed ending hnonzero (parsed hnonzero) nofun

theorem formatterReport_outcome {mode : FormatterMode} {e : Execution} {r : Report}
    (h : formatterReport mode e = .ok r) : Outcome mode e r := by
  unfold formatterReport at h
  split at h
  · rename_i failure hending
    cases h
    exact .unrun hending
  · rename_i status hending
    obtain ⟨found, hfound, h⟩ := bind_eq_ok_iff.1 h
    obtain ⟨hsome, hfirst⟩ := firstSyntaxError_spec hfound
    split at h
    · rename_i issue hfailed
      cases h
      exact .misparsed hending ((failed_iff hending).1 hfailed) (hsome.1 nofun) (hfirst issue rfl)
    · rename_i hparsed
      refine parsedReport_outcome hending (fun hnonzero herror => ?_) h
      obtain ⟨issue, rfl⟩ := Option.ne_none_iff_exists'.1 (hsome.2 herror)
      exact hparsed issue rfl ((failed_iff hending).2 hnonzero)

/-! ## What an outcome settles -/

namespace Outcome

variable {mode : FormatterMode} {e : Execution} {r : Report}

theorem populated_le_one (h : Outcome mode e r) : r.populated ≤ 1 := by
  cases h <;> exact Nat.le_of_ble_eq_true rfl

/-- The formatted text is what the formatter wrote, and it is there when it was asked for and the formatter
succeeded. -/
theorem formatted_iff (h : Outcome mode e r) {text : String} :
    r.formatted = some text ↔ mode = .format ∧ e.ending = .exited 0 ∧ text = e.stdout := by
  cases h with
  | unrun ending => simp [ending]
  | misparsed ending nonzero => simp [ending, nonzero]
  | misformatted _ _ check => simp [check]
  | clean _ check => simp [check]
  | formatted ending format => simp [ending, format, eq_comm]
  | failed ending nonzero => simp [ending, nonzero]

theorem syntaxError_iff (h : Outcome mode e r) : (∃ issue, .syntaxError issue ∈ r.issues) ↔
    (∃ status, e.ending = .exited status ∧ status ≠ 0) ∧ HasError e.stderr := by
  cases h with
  | unrun ending => simp [ending]
  | misparsed ending nonzero error => simp [ending, nonzero, error]
  | misformatted ending parsed => simpa [ending] using parsed
  | clean ending => simp [ending]
  | formatted ending => simp [ending]
  | failed _ _ parsed => simp [parsed]

theorem firstError (h : Outcome mode e r) {issue : SyntaxIssue} (mem : .syntaxError issue ∈ r.issues) :
    FirstError e.stderr issue := by
  cases h <;> simp at mem
  case misparsed first => exact mem ▸ first

theorem misformat (h : Outcome mode e r) {issue : FormatIssue} (mem : .misformat issue ∈ r.issues) :
    mode = .check ∧ issue.diff = e.stdout := by
  cases h <;> simp at mem
  case misformatted check _ diff => exact ⟨check, mem ▸ diff⟩

theorem isClean_iff (h : Outcome mode e r) :
    r.IsClean ↔ mode = .check ∧ e.ending = .exited 0 ∧ isBlankText e.stdout = true := by
  cases h with
  | unrun ending => exact iff_of_false (fun h => nomatch h.executionFailure) (by simp [ending])
  | misparsed ending nonzero => exact iff_of_false (fun h => nomatch h.issues) (by simp [ending, nonzero])
  | misformatted _ _ _ shown => exact iff_of_false (fun h => nomatch h.issues) (by simp [shown])
  | clean ending check blank => exact iff_of_true ⟨rfl, rfl, rfl, rfl⟩ ⟨check, ending, blank⟩
  | formatted _ format => exact iff_of_false (fun h => nomatch h.formatted) (by simp [format])
  | failed ending nonzero => exact iff_of_false (fun h => nomatch h.failure) (by simp [ending, nonzero])

end Outcome

/-! ## Short numbers -/

/-- No run of digits is too long to be read as a number. -/
def ShortRuns (text : String) : Prop :=
  ∀ run, run <:+: text.toList → (∀ c ∈ run, isDigit c = true) → run.length ≤ digitLimit

theorem shortRuns_of_short {text : String} (short : text.toList.length ≤ digitLimit) : ShortRuns text :=
  fun _ part _ => part.length_le.trans short

theorem ShortRuns.isLegible {text : String} (short : ShortRuns text) {raw digits : List Char}
    (line : raw ∈ lines text.toList) (numeral : IsNumeral digits) (part : digits <:+: trim raw) :
    IsLegible digits :=
  short digits ((part.trans (isInfix_trim raw)).trans (infix_of_mem_lines line)) numeral.2

theorem ErrorLine.Spells.line_isInfix {l : ErrorLine} {cs : List Char} (h : l.Spells cs) : l.line <:+: cs :=
  ⟨l.file ++ [':'], ':' :: l.column ++ ':' :: ' ' :: l.message, by simp [← h.2, ErrorLine.remainder]⟩

theorem ErrorLine.Spells.column_isInfix {l : ErrorLine} {cs : List Char} (h : l.Spells cs) :
    l.column <:+: cs :=
  ⟨l.file ++ ':' :: l.line ++ [':'], ':' :: ' ' :: l.message, by simp [← h.2, ErrorLine.remainder]⟩

/-- The number of a hunk stands in its line. -/
theorem isNumeral_of_hunkLine {cs digits : List Char} (h : hunkLine cs = some digits) :
    IsNumeral digits ∧ digits <:+: cs := by
  unfold hunkLine at h
  simp only [Option.bind_eq_bind, Option.bind_eq_some_iff, Prod.exists, after_eq_some_iff,
    digitRun_eq_some_iff, Option.pure_def, Option.some.injEq] at h
  obtain ⟨_, rfl, line, rest, ⟨numeral, -, rfl⟩, _, -, _, _, -, _, -, rfl⟩ := h
  exact ⟨numeral, "@@ -".toList, rest, by simp⟩

/-- The formatter failed without a word, so that only its exit status can be told. -/
structure Mute (mode : FormatterMode) (e : Execution) (status : Int) : Prop where
  failed : status ≠ 0
  complaint : isBlankText e.stderr = true
  patch : mode = .check → isBlankText e.stdout = true

theorem formatterLegible_of_short {mode : FormatterMode} {e : Execution} {status : Int}
    (ending : e.ending = .exited status) (out : ShortRuns e.stdout) (err : ShortRuns e.stderr)
    (told : Mute mode e status → (Nat.toDigits 10 status.natAbs).length ≤ digitLimit) :
    FormatterLegible mode e status := by
  refine ⟨fun l hl => ?_, fun _ _ _ digits hdigits => ?_, fun _ hpatch hfailed hcomplaint => ?_⟩
  · have hmem := List.mem_of_mem_head? hl
    rw [errorLines_eq, List.mem_filterMap] at hmem
    obtain ⟨raw, hraw, hread⟩ := hmem
    obtain ⟨hspells, -⟩ := (ErrorLine.read_eq_some_iff (feed_not_mem_trim hraw)).1 hread
    exact ⟨err.isLegible hraw hspells.1.line hspells.line_isInfix,
      err.isLegible hraw hspells.1.column hspells.column_isInfix⟩
  · have hmem : digits ∈ matching hunkLine (lines e.stdout.toList) [] true := List.mem_of_mem_head? hdigits
    rw [matching_eq rfl, List.mem_filterMap] at hmem
    obtain ⟨raw, hraw, hread⟩ := hmem
    obtain ⟨hnumeral, hpart⟩ := isNumeral_of_hunkLine hread
    exact out.isLegible hraw hnumeral hpart
  · rw [isEmpty_trimmed] at hcomplaint
    exact told ⟨(failed_iff ending).1 hfailed, hcomplaint, hpatch⟩

/-- Where all numbers are short a report is missing only when there is nothing to tell but an exit status and
that is too long to be told. -/
theorem exists_formatterReport_iff {mode : FormatterMode} {e : Execution} (out : ShortRuns e.stdout)
    (err : ShortRuns e.stderr) : (∃ r, formatterReport mode e = .ok r) ↔
      ∀ status, e.ending = .exited status → Mute mode e status →
        (Nat.toDigits 10 status.natAbs).length ≤ digitLimit := by
  rw [formatterReport_ok_iff]
  refine forall₂_congr fun status ending => ⟨fun legible mute => ?_, formatterLegible_of_short ending out err⟩
  refine legible.status (fun misparsed => ?_) mute.patch ((failed_iff ending).2 mute.failed) ?_
  · exact misparsed.1 (errorLines_eq_nil_iff.2 (not_hasError_of_blank mute.complaint))
  · rw [isEmpty_trimmed]
    exact mute.complaint

/-! ## Verdicts -/

/-- What is reported on an execution of the formatter. -/
structure Verdicts (mode : FormatterMode) (e : Execution) : Prop where
  /-- Nothing is reported only when there is nothing to tell but an exit status that is too long. -/
  reported : (∃ r, formatterReport mode e = .ok r) ↔
    ∀ status, e.ending = .exited status → Mute mode e status →
      (Nat.toDigits 10 status.natAbs).length ≤ digitLimit
  exclusive : ∀ r, formatterReport mode e = .ok r → r.populated ≤ 1
  /-- The formatted text is that of a formatter which succeeded, as it wrote it. -/
  formatted : ∀ text, (∃ r, formatterReport mode e = .ok r ∧ r.formatted = some text) ↔
    mode = .format ∧ e.ending = .exited 0 ∧ text = e.stdout
  /-- A syntax error of a formatter that failed is told in any case, and it is the first one. -/
  misparsed : (∃ r issue, formatterReport mode e = .ok r ∧ .syntaxError issue ∈ r.issues) ↔
    (∃ status, e.ending = .exited status ∧ status ≠ 0) ∧ HasError e.stderr
  first : ∀ r issue, formatterReport mode e = .ok r → .syntaxError issue ∈ r.issues →
    FirstError e.stderr issue
  misformatted : ∀ r issue, formatterReport mode e = .ok r → .misformat issue ∈ r.issues →
    mode = .check ∧ issue.diff = e.stdout
  /-- Silence is kept for a document that was checked and found to be formatted. -/
  clean : (∃ r, formatterReport mode e = .ok r ∧ r.IsClean) ↔
    mode = .check ∧ e.ending = .exited 0 ∧ isBlankText e.stdout = true

/-- Whatever the formatter wrote and however it ended: as long as numbers are short, the verdict on it is at
most one thing, nothing of what it wrote is lost or made up, and it is silent only about a document that was
found to be formatted. -/
theorem formatter_verdicts (mode : FormatterMode) {e : Execution} (out : ShortRuns e.stdout)
    (err : ShortRuns e.stderr) : Verdicts mode e := by
  have reported : (∃ r, formatterReport mode e = .ok r) ↔ _ := exists_formatterReport_iff out err
  -- An execution that told something is reported on, whatever it told.
  have told (h : ∀ status, e.ending = .exited status → ¬ Mute mode e status) :
      ∃ r, formatterReport mode e = .ok r ∧ Outcome mode e r := by
    obtain ⟨r, hr⟩ := reported.2 fun status ending mute => absurd mute (h status ending)
    exact ⟨r, hr, formatterReport_outcome hr⟩
  have succeeded (h : e.ending = .exited 0) : ∀ status, e.ending = .exited status → ¬ Mute mode e status := by
    intro status ending mute
    rw [h] at ending
    cases ending
    exact mute.failed rfl
  refine ⟨reported, fun r hr => (formatterReport_outcome hr).populated_le_one, fun text => ⟨?_, ?_⟩, ⟨?_, ?_⟩,
    fun r issue hr => (formatterReport_outcome hr).firstError,
    fun r issue hr => (formatterReport_outcome hr).misformat, ⟨?_, ?_⟩⟩
  · rintro ⟨r, hr, hformatted⟩
    exact (formatterReport_outcome hr).formatted_iff.1 hformatted
  · intro h
    obtain ⟨r, hr, outcome⟩ := told (succeeded h.2.1)
    exact ⟨r, hr, outcome.formatted_iff.2 h⟩
  · rintro ⟨r, issue, hr, hissue⟩
    exact (formatterReport_outcome hr).syntaxError_iff.1 ⟨issue, hissue⟩
  · intro h
    obtain ⟨r, hr, outcome⟩ := told fun _ _ mute => not_hasError_of_blank mute.complaint h.2
    obtain ⟨issue, hissue⟩ := outcome.syntaxError_iff.2 h
    exact ⟨r, issue, hr, hissue⟩
  · rintro ⟨r, hr, hclean⟩
    exact (formatterReport_outcome hr).isClean_iff.1 hclean
  · intro h
    obtain ⟨r, hr, outcome⟩ := told (succeeded h.2.1)
    exact ⟨r, hr, outcome.isClean_iff.2 h⟩

/-- A formatter that could not parse the document and wrote a patch all the same. -/
def misparsing : Execution where
  command := "shfmt -d"
  ending := .exited 1
  stdout := "@@ -7 +7 @@\n"
  stderr := "reading\n <stdin>:03:0: a:1: 2:5: no end \n<stdin>:1:1: later"

theorem formatter_verdicts_misparsing :
    (ShortRuns misparsing.stdout ∧ ShortRuns misparsing.stderr) ∧ Verdicts .check misparsing ∧
      formatterReport .check misparsing =
        .ok { issues := [.syntaxError ⟨2, 0, "a:1: 2:5: no end"⟩], command := some "shfmt -d" } := by
  have out : ShortRuns misparsing.stdout := shortRuns_of_short (by decide)
  have err : ShortRuns misparsing.stderr := shortRuns_of_short (by decide)
  exact ⟨⟨out, err⟩, formatter_verdicts .check out err, by decide +kernel⟩

/-! ## Clean reports -/

/-- The linter wrote nothing that is an issue, and nothing that could not be read. -/
structure Wordless (e : Execution) : Prop where
  findings : NoFindings e
  notes : ∀ i, ¬ Tells (lines e.combinedOutput.toList) i
  headers : ∀ i h, HeaderAt (lines e.combinedOutput.toList) i h → IsLegible h.line

/-- Where there are no findings the linter is reported on as clean when it has no notes either and did not
fail with a complaint. -/
theorem exists_isClean_of_noFindings {e : Execution} {status : Int} (ending : e.ending = .exited status)
    (nothing : NoFindings e)
    (headers : ∀ i h, HeaderAt (lines e.combinedOutput.toList) i h → IsLegible h.line) :
    (∃ r, lintReport e = .ok r ∧ r.IsClean) ↔ (∀ i, ¬ Tells (lines e.combinedOutput.toList) i) ∧
      (usageFailureStatus ≤ status → isBlankText e.stderr = true) := by
  obtain ⟨places, issues, hnotes, told⟩ := notes_lines headers
  rw [lintReport_of_notes ending nothing hnotes, isEmpty_trimmed, ← told.issues_eq_nil_iff]
  simp only [Except.ok.injEq, exists_eq_left']
  by_cases hfailed : (issues.isEmpty && usageFailureStatus ≤ status && !isBlankText e.stderr) = true
  · rw [if_pos hfailed]
    simp only [Bool.and_eq_true, decide_eq_true_eq, Bool.not_eq_true'] at hfailed
    refine iff_of_false (fun clean => nomatch clean.failure) fun h => ?_
    rw [h.2 hfailed.1.2] at hfailed
    exact nomatch hfailed.2
  · rw [if_neg hfailed]
    simp only [Bool.and_eq_true, decide_eq_true_eq, Bool.not_eq_true', List.isEmpty_iff, not_and,
      Bool.not_eq_false] at hfailed
    constructor
    · intro clean
      have hnil : issues = [] := List.map_eq_nil_iff.1 clean.issues
      exact ⟨hnil, fun hstatus => hfailed ⟨hnil, hstatus⟩⟩
    · rintro ⟨rfl, -⟩
      exact ⟨rfl, rfl, rfl, rfl⟩

/-- Reports with findings are not clean, so that the clean ones are of runs without a word. -/
theorem exists_isClean_iff {e : Execution} : (∃ r, lintReport e = .ok r ∧ r.IsClean) ↔
    ∃ status, e.ending = .exited status ∧ Wordless e ∧
      (usageFailureStatus ≤ status → isBlankText e.stderr = true) := by
  constructor
  · rintro ⟨r, hr, clean⟩
    cases hending : e.ending with
    | failed failure =>
        unfold lintReport at hr
        rw [hending] at hr
        cases hr
        exact nomatch clean.executionFailure
    | exited status =>
        have legible := (lintReport_ok_iff e).1 ⟨r, hr⟩ status hending
        obtain ⟨found, hfound⟩ := findings_ok_iff.2 legible.findings
        have hnil : found = [] := by
          by_contra hsome
          rw [lintReport_of_findings hending hfound hsome] at hr
          cases hr
          exact hsome (List.map_eq_nil_iff.1 clean.issues)
        have hnothing := (findings_eq_nil_iff hfound).1 hnil
        have nothing := noFindings_iff.2 hnothing
        have headers := forall_mem_headerLines.1 (legible.headers hnothing)
        obtain ⟨notes, quiet⟩ := (exists_isClean_of_noFindings hending nothing headers).1 ⟨r, hr, clean⟩
        exact ⟨status, rfl, ⟨nothing, notes, headers⟩, quiet⟩
  · rintro ⟨status, ending, wordless, quiet⟩
    exact (exists_isClean_of_noFindings ending wordless.findings wordless.headers).2 ⟨wordless.notes, quiet⟩

/-- The linter neither succeeded nor ended with findings, and a clean report does not show it: it wrote
nothing that is an issue, and no complaint that counts with its exit status. -/
def Unnoticed (e : Execution) : Prop :=
  ∃ status, e.ending = .exited status ∧ status ≠ 0 ∧ status ≠ 1 ∧ Wordless e ∧
    (usageFailureStatus ≤ status → isBlankText e.stderr = true)

/-- Only a run that succeeded has a clean report from the formatter, whatever was asked for. From the linter
only a run that ended with one of its two regular statuses has, unless it ended abnormally and that went
unnoticed. -/
theorem isClean_ended (e : Execution) :
    (∀ mode r, formatterReport mode e = .ok r → r.IsClean → e.ending = .exited 0) ∧
    ((∀ r, lintReport e = .ok r → r.IsClean → e.ending = .exited 0 ∨ e.ending = .exited 1) ↔
      ¬ Unnoticed e) := by
  refine ⟨fun mode r hr clean => ((formatterReport_outcome hr).isClean_iff.1 clean).2.1, ?_, ?_⟩
  · rintro regular ⟨status, ending, hzero, hone, wordless, quiet⟩
    obtain ⟨r, hr, clean⟩ := exists_isClean_iff.2 ⟨status, ending, wordless, quiet⟩
    have h := regular r hr clean
    simp only [ending, Ending.exited.injEq] at h
    exact h.elim hzero hone
  · intro noticed r hr clean
    obtain ⟨status, ending, wordless, quiet⟩ := exists_isClean_iff.1 ⟨r, hr, clean⟩
    by_contra h
    simp only [ending, Ending.exited.injEq, not_or] at h
    exact noticed ⟨status, ending, h.1, h.2, wordless, quiet⟩

/-- The linter refuses an option and says so on standard output. -/
def refused : Execution where
  command := "shellcheck -f gcc -"
  ending := .exited 2
  stdout := "unrecognized option --bogus\n"

/-- The linter is killed before it has written anything. -/
def killed : Execution where
  command := "shellcheck -f gcc -"
  ending := .exited (-9)

/-- A refused option and a kill are reported on like a document without findings. -/
theorem exists_isClean_abnormal :
    (∃ r, lintReport refused = .ok r ∧ r.IsClean) ∧ (∃ r, lintReport killed = .ok r ∧ r.IsClean) ∧
    ¬ ∀ e r, lintReport e = .ok r → r.IsClean → e.ending = .exited 0 ∨ e.ending = .exited 1 := by
  have hrefused : lintReport refused = .ok { command := some "shellcheck -f gcc -" } := by decide +kernel
  have hkilled : lintReport killed = .ok { command := some "shellcheck -f gcc -" } := by decide +kernel
  refine ⟨⟨_, hrefused, rfl, rfl, rfl, rfl⟩, ⟨_, hkilled, rfl, rfl, rfl, rfl⟩, fun h => ?_⟩
  have hended := h refused _ hrefused ⟨rfl, rfl, rfl, rfl⟩
  simp [refused] at hended

end Output

end Shellwright
