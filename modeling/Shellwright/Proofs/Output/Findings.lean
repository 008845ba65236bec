import Mathlib.Data.Nat.Digits.Defs
import Shellwright.Proofs.Output.Legible
/-!
# Findings are read as they were written

The linter writes one finding on a line, among other lines, on either stream. Whatever the message holds
and wherever the lines end, the report has these findings and no other, those on standard output first.
-/

namespace Shellwright.Output

open Shellwright.Text

/-! ## Reading by lines -/

/-- The lines of standard output and of standard error stay apart. -/
theorem filterMap_lines_combinedOutput {α : Type} {read : List Char → Option α} (empty : read [] = none)
    (e : Execution) : (lines e.combinedOutput.toList).filterMap read =
      (lines e.stdout.toList).filterMap read ++ (lines e.stderr.toList).filterMap read := by
  unfold Execution.combinedOutput
  split
  · split
    · rename_i hfeed
      rw [String.append_empty, String.toList_append]
      exact filterMap_lines_append _ (by simpa using hfeed)
    · rw [String.append_assoc, String.toList_append, String.toList_append]
      exact filterMap_lines_append_feed empty _ _
  · rename_i hboth
    split
    · rename_i hout
      have hnil : e.stdout.toList = [] := by simpa using hout
      rw [hnil, lines_nil, List.filterMap_nil, List.nil_append]
    · rename_i hout
      have hnil : e.stderr.toList = [] := by simpa [hout] using hboth
      rw [hnil, lines_nil, List.filterMap_nil, List.append_nil]

/-! ## What the linter writes -/

/-- A number in decimal digits, few enough to be read; it may begin with zeros. -/
structure Numeral where
  digits : List (Fin 10)
  nonempty : digits ≠ []
  short : digits.length ≤ digitLimit

namespace Numeral

def text (n : Numeral) : List Char :=
  n.digits.map fun d : Fin 10 => Nat.digitChar d

def value (n : Numeral) : Nat :=
  Nat.ofDigits 10 (n.digits.reverse.map Fin.val)

theorem isNumeral (n : Numeral) : IsNumeral n.text := by
  have hdigit : ∀ d : Fin 10, isDigit (Nat.digitChar d) = true := by decide
  refine ⟨by simpa [text] using n.nonempty, fun c hc => ?_⟩
  obtain ⟨d, -, rfl⟩ := List.mem_map.1 hc
  exact hdigit d

theorem text_unbroken (n : Numeral) : ∀ c ∈ n.text, isLineBreak c = false := by
  have hdigit : ∀ d : Fin 10, isLineBreak (Nat.digitChar d) = false := by decide
  intro c hc
  obtain ⟨d, -, rfl⟩ := List.mem_map.1 hc
  exact hdigit d

theorem digitsValue_text (n : Numeral) : digitsValue n.text = n.value := by
  have hdigit : ∀ d : Fin 10, digitValue? (Nat.digitChar d) = some d.val := by decide
  unfold digitsValue text value
  rw [List.foldl_map, Nat.ofDigits_eq_foldr, List.foldr_map, List.foldr_reverse]
  simp only [hdigit, Option.getD_some, Nat.cast_id, Nat.add_comm]

theorem coordinate_text (n : Numeral) : coordinate n.text = .ok (n.value - 1) := by
  rw [coordinate_of_short (by simpa [text] using n.short), digitsValue_text]

end Numeral

/-- The words that stand for a level; a note is information. -/
inductive LevelName
  | error
  | warning
  | note
  | info
  | style
  deriving DecidableEq, Repr

namespace LevelName

def word : LevelName → List Char
  | .error => "error".toList
  | .warning => "warning".toList
  | .note => "note".toList
  | .info => "info".toList
  | .style => "style".toList

def level : LevelName → LintLevel
  | .error => .error
  | .warning => .warning
  | .note => .info
  | .info => .info
  | .style => .style

theorem word_mem (name : LevelName) : name.word ∈ levelWords := by
  cases name <;> decide

theorem levelOf_word (name : LevelName) : levelOf (some name.word) = name.level := by
  cases name <;> decide

end LevelName

/-- A finding as the linter has it. The name of the file holds no colon and does not begin with a blank; the
message is not blank at its ends, and neither has a line break. -/
structure Finding where
  file : List Char
  line : Numeral
  column : Numeral
  level : LevelName
  message : List Char
  rule : Numeral
  file_nonempty : file ≠ []
  file_solid : Stops isBlank file
  file_plain : ':' ∉ file
  file_unbroken : ∀ c ∈ file, isLineBreak c = false
  message_nonempty : message ≠ []
  message_trimmed : trim message = message
  message_unbroken : ∀ c ∈ message, isLineBreak c = false

namespace Finding

/-- The line that tells of it: `file:line:column: level: message [SC0000]`. -/
def text (f : Finding) : List Char :=
  f.file ++ ':' :: f.line.text ++ ':' :: f.column.text ++ ": ".toList ++ f.level.word ++ ": ".toList ++
    f.message ++ " [SC".toList ++ f.rule.text ++ [']']

/-- The issue it is in a report; lines and columns count from zero there, and nothing comes before. -/
def issue (f : Finding) : LintIssue where
  line := f.line.value - 1
  column := f.column.value - 1
  level := f.level.level
  code := String.ofList ('S' :: 'C' :: f.rule.text)
  message := String.ofList f.message

/-- The parts of the line. -/
def parts (f : Finding) : FindingLine where
  file := f.file
  line := f.line.text
  column := f.column.text
  level := f.level.word
  message := f.message
  code := 'S' :: 'C' :: f.rule.text

theorem parts_spells (f : Finding) : f.parts.Spells f.text := by
  refine ⟨⟨f.file_nonempty, f.line.isNumeral, f.column.isNumeral, f.level.word_mem, f.message_nonempty,
    f.rule.text, f.rule.isNumeral, rfl⟩, ?_⟩
  simp [FindingLine.remainder, parts, text]

theorem parts_issue (f : Finding) : f.parts.issue = .ok f.issue := by
  have hline : coordinate f.parts.line = .ok (f.line.value - 1) := f.line.coordinate_text
  have hcolumn : coordinate f.parts.column = .ok (f.column.value - 1) := f.column.coordinate_text
  have hlevel : levelOf (some f.parts.level) = f.level.level := f.level.levelOf_word
  have hmessage : trim f.parts.message = f.message := f.message_trimmed
  unfold FindingLine.issue issue
  rw [hline, hcolumn, hlevel, hmessage]
  rfl

theorem text_unbroken (f : Finding) : ∀ c ∈ f.text, isLineBreak c = false := by
  have hword : ∀ c ∈ f.level.word, isLineBreak c = false := by
    cases f.level <;> exact unbroken_of_any (by decide)
  have hcolon : isLineBreak ':' = false := by decide
  have hgap : ∀ c ∈ ": ".toList, isLineBreak c = false := unbroken_of_any (by decide)
  have hrule : ∀ c ∈ " [SC".toList, isLineBreak c = false := unbroken_of_any (by decide)
  unfold text
  simp only [List.forall_mem_append, List.forall_mem_cons, and_assoc]
  exact ⟨f.file_unbroken, hcolon, f.line.text_unbroken, hcolon, f.column.text_unbroken, hgap,
    hword, hgap, f.message_unbroken, hrule, f.rule.text_unbroken, by decide, nofun⟩

theorem text_trimmed (f : Finding) : trim f.text = f.text := by
  obtain ⟨c, rest, hfile⟩ := List.exists_cons_of_ne_nil f.file_nonempty
  have hfirst : isBlank c = false := f.file_solid c (by rw [hfile]; rfl)
  unfold text
  rw [hfile]
  exact trim_of_ends hfirst (by decide) _

/-- The line is read as the finding it tells of. -/
theorem read_text (f : Finding) : FindingLine.read (trim f.text) = some f.parts := by
  have hsingle : '\n' ∉ f.text := fun hmem => absurd (f.text_unbroken _ hmem) (by decide)
  rw [f.text_trimmed]
  exact FindingLine.read_of_spells hsingle f.parts_spells f.file_plain

end Finding

/-- A line of the linter: a finding, or a text that is not read as one. -/
inductive Row
  | finding (f : Finding)
  | other (line : List Char) (unbroken : ∀ c ∈ line, isLineBreak c = false)
      (nothing : ∀ l : FindingLine, ¬ l.Spells (trim line))

namespace Row

def text : Row → List Char
  | .finding f => f.text
  | .other line _ _ => line

def finding? : Row → Option Finding
  | .finding f => some f
  | .other .. => none

theorem text_unbroken (r : Row) : ∀ c ∈ r.text, isLineBreak c = false := by
  cases r with
  | finding f => exact f.text_unbroken
  | other line unbroken _ => exact unbroken

theorem read_text (r : Row) : FindingLine.read (trim r.text) = r.finding?.map Finding.parts := by
  cases r with
  | finding f => exact f.read_text
  | other line unbroken nothing =>
      refine (FindingLine.read_eq_none_iff fun hmem => ?_).2 nothing
      exact absurd (unbroken _ ((isInfix_trim line).mem hmem)) (by decide)

theorem read_line (r : Row) {ending : List Char} (ends : IsLineEnd ending) (rest : List Char) :
    (lines (r.text ++ (ending ++ rest))).filterMap (fun raw => FindingLine.read (trim raw)) =
      (r.finding?.map Finding.parts).toList ++
        (lines rest).filterMap fun raw => FindingLine.read (trim raw) := by
  refine (filterMap_lines_line rfl r.text_unbroken ends rest).trans ?_
  rw [r.read_text]

theorem read_last (r : Row) : (lines r.text).filterMap (fun raw => FindingLine.read (trim raw)) =
    (r.finding?.map Finding.parts).toList := by
  refine (filterMap_lines_last rfl r.text_unbroken).trans ?_
  rw [r.read_text]

end Row

/-- What the linter wrote on one stream: lines with their ends, and a last line that has none. -/
structure Transcript where
  rows : List (Row × { ending : List Char // IsLineEnd ending })
  last : Option Row

namespace Transcript

def text (t : Transcript) : List Char :=
  (t.rows.flatMap fun row => row.1.text ++ row.2.val) ++ (t.last.map Row.text).getD []

/-- The findings it tells of, in order. -/
def findings (t : Transcript) : List Finding :=
  (t.rows.map Prod.fst ++ t.last.toList).filterMap Row.finding?

theorem read_text (t : Transcript) :
    (lines t.text).filterMap (fun raw => FindingLine.read (trim raw)) = t.findings.map Finding.parts := by
  obtain ⟨rows, last⟩ := t
  unfold text findings
  induction rows with
  | nil =>
      cases last with
      | none => simp [lines_nil]
      | some row =>
          have hlast := row.read_last
          cases hfinding : row.finding? <;> simp [hlast, hfinding]
  | cons row rows ih =>
      obtain ⟨row, ending, hending⟩ := row
      rw [List.flatMap_cons, List.append_assoc, List.append_assoc, row.read_line hending, ih]
      cases hfinding : row.finding? <;> simp [hfinding]

end Transcript

/-! ## Reports -/

/-- Findings are reported as they are, whatever the exit status. -/
theorem lintReport_of_findings {e : Execution} {status : Int} {found : List LintIssue}
    (ending : e.ending = .exited status) (read : findings (lines e.combinedOutput.toList) = .ok found)
    (some : found ≠ []) : lintReport e = .ok { issues := found.map .lint, command := e.command } := by
  obtain ⟨issue, rest, rfl⟩ := List.exists_cons_of_ne_nil some
  unfold lintReport
  rw [ending]
  simp only [read]
  rfl

/-- The linter ended with a status and left a transcript on each stream. -/
def linterRun (command : String) (status : Int) (out err : Transcript) : Execution where
  command := command
  ending := .exited status
  stdout := String.ofList out.text
  stderr := String.ofList err.text

theorem findings_linterRun (command : String) (status : Int) (out err : Transcript) :
    findings (lines (linterRun command status out err).combinedOutput.toList) =
      .ok ((out.findings ++ err.findings).map Finding.issue) := by
  have hmatching : matching FindingLine.read (lines (linterRun command status out err).combinedOutput.toList)
      [] true = (out.findings ++ err.findings).map Finding.parts := by
    rw [matching_eq rfl, filterMap_lines_combinedOutput rfl]
    unfold linterRun
    rw [String.toList_ofList, String.toList_ofList, out.read_text, err.read_text, List.map_append]
  unfold findings
  rw [hmatching]
  exact mapM_map_of_ok Finding.parts_issue _

/-- Whatever else the linter writes, on whichever stream and with whatever exit status: each finding it
writes is in the report as it was written, standard output before standard error and each in order, and
nothing else is. -/
theorem findings_decoded (command : String) (status : Int) (out err : Transcript)
    (found : out.findings ++ err.findings ≠ []) :
    lintReport (linterRun command status out err) =
      .ok { issues := (out.findings ++ err.findings).map (.lint ·.issue), command := some command } := by
  have hfound : (out.findings ++ err.findings).map Finding.issue ≠ [] := by simpa using found
  rw [lintReport_of_findings rfl (findings_linterRun command status out err) hfound, List.map_map]
  rfl

/-- A message that speaks of a code itself. -/
def unusedFinding : Finding where
  file := "<standard input>".toList
  line := ⟨[0, 3], by decide, by decide⟩
  column := ⟨[5], by decide, by decide⟩
  level := .warning
  message := "x: 1:2: error: unused, see [SC1]".toList
  rule := ⟨[2, 0, 3, 4], by decide, by decide⟩
  file_nonempty := by decide
  file_solid := stops_of_any (by decide)
  file_plain := by decide
  file_unbroken := unbroken_of_any (by decide)
  message_nonempty := by decide
  message_trimmed := by decide
  message_unbroken := unbroken_of_any (by decide)

def quotingFinding : Finding where
  file := "-".toList
  line := ⟨[0], by decide, by decide⟩
  column := ⟨[1, 2], by decide, by decide⟩
  level := .note
  message := "Double quote".toList
  rule := ⟨[2, 0, 8, 6], by decide, by decide⟩
  file_nonempty := by decide
  file_solid := stops_of_any (by decide)
  file_plain := by decide
  file_unbroken := unbroken_of_any (by decide)
  message_nonempty := by decide
  message_trimmed := by decide
  message_unbroken := unbroken_of_any (by decide)

/-- A line that is nearly a finding. -/
def strayRow : Row :=
  .other "-:1:1: fatal: stray [SC1]".toList (unbroken_of_any (by decide))
    ((FindingLine.read_eq_none_iff (by decide)).1 (by decide))

def mixedOut : Transcript where
  rows := [(.finding unusedFinding, ⟨['\r', '\n'], .inl rfl⟩)]
  last := some strayRow

def mixedErr : Transcript where
  rows := [(strayRow, ⟨['\n'], isLineEnd_feed⟩)]
  last := some (.finding quotingFinding)

theorem findings_decoded_mixed :
    mixedOut.findings ++ mixedErr.findings ≠ [] ∧
      linterRun "shellcheck -f gcc -" 1 mixedOut mixedErr =
        { command := "shellcheck -f gcc -", ending := .exited 1,
          stdout := "<standard input>:03:5: warning: x: 1:2: error: unused, see [SC1] [SC2034]\r\n" ++
            "-:1:1: fatal: stray [SC1]",
          stderr := "-:1:1: fatal: stray [SC1]\n-:0:12: note: Double quote [SC2086]" } ∧
      lintReport (linterRun "shellcheck -f gcc -" 1 mixedOut mixedErr) =
        .ok { issues := [.lint ⟨2, 4, .warning, "SC2034", "x: 1:2: error: unused, see [SC1]"⟩,
            .lint ⟨0, 11, .info, "SC2086", "Double quote"⟩], command := some "shellcheck -f gcc -" } :=
  ⟨by decide, by decide, findings_decoded "shellcheck -f gcc -" 1 mixedOut mixedErr (by decide)⟩

end Shellwright.Output
