import Shellwright.Output.Tools
import Shellwright.Proofs.Output.Forms
import Shellwright.Proofs.Text.Lines
import Shellwright.Proofs.Wire.Reports
/-!
# Output that can be read

A report comes of every output whose numbers are short enough to be read. Which numbers are read
depends on the lines that have the form of a finding, of a syntax error, of the header of a block or of
a hunk; all other lines are passed over.
-/

namespace Shellwright.Output

open Shellwright.Text

/-! ## Numbers that are read -/

/-- The digits are few enough to be read as a number. -/
def IsLegible (digits : List Char) : Prop :=
  digits.length ≤ digitLimit

def FindingLine.IsLegible (l : FindingLine) : Prop :=
  Output.IsLegible l.line ∧ Output.IsLegible l.column

def ErrorLine.IsLegible (l : ErrorLine) : Prop :=
  Output.IsLegible l.line ∧ Output.IsLegible l.column

def findingLines (text : String) : List FindingLine :=
  matching FindingLine.read (lines text.toList) [] true

def headerLines (text : String) : List HeaderLine :=
  (lines text.toList).filterMap fun raw => HeaderLine.read (trim raw)

def errorLines (text : String) : List ErrorLine :=
  matching ErrorLine.read (lines text.toList) [] true

/-- The digits of the first line of every hunk. -/
def hunkLines (text : String) : List (List Char) :=
  matching hunkLine (lines text.toList) [] true

/-- The headers of blocks are read where there are no findings. -/
structure LinterLegible (e : Execution) : Prop where
  findings : ∀ l ∈ findingLines e.combinedOutput, l.IsLegible
  headers : findingLines e.combinedOutput = [] →
    ∀ l ∈ headerLines e.combinedOutput, Output.IsLegible l.line

/-- The formatter failed and said where it could not parse the document. -/
def Misparsed (e : Execution) : Prop :=
  errorLines e.stderr ≠ [] ∧ e.succeeded = false

/-- Of all syntax errors and hunks the first one is read. A formatter that failed without any complaint
is reported with its exit status. -/
structure FormatterLegible (mode : FormatterMode) (e : Execution) (status : Int) : Prop where
  error : ∀ l ∈ (errorLines e.stderr).head?, l.IsLegible
  hunk : ¬ Misparsed e → mode = .check → isBlankText e.stdout = false →
    ∀ digits ∈ (hunkLines e.stdout).head?, Output.IsLegible digits
  status : ¬ Misparsed e → (mode = .check → isBlankText e.stdout = true) → e.succeeded = false →
    (trimmed e.stderr).isEmpty = true → (Nat.toDigits 10 status.natAbs).length ≤ digitLimit

/-! ## Results -/

section Results

variable {ε α β : Type}

theorem exists_ok (a : α) : ∃ b, (.ok a : Except ε α) = .ok b :=
  ⟨a, rfl⟩

theorem bind_eq_ok_iff {x : Except ε α} {f : α → Except ε β} {b : β} :
    (x >>= f) = .ok b ↔ ∃ a, x = .ok a ∧ f a = .ok b := by
  cases x with
  | ok a =>
      constructor
      · exact fun hb => ⟨a, rfl, hb⟩
      · rintro ⟨_, ⟨⟩, hb⟩
        exact hb
  | error e => exact iff_of_false nofun nofun

theorem exists_ok_bind {x : Except ε α} {f : α → Except ε β} :
    (∃ b, (x >>= f) = .ok b) ↔ ∃ a, x = .ok a ∧ ∃ b, f a = .ok b := by
  simp only [bind_eq_ok_iff]
  rw [exists_comm]
  simp only [exists_and_left]

/-- What follows always has a result. -/
theorem exists_ok_bind_of {x : Except ε α} {f : α → Except ε β} (h : ∀ a, ∃ b, f a = .ok b) :
    (∃ b, (x >>= f) = .ok b) ↔ ∃ a, x = .ok a := by
  rw [exists_ok_bind]
  constructor
  · rintro ⟨a, ha, _⟩
    exact ⟨a, ha⟩
  · rintro ⟨a, ha⟩
    exact ⟨a, ha, h a⟩

theorem exists_ok_mapM {f : α → Except ε β} {xs : List α} :
    (∃ ys, xs.mapM f = .ok ys) ↔ ∀ x ∈ xs, ∃ y, f x = .ok y := by
  induction xs with
  | nil => exact iff_of_true ⟨[], rfl⟩ nofun
  | cons x rest ih =>
      rw [List.mapM_cons, exists_ok_bind, List.forall_mem_cons, ← ih]
      constructor
      · rintro ⟨y, hy, hrest⟩
        exact ⟨⟨y, hy⟩, (exists_ok_bind_of fun _ => exists_ok _).1 hrest⟩
      · rintro ⟨⟨y, hy⟩, hrest⟩
        exact ⟨y, hy, (exists_ok_bind_of fun _ => exists_ok _).2 hrest⟩

theorem length_of_mapM_ok {f : α → Except ε β} {xs : List α} {ys : List β}
    (h : xs.mapM f = .ok ys) : ys.length = xs.length := by
  induction xs generalizing ys with
  | nil =>
      cases h
      rfl
  | cons x rest ih =>
      rw [List.mapM_cons] at h
      obtain ⟨y, -, h⟩ := bind_eq_ok_iff.1 h
      obtain ⟨ys', hrest, h⟩ := bind_eq_ok_iff.1 h
      cases h
      rw [List.length_cons, List.length_cons, ih hrest]

theorem mapM_map_of_ok {γ : Type} {f : α → Except ε β} {p : γ → α} {g : γ → β}
    (h : ∀ x, f (p x) = .ok (g x)) (xs : List γ) : (xs.map p).mapM f = .ok (xs.map g) := by
  induction xs with
  | nil => rfl
  | cons x xs ih =>
      rw [List.map_cons, List.mapM_cons, h, ih]
      rfl

end Results

/-! ## Coordinates -/

theorem coordinate_ok_iff {digits : List Char} :
    (∃ n, coordinate digits = .ok n) ↔ IsLegible digits := by
  unfold coordinate readDigits IsLegible
  split <;> simp_all

/-- A coordinate counts from one where it is written and from zero where it is read; before the first one
nothing comes. -/
theorem coordinate_of_short {digits : List Char} (short : digits.length ≤ digitLimit) :
    coordinate digits = .ok (digitsValue digits - 1) := by
  have hzero : zeroBased (digitsValue digits) = digitsValue digits - 1 := by
    unfold zeroBased
    omega
  unfold coordinate readDigits
  rw [if_pos short]
  simp only [hzero]

theorem FindingLine.issue_ok_iff {l : FindingLine} : (∃ i, l.issue = .ok i) ↔ l.IsLegible := by
  unfold FindingLine.issue
  simp only [exists_ok_bind]
  unfold FindingLine.IsLegible
  rw [← coordinate_ok_iff, ← coordinate_ok_iff]
  constructor
  · rintro ⟨n, hn, m, hm, _⟩
    exact ⟨⟨n, hn⟩, m, hm⟩
  · rintro ⟨⟨n, hn⟩, m, hm⟩
    exact ⟨n, hn, m, hm, exists_ok _⟩

theorem ErrorLine.issue_ok_iff {l : ErrorLine} : (∃ i, l.issue = .ok i) ↔ l.IsLegible := by
  unfold ErrorLine.issue
  simp only [exists_ok_bind]
  unfold ErrorLine.IsLegible
  rw [← coordinate_ok_iff, ← coordinate_ok_iff]
  constructor
  · rintro ⟨n, hn, m, hm, _⟩
    exact ⟨⟨n, hn⟩, m, hm⟩
  · rintro ⟨⟨n, hn⟩, m, hm⟩
    exact ⟨n, hn, m, hm, exists_ok _⟩

/-! ## The linter -/

theorem findings_ok_iff {text : String} :
    (∃ is, findings (lines text.toList) = .ok is) ↔ ∀ l ∈ findingLines text, l.IsLegible := by
  unfold findings
  rw [exists_ok_mapM]
  exact forall₂_congr fun _ _ => FindingLine.issue_ok_iff

/-- Notes are read with the headers above them, and nothing but a header can be too long. -/
theorem notes_ok_iff {line : Option Nat} {ls : List (List Char)} :
    (∃ is, notes line ls = .ok is) ↔
      ∀ l ∈ ls.filterMap fun raw => HeaderLine.read (trim raw), IsLegible l.line := by
  induction ls generalizing line with
  | nil => exact iff_of_true ⟨[], rfl⟩ nofun
  | cons raw rest ih =>
      unfold notes
      rw [List.filterMap_cons]
      cases hheader : HeaderLine.read (trim raw) with
      | some header =>
          simp only
          rw [exists_ok_bind, List.forall_mem_cons, ← coordinate_ok_iff]
          constructor
          · rintro ⟨n, hn, hrest⟩
            exact ⟨⟨n, hn⟩, ih.1 hrest⟩
          · rintro ⟨⟨n, hn⟩, hrest⟩
            exact ⟨n, hn, ih.2 hrest⟩
      | none =>
          simp only
          split
          · exact (exists_ok_bind_of fun _ => exists_ok _).trans ih
          · exact ih

/-- Each line that has the form of a finding is one. -/
theorem findings_eq_nil_iff {text : String} {found : List LintIssue}
    (h : findings (lines text.toList) = .ok found) : found = [] ↔ findingLines text = [] := by
  have hlength : found.length = (findingLines text).length := length_of_mapM_ok h
  rw [← List.length_eq_zero_iff, hlength, List.length_eq_zero_iff]

/-- Notes are read when there are no findings, and what becomes of either has a result. -/
theorem issues_ok_iff {α : Type} {text : String} {found : List LintIssue}
    {f : List LintIssue → Except OutputError α} (hf : ∀ is, ∃ a, f is = .ok a)
    (hfound : findings (lines text.toList) = .ok found) :
    (∃ a, (if found.isEmpty then notes none (lines text.toList) >>= f else pure found >>= f) = .ok a) ↔
      (findingLines text = [] → ∀ l ∈ headerLines text, IsLegible l.line) := by
  rw [← findings_eq_nil_iff hfound]
  cases found with
  | nil =>
      refine (exists_ok_bind_of hf).trans (notes_ok_iff.trans ?_)
      exact ⟨fun h _ => h, fun h => h rfl⟩
  | cons l rest => exact iff_of_true (hf (l :: rest)) nofun

theorem lintReport_ok_iff (e : Execution) :
    (∃ r, lintReport e = .ok r) ↔ ∀ status, e.ending = .exited status → LinterLegible e := by
  cases hending : e.ending with
  | failed failure =>
      unfold lintReport
      rw [hending]
      exact iff_of_true (exists_ok _) nofun
  | exited status =>
      have hreport (issues : List LintIssue) : ∃ r, (if issues.isEmpty &&
          decide (usageFailureStatus ≤ status) && !(trimmed e.stderr).isEmpty then
            return { failure := some s!"shellcheck failed: {trimmed e.stderr}", command := some e.command }
          else return { issues := issues.map .lint, command := some e.command } :
            Except OutputError Report) = .ok r := by
        split
        · exact exists_ok _
        · exact exists_ok _
      unfold lintReport
      rw [hending]
      simp only
      rw [exists_ok_bind]
      constructor
      · rintro ⟨found, hfound, hissues⟩ _ _
        exact ⟨findings_ok_iff.1 ⟨found, hfound⟩, (issues_ok_iff hreport hfound).1 hissues⟩
      · intro h
        have hlegible := h status rfl
        obtain ⟨found, hfound⟩ := findings_ok_iff.2 hlegible.findings
        exact ⟨found, hfound, (issues_ok_iff hreport hfound).2 hlegible.headers⟩

/-! ## The formatter -/

theorem firstSyntaxError_ok_iff {text : String} :
    (∃ i, firstSyntaxError text = .ok i) ↔ ∀ l ∈ (errorLines text).head?, l.IsLegible := by
  unfold firstSyntaxError errorLines
  cases matching ErrorLine.read (lines text.toList) [] true with
  | nil => exact iff_of_true (exists_ok _) nofun
  | cons l rest =>
      rw [List.head?_cons]
      simp only [Option.mem_some_iff, forall_eq']
      rw [← ErrorLine.issue_ok_iff]
      exact exists_ok_bind_of fun _ => exists_ok _

theorem patchIssue_ok_iff {diff : String} :
    (∃ i, patchIssue diff = .ok i) ↔ ∀ digits ∈ (hunkLines diff).head?, IsLegible digits := by
  unfold patchIssue hunkLines
  cases matching hunkLine (lines diff.toList) [] true with
  | nil => exact iff_of_true (exists_ok _) nofun
  | cons digits rest =>
      rw [List.head?_cons]
      simp only [Option.mem_some_iff, forall_eq']
      rw [← coordinate_ok_iff]
      exact exists_ok_bind_of fun _ => exists_ok _

theorem statusText_ok_iff {status : Int} :
    (∃ text, statusText status = .ok text) ↔
      (Nat.toDigits 10 status.natAbs).length ≤ digitLimit := by
  unfold statusText
  split <;> simp_all

theorem formatterFailure_ok_iff {e : Execution} {status : Int} :
    (∃ r, formatterFailure e status = .ok r) ↔
      ((trimmed e.stderr).isEmpty = true → (Nat.toDigits 10 status.natAbs).length ≤ digitLimit) := by
  rw [← statusText_ok_iff]
  unfold formatterFailure
  dsimp only
  cases (trimmed e.stderr).isEmpty with
  | false => exact iff_of_true (exists_ok _) nofun
  | true => exact (exists_ok_bind_of fun _ => exists_ok _).trans ⟨fun h _ => h, fun h => h rfl⟩

/-- A syntax error is found where some line has the form of one. -/
theorem firstSyntaxError_eq_none_iff {text : String} {issue : Option SyntaxIssue}
    (h : firstSyntaxError text = .ok issue) : issue = none ↔ errorLines text = [] := by
  unfold firstSyntaxError at h
  unfold errorLines
  cases hlines : matching ErrorLine.read (lines text.toList) [] true with
  | nil =>
      rw [hlines] at h
      cases h
      exact iff_of_true rfl rfl
  | cons l rest =>
      rw [hlines] at h
      cases hissue : l.issue with
      | error error =>
          simp only [hissue] at h
          cases h
      | ok i =>
          simp only [hissue] at h
          cases h
          exact iff_of_false nofun nofun

theorem parsedReport_ok_iff (mode : FormatterMode) (e : Execution) (status : Int) :
    (∃ r, parsedReport mode e status = .ok r) ↔
      (mode = .check → isBlankText e.stdout = false →
        ∀ digits ∈ (hunkLines e.stdout).head?, IsLegible digits) ∧
      ((mode = .check → isBlankText e.stdout = true) → e.succeeded = false →
        (trimmed e.stderr).isEmpty = true → (Nat.toDigits 10 status.natAbs).length ≤ digitLimit) := by
  unfold parsedReport
  cases mode with
  | format =>
      dsimp only
      cases e.succeeded with
      | true =>
          rw [if_pos rfl]
          refine iff_of_true (exists_ok _) ⟨fun hmode => ?_, fun _ hfailed => ?_⟩
          · cases hmode
          · cases hfailed
      | false =>
          rw [if_neg Bool.false_ne_true, formatterFailure_ok_iff]
          refine ⟨fun h => ⟨fun hmode => ?_, fun _ _ => h⟩, fun h => ?_⟩
          · cases hmode
          · exact h.2 (fun hmode => nomatch hmode) rfl
  | check =>
      dsimp only
      cases isBlankText e.stdout with
      | false =>
          rw [Bool.not_false, if_pos rfl]
          refine (exists_ok_bind_of fun _ => exists_ok _).trans (patchIssue_ok_iff.trans ?_)
          exact ⟨fun h => ⟨fun _ _ => h, fun hblank => nomatch hblank rfl⟩, fun h => h.1 rfl rfl⟩
      | true =>
          rw [Bool.not_true, if_neg Bool.false_ne_true]
          cases e.succeeded with
          | true =>
              rw [if_pos rfl]
              refine iff_of_true (exists_ok _) ⟨fun _ hshown => ?_, fun _ hfailed => ?_⟩
              · cases hshown
              · cases hfailed
          | false =>
              rw [if_neg Bool.false_ne_true, formatterFailure_ok_iff]
              refine ⟨fun h => ⟨fun _ hshown => ?_, fun _ _ => h⟩, fun h => ?_⟩
              · cases hshown
              · exact h.2 (fun _ => rfl) rfl

/-- A syntax error is reported by itself; everything else is reported as of a parsed document. -/
theorem formatterReport_of_exited {mode : FormatterMode} {e : Execution} {status : Int}
    {issue : Option SyntaxIssue} (ending : e.ending = .exited status)
    (hissue : firstSyntaxError e.stderr = .ok issue) :
    (∃ r, formatterReport mode e = .ok r) ↔
      (¬ Misparsed e → ∃ r, parsedReport mode e status = .ok r) := by
  have hnone := firstSyntaxError_eq_none_iff hissue
  unfold formatterReport Misparsed
  rw [ending]
  simp only [hissue, ne_eq, ← hnone]
  cases issue with
  | none => exact ⟨fun h _ => h, fun h => h fun hmisparsed => hmisparsed.1 rfl⟩
  | some i =>
      cases e.succeeded with
      | true => exact ⟨fun h _ => h, fun h => h fun hmisparsed => nomatch hmisparsed.2⟩
      | false => exact iff_of_true (exists_ok _) fun hparsed => absurd ⟨nofun, rfl⟩ hparsed

theorem formatterReport_ok_iff (mode : FormatterMode) (e : Execution) :
    (∃ r, formatterReport mode e = .ok r) ↔
      ∀ status, e.ending = .exited status → FormatterLegible mode e status := by
  cases hending : e.ending with
  | failed failure =>
      unfold formatterReport
      rw [hending]
      exact iff_of_true (exists_ok _) nofun
  | exited status =>
      constructor
      · rintro hreport _ ⟨⟩
        have hread : ∃ issue, firstSyntaxError e.stderr = .ok issue := by
          unfold formatterReport at hreport
          rw [hending] at hreport
          obtain ⟨issue, hissue, _⟩ := exists_ok_bind.1 hreport
          exact ⟨issue, hissue⟩
        obtain ⟨issue, hissue⟩ := hread
        have hparsed := (formatterReport_of_exited hending hissue).1 hreport
        exact ⟨firstSyntaxError_ok_iff.1 ⟨issue, hissue⟩,
          fun h => ((parsedReport_ok_iff mode e status).1 (hparsed h)).1,
          fun h => ((parsedReport_ok_iff mode e status).1 (hparsed h)).2⟩
      · intro h
        have hlegible := h status rfl
        obtain ⟨issue, hissue⟩ := firstSyntaxError_ok_iff.2 hlegible.error
        refine (formatterReport_of_exited hending hissue).2 fun hparsed => ?_
        exact (parsedReport_ok_iff mode e status).2 ⟨hlegible.hunk hparsed, hlegible.status hparsed⟩

/-! ## Reports -/

/-- There is a report, and it is a valid one. -/
def Reports (result : Except OutputError Report) : Prop :=
  ∃ r, result = .ok r ∧ Wire.reportRecord r.toDatum = .valid r

theorem reports_iff {result : Except OutputError Report} :
    Reports result ↔ ∃ r, result = .ok r :=
  exists_congr fun r => and_iff_left (Wire.takes_report r)

/-- Whatever a tool has written and however it ended, a valid report comes of it exactly when the numbers
that are read from it are short enough. -/
theorem reports_iff_legible (e : Execution) :
    (∀ mode, Reports (formatterReport mode e) ↔
      ∀ status, e.ending = .exited status → FormatterLegible mode e status) ∧
    (Reports (lintReport e) ↔ ∀ status, e.ending = .exited status → LinterLegible e) :=
  ⟨fun mode => reports_iff.trans (formatterReport_ok_iff mode e),
    reports_iff.trans (lintReport_ok_iff e)⟩

/-! ## A number that is too long -/

/-- A finding at a line whose number is written with `count` nines. -/
def findingText (count : Nat) : List Char :=
  'f' :: (':' :: List.replicate count '9' ++ ":1: error: many digits [SC1".toList) ++ [']']

theorem lines_findingText (count : Nat) : lines (findingText count) = [findingText count] := by
  refine lines_unbroken (fun c hc => ?_) (List.cons_ne_nil _ _)
  have hend : (":1: error: many digits [SC1]".toList.all fun c => !isLineBreak c) = true := by decide
  unfold findingText at hc
  simp only [List.cons_append, List.append_assoc, List.mem_cons, List.mem_append,
    List.mem_replicate] at hc
  rcases hc with rfl | rfl | ⟨_, rfl⟩ | hc
  · decide
  · decide
  · decide
  · have hunbroken := List.all_eq_true.1 hend c (by simpa [or_assoc] using hc)
    rwa [Bool.not_eq_true'] at hunbroken

theorem read_findingText {count : Nat} (h : 0 < count) :
    FindingLine.read (findingText count) = some
      { file := ['f'], line := List.replicate count '9', column := ['1'], level := "error".toList,
        message := "many digits".toList, code := "SC1".toList } := by
  have hline : IsNumeral (List.replicate count '9') := by
    refine ⟨by simp; omega, fun d hd => ?_⟩
    rw [List.eq_of_mem_replicate hd]
    rfl
  have hsingle : '\n' ∉ findingText count := by
    have hmem : findingText count ∈ lines (findingText count) := by simp [lines_findingText]
    exact feed_not_mem_of_mem_lines hmem
  have hone : IsNumeral ['1'] := ⟨List.cons_ne_nil _ _, fun d hd => List.mem_singleton.1 hd ▸ rfl⟩
  refine FindingLine.read_of_spells hsingle ⟨?_, ?_⟩ (by simp)
  · exact ⟨List.cons_ne_nil _ _, hline, hone, List.mem_cons_self, List.cons_ne_nil _ _, ['1'], hone, rfl⟩
  · simp [FindingLine.remainder, findingText]

/-- An execution of the linter that complains of one such finding. -/
def findingAt (count : Nat) : Execution where
  command := "shellcheck -f gcc -"
  ending := .exited 1
  stderr := String.ofList (findingText count)

theorem findingLines_findingAt {count : Nat} (h : 0 < count) :
    (findingLines (findingAt count).combinedOutput).map FindingLine.line =
      [List.replicate count '9'] := by
  change (matching FindingLine.read (lines (String.ofList (findingText count)).toList) [] true).map _ = _
  have htrim : trim (findingText count) = findingText count := trim_of_ends (by decide) (by decide) _
  unfold matching
  rw [String.toList_ofList, lines_findingText]
  simp only [List.filterMap_cons, htrim, read_findingText h]
  rfl

/-- One line of output with a number that is too long leaves the linter without a report. -/
theorem exists_unreported : ¬ ∀ e, Reports (lintReport e) := by
  intro h
  have hlegible := (lintReport_ok_iff _).1 (reports_iff.1 (h (findingAt (digitLimit + 1)))) 1 rfl
  have hmem := List.mem_singleton_self (List.replicate (digitLimit + 1) '9')
  rw [← findingLines_findingAt (Nat.succ_pos _)] at hmem
  obtain ⟨l, hl, hline⟩ := List.mem_map.1 hmem
  have hlength : l.line.length ≤ digitLimit := (hlegible.findings l hl).1
  rw [hline, List.length_replicate] at hlength
  exact Nat.not_succ_le_self _ hlength

end Shellwright.Output
