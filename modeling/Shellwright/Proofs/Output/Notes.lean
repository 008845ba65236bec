import Mathlib.Data.List.Forall2
import Shellwright.Proofs.Output.Findings
/-!
# Notes are read under their headers

Where the linter writes no findings its blocks are read: each line that has the form of a note, is no
header itself and has a header above it is one issue. Source that is echoed in between counts like any
other line, so that it can be a header or a note as well.
-/

namespace Shellwright.Output

open Shellwright.Text

/-! ## Headers and notes by line -/

/-- A header is looked for between the blanks at both ends of a line. -/
def HeaderAt (ls : List (List Char)) (i : Nat) (h : HeaderLine) : Prop :=
  ∃ raw, ls[i]? = some raw ∧ h.Spells (trim raw)

/-- A note is looked for in the line as it is, but for blanks at its end: those before the caret count. -/
def NoteAt (ls : List (List Char)) (i : Nat) (n : NoteLine) : Prop :=
  ∃ raw, ls[i]? = some raw ∧ n.Spells (trimEnd raw)

/-- The lines that are issues. -/
structure Tells (ls : List (List Char)) (i : Nat) : Prop where
  note : ∃ n, NoteAt ls i n
  plain : ∀ h, ¬ HeaderAt ls i h
  below : ∃ j h, j < i ∧ HeaderAt ls j h

/-- The nearest header above line `i` is for `line`, counted from zero. -/
def Below (ls : List (List Char)) (i line : Nat) : Prop :=
  ∃ j h, j < i ∧ HeaderAt ls j h ∧ (∀ k h', j < k → k < i → ¬ HeaderAt ls k h') ∧
    line = digitsValue h.line - 1

/-- The level of a note is the one that its label names in any case, and a warning when there is no label
or the label names none. -/
def Rated (label : Option (List Char)) (level : LintLevel) : Prop :=
  (∃ (name : LevelName) (word : List Char), label = some word ∧ lower word = name.word ∧
    level = name.level) ∨
  ((∀ (name : LevelName) (word : List Char), label = some word → lower word ≠ name.word) ∧
    level = .warning)

/-- The issue of line `i`: its line is that of the nearest header above, and its column is the number of
blanks before the first caret. -/
structure IssueAt (ls : List (List Char)) (i : Nat) (issue : LintIssue) (n : NoteLine) : Prop where
  note : NoteAt ls i n
  line : Below ls i issue.line
  column : issue.column = n.indent.length
  level : Rated n.level issue.level
  code : issue.code = String.ofList n.code
  message : issue.message = String.ofList (trim n.message)

theorem ofWord?_eq_none {cs : List Char} (unnamed : ∀ name : LevelName, cs ≠ name.word) :
    LintLevel.ofWord? (String.ofList cs) = none := by
  have hword {s : String} (h : String.ofList cs = s) : cs = s.toList := by
    rw [← h, String.toList_ofList]
  unfold LintLevel.ofWord? LintLevel.ofLabel?
  rw [if_neg fun h => unnamed .note (hword h)]
  split
  · exact absurd (hword ‹_›) (unnamed .error)
  · exact absurd (hword ‹_›) (unnamed .warning)
  · exact absurd (hword ‹_›) (unnamed .info)
  · exact absurd (hword ‹_›) (unnamed .style)
  · rfl

theorem rated_levelOf {label : Option (List Char)} (letters : ∀ word ∈ label, ∀ c ∈ word, isWord c = true) :
    Rated label (levelOf label) := by
  cases label with
  | none => exact .inr ⟨nofun, rfl⟩
  | some word =>
      have htrim : trim word = word := trim_of_no_blank fun c hc => by
        by_contra hblank
        have hword := isWord_of_isBlank (by simpa using hblank)
        rw [letters word rfl c hc] at hword
        cases hword
      have hlevel : levelOf (some word) =
          (LintLevel.ofWord? (String.ofList (lower word))).getD .warning := by
        unfold levelOf LintLevel.ofToken
        simp only [Option.map_some, String.toList_ofList, htrim]
      by_cases hname : ∃ name : LevelName, lower word = name.word
      · obtain ⟨name, hname⟩ := hname
        refine .inl ⟨name, word, rfl, hname, ?_⟩
        rw [hlevel, hname]
        cases name <;> decide
      · refine .inr ⟨fun name word' hword hlower => hname ⟨name, ?_⟩, ?_⟩
        · rw [Option.some.inj hword, hlower]
        · rw [hlevel, ofWord?_eq_none fun name h => hname ⟨name, h⟩]
          rfl

/-! ## The loop over the lines -/

/-- The header in force at line `i`. -/
def Above (ls : List (List Char)) (i : Nat) : Option Nat → Prop
  | none => ∀ j h, j < i → ¬ HeaderAt ls j h
  | some line => Below ls i line

theorem above_zero (ls : List (List Char)) : Above ls 0 none :=
  fun _ _ hlt => absurd hlt (Nat.not_lt_zero _)

/-- A header takes force for the lines below it. -/
theorem HeaderAt.above {ls : List (List Char)} {i : Nat} {h : HeaderLine} (header : HeaderAt ls i h) :
    Above ls (i + 1) (some (digitsValue h.line - 1)) :=
  ⟨i, h, Nat.lt_succ_self i, header, fun k _ hik hki => by omega, rfl⟩

/-- Any other line leaves the header in force. -/
theorem Above.succ {ls : List (List Char)} {i : Nat} {line : Option Nat} (above : Above ls i line)
    (plain : ∀ h, ¬ HeaderAt ls i h) : Above ls (i + 1) line := by
  cases line with
  | none =>
      intro j h hj
      by_cases hji : j = i
      · rw [hji]
        exact plain h
      · exact above j h (by omega)
  | some line =>
      obtain ⟨j, h, hj, header, nearest, hline⟩ := above
      refine ⟨j, h, by omega, header, fun k h' hjk hki => ?_, hline⟩
      by_cases hk : k = i
      · rw [hk]
        exact plain h'
      · exact nearest k h' hjk (by omega)

/-- The issues of the lines from `i` on, by the lines they are told at. -/
structure Told (ls : List (List Char)) (i : Nat) (places : List Nat) (issues : List LintIssue) : Prop where
  ordered : places.Pairwise (· < ·)
  mem_iff : ∀ k, k ∈ places ↔ i ≤ k ∧ Tells ls k
  issues : List.Forall₂ (fun k issue => ∃ n, IssueAt ls k issue n) places issues

theorem Told.skip {ls : List (List Char)} {i : Nat} {places : List Nat} {issues : List LintIssue}
    (told : Told ls (i + 1) places issues) (silent : ¬ Tells ls i) : Told ls i places issues := by
  refine ⟨told.ordered, fun k => (told.mem_iff k).trans ?_, told.issues⟩
  constructor
  · exact fun h => ⟨by omega, h.2⟩
  · rintro ⟨hik, htells⟩
    have hne : k ≠ i := by
      rintro rfl
      exact silent htells
    exact ⟨by omega, htells⟩

theorem Told.cons {ls : List (List Char)} {i : Nat} {places : List Nat} {issues : List LintIssue}
    (told : Told ls (i + 1) places issues) (tells : Tells ls i) {issue : LintIssue} {n : NoteLine}
    (at_ : IssueAt ls i issue n) : Told ls i (i :: places) (issue :: issues) := by
  refine ⟨List.pairwise_cons.2 ⟨fun k hk => ((told.mem_iff k).1 hk).1, told.ordered⟩, fun k => ?_,
    .cons ⟨n, at_⟩ told.issues⟩
  rw [List.mem_cons, told.mem_iff k]
  constructor
  · rintro (rfl | ⟨hk, htells⟩)
    · exact ⟨Nat.le_refl k, tells⟩
    · exact ⟨by omega, htells⟩
  · rintro ⟨hik, htells⟩
    by_cases hk : k = i
    · exact .inl hk
    · exact .inr ⟨by omega, htells⟩

/-- No line that is read holds a line feed. -/
def Single (ls : List (List Char)) : Prop :=
  ∀ raw ∈ ls, '\n' ∉ raw

theorem single_lines (cs : List Char) : Single (lines cs) :=
  fun _ h => feed_not_mem_of_mem_lines h

theorem Single.header_iff {ls : List (List Char)} (single : Single ls) {i : Nat} {raw : List Char}
    (h : ls[i]? = some raw) {header : HeaderLine} :
    HeaderLine.read (trim raw) = some header ↔ HeaderAt ls i header := by
  have hraw : '\n' ∉ trim raw := fun hmem =>
    single raw (List.mem_of_getElem? h) ((isInfix_trim raw).mem hmem)
  rw [HeaderLine.read_eq_some_iff hraw]
  constructor
  · exact fun spells => ⟨raw, h, spells⟩
  · rintro ⟨raw', h', spells⟩
    rw [h] at h'
    cases h'
    exact spells

theorem Single.note_iff {ls : List (List Char)} (single : Single ls) {i : Nat} {raw : List Char}
    (h : ls[i]? = some raw) {n : NoteLine} : NoteLine.read (trimEnd raw) = some n ↔ NoteAt ls i n := by
  have hraw : '\n' ∉ trimEnd raw := fun hmem =>
    single raw (List.mem_of_getElem? h) ((isPrefix_trimEnd raw).mem hmem)
  rw [NoteLine.read_eq_some_iff hraw]
  constructor
  · exact fun spells => ⟨raw, h, spells⟩
  · rintro ⟨raw', h', spells⟩
    rw [h] at h'
    cases h'
    exact spells

theorem NoteAt.issueAt {ls : List (List Char)} {i line : Nat} {n : NoteLine} (note : NoteAt ls i n)
    (below : Below ls i line) : IssueAt ls i (n.issue line) n := by
  obtain ⟨raw, -, spells⟩ := id note
  obtain ⟨_, _, _, _, _, _, marks, _, _⟩ := spells.text
  refine ⟨note, below, rfl, rated_levelOf fun word hword => ?_, rfl, rfl⟩
  rw [Option.mem_def] at hword
  rw [hword] at marks
  cases marks with
  | labelled _ _ letters => exact letters

/-- From any line on, each line that tells of an issue gives that issue. -/
theorem notes_told {ls : List (List Char)} (single : Single ls)
    (legible : ∀ j h, HeaderAt ls j h → IsLegible h.line) {i : Nat} {line : Option Nat}
    (above : Above ls i line) : ∃ places issues, notes line (ls.drop i) = .ok issues ∧
      Told ls i places issues := by
  -- The induction is on the lines that are left, with the header that is in force among them.
  induction hrest : ls.drop i generalizing i line with
  | nil =>
      refine ⟨[], [], rfl, .nil, fun k => iff_of_false nofun ?_, .nil⟩
      rintro ⟨hik, ⟨n, raw, hraw, -⟩, -, -⟩
      have hlength := List.drop_eq_nil_iff.1 hrest
      rw [List.getElem?_eq_none (by omega)] at hraw
      cases hraw
  | cons raw rest ih =>
      have hraw : ls[i]? = some raw := by rw [← List.head?_drop, hrest, List.head?_cons]
      have hnext : ls.drop (i + 1) = rest := by rw [← List.tail_drop, hrest, List.tail_cons]
      unfold notes
      cases hheader : HeaderLine.read (trim raw) with
      | some header =>
          have header_at := (single.header_iff hraw).1 hheader
          obtain ⟨places, issues, hnotes, told⟩ := ih header_at.above hnext
          refine ⟨places, issues, ?_, told.skip fun tells => tells.plain header header_at⟩
          simp only [coordinate_of_short (legible i header header_at)]
          exact hnotes
      | none =>
          have plain : ∀ h, ¬ HeaderAt ls i h := fun h header_at => by
            rw [(single.header_iff hraw).2 header_at] at hheader
            cases hheader
          obtain ⟨places, issues, hnotes, told⟩ := ih (above.succ plain) hnext
          cases line with
          | none =>
              refine ⟨places, issues, hnotes, told.skip fun tells => ?_⟩
              obtain ⟨j, h, hj, header_at⟩ := tells.below
              exact above j h hj header_at
          | some line =>
              cases hnote : NoteLine.read (trimEnd raw) with
              | some note =>
                  have note_at := (single.note_iff hraw).1 hnote
                  obtain ⟨j, h, hj, header_at, -, -⟩ := id above
                  refine ⟨i :: places, note.issue line :: issues, ?_,
                    told.cons ⟨⟨note, note_at⟩, plain, j, h, hj, header_at⟩ (note_at.issueAt above)⟩
                  simp only [hnotes]
                  rfl
              | none =>
                  refine ⟨places, issues, hnotes, told.skip fun tells => ?_⟩
                  obtain ⟨n, note_at⟩ := tells.note
                  rw [(single.note_iff hraw).2 note_at] at hnote
                  cases hnote

/-- The notes of a whole text are those of all its lines. -/
theorem notes_lines {text : String}
    (legible : ∀ i h, HeaderAt (lines text.toList) i h → IsLegible h.line) :
    ∃ places issues, notes none (lines text.toList) = .ok issues ∧ Told (lines text.toList) 0 places issues :=
  notes_told (single_lines text.toList) legible (above_zero _)

theorem Told.issues_eq_nil_iff {ls : List (List Char)} {places : List Nat} {issues : List LintIssue}
    (told : Told ls 0 places issues) : issues = [] ↔ ∀ i, ¬ Tells ls i := by
  rw [← List.length_eq_zero_iff, ← told.issues.length_eq, List.length_eq_zero_iff,
    List.eq_nil_iff_forall_not_mem]
  exact forall_congr' fun i => not_congr ((told.mem_iff i).trans (and_iff_right (Nat.zero_le i)))

/-! ## Reports -/

/-- No line of the output is a finding. -/
def NoFindings (e : Execution) : Prop :=
  ∀ raw ∈ lines e.combinedOutput.toList, ∀ l : FindingLine, ¬ l.Spells (trim raw)

theorem noFindings_iff {e : Execution} : NoFindings e ↔ findingLines e.combinedOutput = [] := by
  unfold NoFindings findingLines
  rw [matching_eq rfl, List.filterMap_eq_nil_iff]
  exact forall₂_congr fun raw hraw => (FindingLine.read_eq_none_iff (feed_not_mem_trim hraw)).symm

theorem NoFindings.findings_eq {e : Execution} (h : NoFindings e) :
    findings (lines e.combinedOutput.toList) = .ok [] := by
  have hmatching : matching FindingLine.read (lines e.combinedOutput.toList) [] true = [] :=
    noFindings_iff.1 h
  unfold findings
  rw [hmatching]
  rfl

/-- The headers of a text are those of its lines. -/
theorem forall_mem_headerLines {P : HeaderLine → Prop} {text : String} :
    (∀ h ∈ headerLines text, P h) ↔ ∀ i h, HeaderAt (lines text.toList) i h → P h := by
  have single := single_lines text.toList
  unfold headerLines
  constructor
  · rintro all i h header
    obtain ⟨raw, hraw, -⟩ := id header
    exact all h (List.mem_filterMap.2 ⟨raw, List.mem_of_getElem? hraw, (single.header_iff hraw).2 header⟩)
  · intro all h hmem
    obtain ⟨raw, hraw, hread⟩ := List.mem_filterMap.1 hmem
    obtain ⟨i, hi⟩ := List.mem_iff_getElem?.1 hraw
    exact all i h ((single.header_iff hi).1 hread)

/-- Without findings the notes are reported, whatever the exit status; only when there are none either can
the linter have failed. -/
theorem lintReport_of_notes {e : Execution} {status : Int} {issues : List LintIssue}
    (ending : e.ending = .exited status) (nothing : NoFindings e)
    (read : notes none (lines e.combinedOutput.toList) = .ok issues) :
    lintReport e = .ok (
      if issues.isEmpty && usageFailureStatus ≤ status && !(trimmed e.stderr).isEmpty then
        { failure := some s!"shellcheck failed: {trimmed e.stderr}", command := e.command }
      else { issues := issues.map .lint, command := e.command }) := by
  unfold lintReport
  rw [ending]
  simp only [nothing.findings_eq]
  change (notes none (lines e.combinedOutput.toList) >>= _) = _
  rw [read]
  exact (apply_ite Except.ok _ _ _).symm

/-- Without findings, and with headers whose numbers can be read, the report has one issue for each line
that tells of one: a line that is no header, has the form of a note and stands below some header. The issues
come in the order of the lines, and each is told from its own line and the nearest header above. -/
theorem notes_decoded {e : Execution} {status : Int} (ending : e.ending = .exited status)
    (nothing : NoFindings e)
    (legible : ∀ i h, HeaderAt (lines e.combinedOutput.toList) i h → h.line.length ≤ digitLimit) :
    ∃ r issues places, lintReport e = .ok r ∧ r.issues = issues.map .lint ∧
      places.Pairwise (· < ·) ∧ (∀ i, i ∈ places ↔ Tells (lines e.combinedOutput.toList) i) ∧
      List.Forall₂ (fun i issue => ∃ n, IssueAt (lines e.combinedOutput.toList) i issue n) places issues := by
  obtain ⟨places, issues, hnotes, told⟩ := notes_lines legible
  refine ⟨_, issues, places, lintReport_of_notes ending nothing hnotes, ?_, told.ordered,
    fun i => (told.mem_iff i).trans (and_iff_right (Nat.zero_le i)), told.issues⟩
  split
  · rename_i hfailed
    have hnil : issues = [] := by
      simp only [Bool.and_eq_true, List.isEmpty_iff] at hfailed
      exact hfailed.1.1
    rw [hnil]
    rfl
  · rfl

/-- A note above every header, two notes below one, and on the other stream a header between blanks with a
note that has no level. -/
def blocks : Execution where
  command := "shellcheck -f tty -"
  ending := .exited 1
  stdout := "^ SC1: a\nIn x line 3 line 7:\n ^-- SC2 (Info): b\n^ SC3 (odd): c"
  stderr := " In y line 0: \n\t^ SC4: d "

theorem notes_decoded_blocks :
    (blocks.ending = .exited 1 ∧ NoFindings blocks ∧
      ∀ i h, HeaderAt (lines blocks.combinedOutput.toList) i h → h.line.length ≤ digitLimit) ∧
    (∃ r issues places, lintReport blocks = .ok r ∧ r.issues = issues.map .lint ∧
      places.Pairwise (· < ·) ∧ (∀ i, i ∈ places ↔ Tells (lines blocks.combinedOutput.toList) i) ∧
      List.Forall₂ (fun i issue => ∃ n, IssueAt (lines blocks.combinedOutput.toList) i issue n)
        places issues) ∧
    lintReport blocks =
      .ok { issues := [.lint ⟨6, 1, .info, "SC2", "b"⟩, .lint ⟨6, 0, .warning, "SC3", "c"⟩,
              .lint ⟨0, 1, .warning, "SC4", "d"⟩],
            command := some "shellcheck -f tty -" } := by
  have nothing : NoFindings blocks := noFindings_iff.2 (by decide +kernel)
  have legible : ∀ i h, HeaderAt (lines blocks.combinedOutput.toList) i h → h.line.length ≤ digitLimit :=
    forall_mem_headerLines.1 (by decide +kernel)
  exact ⟨⟨rfl, nothing, legible⟩, notes_decoded rfl nothing legible, by decide +kernel⟩

end Shellwright.Output
