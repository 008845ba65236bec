import Mathlib.Data.List.Basic
import Shellwright.Proofs.Wire.Reports
/-!
# The order of diagnostics

A failure is all that is shown of a report. Otherwise every issue is shown once: what keeps the tool from
reading the document comes first, then what is to be formatted, then the findings, and issues of one kind
stay in the order in which they were reported. A diagnostic stops an automatic format exactly when the
report does, and it marks a line that the document has, whatever line the tool named.
-/

namespace Shellwright

/-! ## Issues by rank -/

/-- Issues of a lower rank are shown first. -/
def Issue.rank : Issue → Nat
  | .syntaxError _ => 0
  | .misformat _ => 1
  | .lint _ => 2

/-- The issues `shown` are the reported ones by rank, those of one rank as they were reported. -/
structure Arranges (reported shown : List Issue) : Prop where
  all : shown.Perm reported
  ranked : shown.Pairwise fun a b => a.rank ≤ b.rank
  stable : ∀ n, shown.filter (·.rank = n) = reported.filter (·.rank = n)

/-- The issues of a rank, in the order in which they were reported. -/
def Report.ofRank (r : Report) (n : Nat) : List Issue :=
  r.issues.filter (·.rank = n)

def Report.arranged (r : Report) : List Issue :=
  r.ofRank 0 ++ r.ofRank 1 ++ r.ofRank 2

variable {r : Report} {source text : String}

theorem Issue.rank_le (i : Issue) : i.rank ≤ 2 := by
  cases i <;> simp [rank]

theorem Report.rank_of_mem_ofRank {n : Nat} {i : Issue} (h : i ∈ r.ofRank n) : i.rank = n := by
  simpa using (List.mem_filter.1 h).2

theorem Report.filter_ofRank (r : Report) (m n : Nat) :
    (r.ofRank m).filter (·.rank = n) = if m = n then r.ofRank n else [] := by
  split
  · rename_i heq
    subst heq
    exact List.filter_eq_self.2 fun i hi => by simpa using rank_of_mem_ofRank hi
  · rename_i hne
    exact List.filter_eq_nil_iff.2 fun i hi => by simpa [rank_of_mem_ofRank hi] using hne

theorem Report.filter_arranged (r : Report) (n : Nat) : r.arranged.filter (·.rank = n) = r.ofRank n := by
  simp only [arranged, List.filter_append, filter_ofRank]
  rcases Nat.lt_or_ge 2 n with hlt | hle
  · have hnone : r.ofRank n = [] := by
      refine List.filter_eq_nil_iff.2 fun i _ => ?_
      have hrank := i.rank_le
      simp only [decide_eq_true_eq]
      omega
    simp [hnone]
  · obtain rfl | rfl | rfl : n = 0 ∨ n = 1 ∨ n = 2 := by omega
    · simp
    · simp
    · simp

theorem Report.arranges (r : Report) : Arranges r.issues r.arranged where
  all := by
    -- Every issue is counted among those of its own rank.
    refine List.perm_iff_count.2 fun i => ?_
    have hcount (l : List Issue) : (l.filter (·.rank = i.rank)).count i = l.count i :=
      List.count_filter (by simp)
    rw [← hcount, ← hcount r.issues, r.filter_arranged, Report.ofRank]
  ranked := by
    have hsame (n : Nat) : (r.ofRank n).Pairwise fun a b => a.rank ≤ b.rank := by
      have hany : (r.ofRank n).Pairwise fun _ _ => True := List.pairwise_of_forall fun _ _ => trivial
      exact hany.imp_of_mem fun ha hb _ =>
        Nat.le_of_eq ((rank_of_mem_ofRank ha).trans (rank_of_mem_ofRank hb).symm)
    refine List.pairwise_append.2 ⟨List.pairwise_append.2 ⟨hsame 0, hsame 1, ?_⟩, hsame 2, ?_⟩
    · intro a ha b hb
      rw [rank_of_mem_ofRank ha]
      exact Nat.zero_le _
    · intro a ha b hb
      rw [rank_of_mem_ofRank hb]
      exact a.rank_le
  stable := r.filter_arranged

theorem Report.mem_arranged {i : Issue} : i ∈ r.arranged ↔ i ∈ r.issues :=
  r.arranges.all.mem_iff

theorem Report.mem_lintIssues {l : LintIssue} : l ∈ r.lintIssues ↔ .lint l ∈ r.issues := by
  unfold lintIssues
  rw [List.mem_filterMap]
  constructor
  · rintro ⟨i, hi, hl⟩
    cases i with
    | lint issue =>
        cases hl
        exact hi
    | _ => cases hl
  · intro hl
    exact ⟨_, hl, rfl⟩

theorem Report.syntaxErrors_eq_nil_iff : r.syntaxErrors = [] ↔ ∀ i ∈ r.issues, i.rank ≠ 0 := by
  unfold syntaxErrors
  rw [List.filterMap_eq_nil_iff]
  refine forall₂_congr fun i _ => ?_
  cases i with
  | syntaxError issue => simp [Issue.rank]
  | misformat issue => simp [Issue.rank]
  | lint issue => simp [Issue.rank]

/-- The diagnostic that shows an issue. -/
def Diagnostic.ofIssue (source text : String) : Issue → Diagnostic
  | .syntaxError issue => ofSyntaxIssue source text issue
  | .misformat issue => ofFormatIssue source issue
  | .lint issue => ofLintIssue source issue

/-- Issues of one kind, by themselves or among all of that rank. -/
theorem Report.map_filterMap {α : Type} {kind? : Issue → Option α} {f : α → Diagnostic} {n : Nat}
    (picks : ∀ i : Issue, (kind? i).map f =
      if i.rank = n then some (Diagnostic.ofIssue source text i) else none) :
    (r.issues.filterMap kind?).map f = (r.ofRank n).map (Diagnostic.ofIssue source text) := by
  rw [List.map_filterMap, Report.ofRank, ← List.filterMap_eq_map, List.filterMap_filter]
  exact List.filterMap_congr fun i _ => by simp [picks i]

theorem Diagnostic.ofReport_of_clear (executed : r.executionFailure = none) (worked : r.failure = none) :
    ofReport source r text = r.arranged.map (ofIssue source text) := by
  have hsyntax : r.syntaxErrors.map (ofSyntaxIssue source text) =
      (r.ofRank 0).map (ofIssue source text) :=
    Report.map_filterMap fun i => by cases i <;> rfl
  have hformat : r.formatIssues.map (ofFormatIssue source) = (r.ofRank 1).map (ofIssue source text) :=
    Report.map_filterMap fun i => by cases i <;> rfl
  have hlint : r.lintIssues.map (ofLintIssue source) = (r.ofRank 2).map (ofIssue source text) :=
    Report.map_filterMap fun i => by cases i <;> rfl
  simp only [ofReport, executed, worked, Report.arranged, List.map_append, hsyntax, hformat, hlint]

/-- A failure of the execution comes before a failure of the tool, and either before all issues. -/
theorem Diagnostic.ofReport_of_failed
    (failed : r.executionFailure.isSome = true ∨ r.failure.isSome = true) :
    ∃ message, ofReport source r text = [failure source message text r.command] := by
  unfold ofReport
  cases hexecution : r.executionFailure with
  | some f => exact ⟨_, rfl⟩
  | none =>
      cases hfailure : r.failure with
      | some message => exact ⟨message, rfl⟩
      | none => simp [hexecution, hfailure] at failed

/-! ## Places -/

/-- The span lies within one of the lines that the text has. -/
structure Span.IsWithinLine (s : Span) (text : String) : Prop where
  single : s.stop.line = s.start.line
  forward : s.start.character ≤ s.stop.character
  line : ∃ line, (Text.editorLines text.toList)[s.start.line]? = some line ∧
    s.stop.character ≤ line.length

theorem Span.isWithinLine_ofLine (text : String) (line : Nat) :
    (Span.ofLine text line).IsWithinLine text := by
  have hlines := List.length_pos_iff.2 (Text.editorLines_ne_nil text.toList)
  have hindex : min line ((Text.editorLines text.toList).length - 1) <
      (Text.editorLines text.toList).length := by omega
  refine ⟨rfl, Nat.zero_le _, _, List.getElem?_eq_getElem hindex, ?_⟩
  have hkept := (List.dropWhile_suffix (· == '\r')
    (l := ((Text.editorLines text.toList)[min line
      ((Text.editorLines text.toList).length - 1)]).reverse)).length_le
  rw [List.length_reverse] at hkept
  simpa [Span.ofLine, Span.ofCoordinates, List.getD_eq_getElem?_getD,
    List.getElem?_eq_getElem hindex] using hkept

/-! ## What stops an automatic format -/

/-- The code is not one of those that stand for a failure. -/
def LintIssue.HasOwnCode (i : LintIssue) : Prop :=
  i.code ≠ Diagnostic.executionErrorCode ∧ i.code ≠ Diagnostic.syntaxErrorCode

namespace Diagnostic

theorem isBlocking_failure (source message text : String) (command : Option String) :
    (failure source message text command).isBlocking = true := rfl

/-- Only what keeps the tool from reading the document stops an automatic format. -/
theorem isBlocking_ofIssue {i : Issue} (own : ∀ l, i = .lint l → l.HasOwnCode) :
    (ofIssue source text i).isBlocking = true ↔ i.rank = 0 := by
  cases i with
  | syntaxError issue => exact iff_of_true rfl rfl
  | misformat issue => exact iff_of_false (Bool.eq_false_iff.1 rfl) Nat.one_ne_zero
  | lint issue =>
      obtain ⟨hexecution, hsyntax⟩ := own issue rfl
      refine iff_of_false ?_ (Nat.succ_ne_zero 1)
      simp [ofIssue, ofLintIssue, isBlocking, hexecution, hsyntax]

theorem isWithinLine_ofIssue {i : Issue} (own : ∀ l, i = .lint l → l.HasOwnCode)
    (blocks : (ofIssue source text i).isBlocking = true) :
    (ofIssue source text i).range.IsWithinLine text := by
  have hrank := (isBlocking_ofIssue own).1 blocks
  cases i with
  | syntaxError issue => exact Span.isWithinLine_ofLine text issue.line
  | misformat issue => cases hrank
  | lint issue => cases hrank

theorem own_of_mem (own : ∀ l ∈ r.lintIssues, l.HasOwnCode) {i : Issue} (h : i ∈ r.arranged) :
    ∀ l, i = .lint l → l.HasOwnCode := by
  rintro l rfl
  exact own l (Report.mem_lintIssues.2 (Report.mem_arranged.1 h))

/-- What becomes of a report on `text`: a failure is shown alone, and otherwise all issues are shown. -/
structure Shows (source : String) (r : Report) (text : String) (shown : List Diagnostic) : Prop where
  failed : r.executionFailure.isSome = true ∨ r.failure.isSome = true →
    ∃ message, shown = [failure source message text r.command]
  listed : r.executionFailure = none → r.failure = none →
    ∃ issues, Arranges r.issues issues ∧ shown = issues.map (ofIssue source text)
  blocks : (∃ d ∈ shown, d.isBlocking = true) ↔ r.isBlocking = true
  /-- What stops an automatic format can be seen in the document. -/
  placed : ∀ d ∈ shown, d.isBlocking = true → d.range.IsWithinLine text
  valid : ∀ d ∈ shown, Wire.diagnosticRecord d.toDatum = .valid d

/-- Issues stop an automatic format exactly when one of them kept the tool from reading the document. -/
theorem exists_isBlocking_arranged (executed : r.executionFailure = none) (worked : r.failure = none)
    (own : ∀ i ∈ r.lintIssues, i.HasOwnCode) :
    (∃ d ∈ r.arranged.map (ofIssue source text), d.isBlocking = true) ↔ r.isBlocking = true := by
  have hreport : r.isBlocking = true ↔ r.syntaxErrors ≠ [] := by
    simp [Report.isBlocking, executed, worked]
  rw [hreport, Ne, Report.syntaxErrors_eq_nil_iff]
  push Not
  constructor
  · rintro ⟨d, hd, blocks⟩
    obtain ⟨i, hi, rfl⟩ := List.mem_map.1 hd
    exact ⟨i, Report.mem_arranged.1 hi, (isBlocking_ofIssue (own_of_mem own hi)).1 blocks⟩
  · rintro ⟨i, hi, hrank⟩
    have harranged := Report.mem_arranged.2 hi
    exact ⟨_, List.mem_map_of_mem harranged, (isBlocking_ofIssue (own_of_mem own harranged)).2 hrank⟩

/-- The diagnostics of a report, provided that no finding has the code of a failure. -/
theorem ofReport_shows (own : ∀ i ∈ r.lintIssues, i.HasOwnCode) :
    Shows source r text (ofReport source r text) := by
  by_cases hfailed : r.executionFailure.isSome = true ∨ r.failure.isSome = true
  · obtain ⟨message, hshown⟩ : ∃ message, ofReport source r text =
        [failure source message text r.command] := ofReport_of_failed hfailed
    rw [hshown]
    refine ⟨fun _ => ⟨message, rfl⟩, fun executed worked => ?_, ?_, ?_, fun d _ => ?_⟩
    · simp [executed, worked] at hfailed
    · refine iff_of_true ⟨_, List.mem_singleton_self _, isBlocking_failure ..⟩ ?_
      rcases hfailed with h | h <;> simp [Report.isBlocking, h]
    · intro d hd _
      obtain rfl := List.mem_singleton.1 hd
      exact Span.isWithinLine_ofLine text 0
    · exact Wire.takes_diagnostic d
  · obtain ⟨hexecuted, hworked⟩ : r.executionFailure = none ∧ r.failure = none := by
      simpa using hfailed
    rw [ofReport_of_clear hexecuted hworked]
    refine ⟨fun h => absurd h hfailed, fun _ _ => ⟨_, r.arranges, rfl⟩,
      exists_isBlocking_arranged hexecuted hworked own, ?_, fun d _ => Wire.takes_diagnostic d⟩
    intro d hd blocks
    obtain ⟨i, hi, rfl⟩ := List.mem_map.1 hd
    exact isWithinLine_ofIssue (own_of_mem own hi) blocks

/-- The tool names a line that the document does not have, after a finding and an issue of format. -/
theorem ofReport_shows_late_line :
    (∀ i ∈ ([⟨0, 2, .style, "SC2034", "foo unused"⟩] : List LintIssue), i.HasOwnCode) ∧
    Shows "shellcheck"
      { issues := [.lint ⟨0, 2, .style, "SC2034", "foo unused"⟩, .misformat { message := "drift" },
          .syntaxError ⟨99, 5, "unexpected end"⟩] } "if x\r\n  y\r"
      [⟨Span.ofCoordinates 1 0 1 3, "Syntax error: unexpected end", .error, some "syntax-error",
          "shellcheck"⟩,
        ⟨Span.ofCoordinates 0 0 0 1, Message.formatIssue, .warning, some "format-issue", "shellcheck"⟩,
        ⟨Span.ofCoordinates 0 2 0 3, "SC2034: foo unused", .info, some "SC2034", "shellcheck"⟩] := by
  have hown : ∀ i ∈ ([⟨0, 2, .style, "SC2034", "foo unused"⟩] : List LintIssue), i.HasOwnCode := by
    intro i hi
    obtain rfl := List.mem_singleton.1 hi
    exact ⟨by decide, by decide⟩
  exact ⟨hown, ofReport_shows hown⟩

end Diagnostic

end Shellwright
