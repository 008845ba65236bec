import Shellwright.Command.Check
import Shellwright.Command.Format
import Shellwright.Proofs.Command.Work
import Shellwright.Proofs.Registry.Formatting
/-!
# What `check` and `format` report

The status of `check` and the lines on standard output depend only on the verdicts on the scripts. The
status of `format` depends only on what the formatters have made of the scripts, and to check their format
is to look for a verdict that says anything.
-/

namespace Shellwright.Command

variable {s s' : Session}

/-- Lines as they are written to a standard output that is no terminal. -/
def printed (lines : List String) : String :=
  String.join (lines.map fun line => Console.plain (line ++ "\n"))

theorem printed_append (ls ls' : List String) : printed (ls ++ ls') = printed ls ++ printed ls' := by
  unfold printed
  rw [List.map_append, String.join_append]

/-- The step comes to its end and writes `text` to standard output. -/
def Writes (x : Work Unit) (text : String) : Prop :=
  ∀ s : Session, ∃ s', x s = (.ok (), s') ∧ s'.stdout = s.stdout ++ text

theorem Writes.forM {α : Type} {f : α → Work Unit} {text : α → List String}
    (h : ∀ a, Writes (f a) (printed (text a))) (as : List α) :
    Writes (as.forM f) (printed (as.flatMap text)) := by
  intro s
  induction as generalizing s with
  | nil => exact ⟨s, rfl, String.append_empty.symm⟩
  | cons a rest ih =>
      obtain ⟨s₁, hfirst, hout⟩ := h a s
      obtain ⟨s₂, hrest, hout'⟩ := ih s₁
      refine ⟨s₂, (Work.bind_of_ok hfirst _).trans hrest, ?_⟩
      rw [hout', hout, List.flatMap_cons, printed_append, String.append_assoc]

theorem printLine_writes (line : String) : Writes (printLine line) (printed [line]) := by
  intro s
  have hprinted : printed [line] = Console.plain (line ++ "\n") := String.empty_append
  exact ⟨_, rfl, congrArg (s.stdout ++ ·) hprinted.symm⟩

/-- A check that did not complete is told on standard error. -/
theorem report_writes (c : Checked) : Writes c.report (printed c.lines) := by
  unfold Checked.report
  by_cases hopen : c.verdict.inconclusive = true
  · have hlines : c.lines = [] := if_pos hopen
    rw [if_pos hopen, hlines]
    exact fun s => ⟨_, rfl, String.append_empty.symm⟩
  · rw [if_neg hopen]
    have hlines := Writes.forM printLine_writes c.lines
    rwa [List.flatMap_singleton'] at hlines

/-- Whatever the step does, nothing that stands on standard output is taken back. -/
def Adds (x : Work Unit) : Prop :=
  ∀ s s' : Session, x s = (.ok (), s') → ∃ text, s'.stdout = s.stdout ++ text

theorem Writes.adds {x : Work Unit} {text : String} (h : Writes x text) : Adds x := by
  intro s s' hx
  obtain ⟨s₁, hwrites, hout⟩ := h s
  rw [hwrites] at hx
  cases hx
  exact ⟨text, hout⟩

theorem Adds.nothing : Adds (pure ()) := by
  intro s s' hx
  cases hx
  exact ⟨"", String.append_empty.symm⟩

theorem notify_adds (tone : Console.Tone) (message : String) : Adds (notify tone message) := by
  intro s s' hx
  cases hx
  unfold Session.notify
  dsimp only
  split
  · exact ⟨"", String.append_empty.symm⟩
  · exact ⟨_, rfl⟩

theorem summarize_adds (cs : List Checked) : Adds (summarize cs) := by
  unfold summarize
  dsimp only
  split
  · split
    · exact notify_adds _ _
    · exact Adds.nothing
  · exact (printLine_writes _).adds

theorem printTable_adds (t : Console.Table) : Adds (printTable t) := by
  intro s s' hx
  cases htext : t.text with
  | ok text =>
      rw [printTable, htext] at hx
      cases hx
      exact ⟨_, rfl⟩
  | error e =>
      rw [printTable, htext] at hx
      cases hx

theorem printTimings_adds : Adds printTimings := by
  intro s s' hx
  obtain ⟨session, s₁, hget, hx⟩ := Work.of_bind hx
  cases hget
  exact printTable_adds _ s s' hx

theorem Adds.optional {wanted : Prop} [Decidable wanted] {x : Work Unit} (h : Adds x) :
    Adds (if wanted then x else pure ()) := by
  split
  · exact h
  · exact Adds.nothing

/-- What is printed once the verdicts are there; the status is handed out. -/
def tellChecked (timed : Bool) (cs : List Checked) : Work Nat := do
  cs.forM Checked.report
  summarize cs
  if timed then printTimings
  return checkStatus cs

theorem tellChecked_eq {timed : Bool} {cs : List Checked} {status : Nat}
    (h : tellChecked timed cs s = (.ok status, s')) :
    status = checkStatus cs ∧
      ∃ after, s'.stdout = s.stdout ++ printed (cs.flatMap Checked.lines) ++ after := by
  obtain ⟨_, s₁, hreports, h⟩ := Work.of_bind h
  obtain ⟨_, s₂, hsummary, h⟩ := Work.of_bind h
  obtain ⟨s₃, htimings, h⟩ := Work.of_optional h
  cases h
  obtain ⟨s₁', hreports', hlines⟩ := Writes.forM report_writes cs s
  obtain ⟨summary, hsummary⟩ := summarize_adds cs s₁ s₂ hsummary
  obtain ⟨timings, htimings⟩ := printTimings_adds.optional s₂ s' htimings
  rw [hreports] at hreports'
  cases hreports'
  refine ⟨rfl, summary ++ timings, ?_⟩
  rw [htimings, hsummary, hlines, String.append_assoc]

/-- The verdicts on the shell scripts among files. -/
def checkAll (settings : Settings) (loader : FactoryLoader) (timed : Bool) (files : List String) :
    Work (List Checked) := do
  let scripts ← loadScripts files
  if scripts.isEmpty then
    notify .warning "No shell scripts to check"
    return []
  let _ ← openWorkspace settings loader timed (scripts.map Script.document)
  let replies ← callAll (scripts.mapIdx fun i _ => .openDocument (toString i))
  return verdictsOn scripts replies

/-- The status is that of the verdicts, and their lines are printed one after another. -/
theorem check_status {settings : Settings} {loader : FactoryLoader} {timed : Bool}
    {files : List String} {status : Nat}
    (h : check settings loader timed files s = (.ok status, s')) :
    ∃ cs s₁, checkAll settings loader timed files s = (.ok cs, s₁) ∧ status = checkStatus cs ∧
      ∃ before after,
        s'.stdout = s₁.stdout ++ before ++ printed (cs.flatMap Checked.lines) ++ after := by
  unfold check at h
  unfold checkAll
  obtain ⟨scripts, s₁, hscripts, h⟩ := Work.of_bind h
  refine Work.exists_bind hscripts ?_
  by_cases hempty : scripts.isEmpty = true
  · rw [if_pos hempty] at h ⊢
    obtain ⟨_, s₂, hnotify, h⟩ := Work.of_bind h
    cases h
    exact Work.exists_bind hnotify ⟨[], _, rfl, rfl, "", "", by simp [printed]⟩
  rw [if_neg hempty] at h ⊢
  obtain ⟨active, s₂, hopen, h⟩ := Work.of_bind h
  refine Work.exists_bind hopen ?_
  obtain ⟨replies, s₃, hreplies, h⟩ := Work.of_bind h
  refine Work.exists_bind hreplies ⟨_, s₃, rfl, ?_⟩
  obtain ⟨s₄, hwarning, htell⟩ :=
    Work.of_optional (y := tellChecked timed (verdictsOn scripts replies)) h
  obtain ⟨before, hbefore⟩ := (notify_adds _ _).optional s₃ s₄ hwarning
  obtain ⟨hstatus, after, hafter⟩ := tellChecked_eq htell
  exact ⟨hstatus, before, after, hbefore ▸ hafter⟩

/-! ## The status of a format -/

/-- What the formatters make of the shell scripts among files. -/
def formatAll (settings : Settings) (loader : FactoryLoader) (timed : Bool) (files : List String) :
    Work (List Formatted) := do
  if !settings.formatter.enabled then
    throw (.because "The shfmt formatter is disabled in the configuration")
  let scripts ← loadScripts files
  if scripts.isEmpty then
    notify .warning "No shell scripts to format"
    return []
  let _ ← openWorkspace settings loader timed (scripts.map Script.document)
  if !hasFormatter (← get).bench.workspace.registry then
    let _ ← call .shutdown
    throw (.because "No formatter is available; install shfmt or check its configured path")
  let replies ← callAll (scripts.mapIdx fun i _ => .format (toString i) none)
  return formattedBy scripts replies

/-- What is told once the verdicts are there; the status is handed out. -/
def tellFormatted (timed : Bool) (mode : FormatMode) (fs : List Formatted) : Work Nat := do
  fs.forM (Formatted.report mode)
  let status := formatStatus mode fs
  if mode == .check && status == 0 then
    notify .success s!"{fs.length} file(s) already formatted"
  if timed then printTimings
  return status

/-- How `format` goes on after the scripts have been formatted. -/
inductive Continues (timed : Bool) (mode : FormatMode) :
    Except Stop (List Formatted) × Session → Except Stop Nat × Session → Prop
  | stopped (e : Stop) (s : Session) : Continues timed mode (.error e, s) (.error e, s)
  /-- There are no scripts. -/
  | idle (s : Session) : Continues timed mode (.ok [], s) (.ok 0, s)
  | told (fs : List Formatted) (s : Session) : Continues timed mode (.ok fs, s) (tellFormatted timed mode fs s)

theorem format_continues (settings : Settings) (loader : FactoryLoader) (timed : Bool) (mode : FormatMode)
    (files : List String) (s : Session) :
    Continues timed mode (formatAll settings loader timed files s)
      (format settings loader timed mode files s) := by
  unfold formatAll format
  by_cases hdisabled : (!settings.formatter.enabled) = true
  · rw [if_pos hdisabled, if_pos hdisabled]
    refine Work.bind_cases₂ (fun e s₁ _ => .stopped e s₁) fun _ _ hthrow => by cases hthrow
  rw [if_neg hdisabled, if_neg hdisabled]
  refine Work.bind_cases₂ (fun e s₁ _ => .stopped e s₁) fun scripts s₁ _ => ?_
  by_cases hempty : scripts.isEmpty = true
  · rw [if_pos hempty, if_pos hempty]
    exact Work.bind_cases₂ (fun e s₂ _ => .stopped e s₂) fun _ s₂ _ => .idle s₂
  rw [if_neg hempty, if_neg hempty]
  refine Work.bind_cases₂ (fun e s₂ _ => .stopped e s₂) fun active s₂ _ => ?_
  refine Work.bind_cases₂ (fun e s₃ _ => .stopped e s₃) fun session s₃ _ => ?_
  dsimp only
  by_cases hnone : (!hasFormatter session.bench.workspace.registry) = true
  · rw [if_pos hnone, if_pos hnone]
    refine Work.bind_cases₂ (fun e s₄ _ => .stopped e s₄) fun _ s₄ _ => ?_
    exact Work.bind_cases₂ (fun e s₅ _ => .stopped e s₅) fun _ _ hthrow => by cases hthrow
  rw [if_neg hnone, if_neg hnone]
  refine Work.bind_cases₂ (fun e s₄ _ => .stopped e s₄) fun replies s₄ _ => ?_
  exact .told (formattedBy scripts replies) s₄

/-- The status is that of what the formatters make of the scripts. -/
theorem format_status {settings : Settings} {loader : FactoryLoader} {timed : Bool}
    {files : List String} {mode : FormatMode} {status : Nat}
    (h : format settings loader timed mode files s = (.ok status, s')) :
    ∃ fs s₁, formatAll settings loader timed files s = (.ok fs, s₁) ∧
      status = formatStatus mode fs := by
  have hcontinues := format_continues settings loader timed mode files s
  rw [h] at hcontinues
  generalize hall : formatAll settings loader timed files s = attempt at hcontinues
  generalize hresult : ((.ok status, s') : Except Stop Nat × Session) = result at hcontinues
  cases hcontinues with
  | stopped e s₁ => cases hresult
  | idle s₁ =>
      cases hresult
      exact ⟨[], _, rfl, rfl⟩
  | told fs s₁ =>
      refine ⟨fs, s₁, rfl, ?_⟩
      obtain ⟨_, s₂, _, htold⟩ := Work.of_bind hresult.symm
      dsimp only at htold
      split at htold
      · obtain ⟨_, _, _, htold⟩ := Work.of_bind htold
        exact Work.eq_of_optional htold
      · exact Work.eq_of_optional htold

theorem Formatted.fails_check (f : Formatted) : f.fails .check = false ↔ f.verdict.IsQuiet := by
  have hfails : f.fails .check = false ↔ f.verdict.inconclusive = false ∧ f.isRefused = false ∧
      f.changes = false := by
    simp [fails, and_assoc]
  have hchanges : f.changes = false ↔ f.verdict.edits = [] := by simp [changes]
  rw [hfails]
  constructor
  · rintro ⟨hconclusive, hrefused, hsame⟩
    refine ⟨hconclusive, hchanges.1 hsame, ?_⟩
    simpa [isRefused, hsame] using hrefused
  · rintro ⟨hconclusive, hedits, hdiagnostics⟩
    exact ⟨hconclusive, by simp [isRefused, hdiagnostics], hchanges.2 hedits⟩

/-- A check succeeds exactly when the formatters say nothing about any script. -/
theorem formatStatus_check {fs : List Formatted} :
    formatStatus .check fs = 0 ↔ ∀ f ∈ fs, f.verdict.IsQuiet := by
  have hstatus : formatStatus .check fs = 0 ↔ fs.any (Formatted.fails .check) = false := by
    unfold formatStatus
    split
    · rename_i hfails
      simp [hfails]
    · rename_i hfails
      simpa using hfails
  rw [hstatus, List.any_eq_false]
  refine forall_congr' fun f => forall_congr' fun _ => ?_
  rw [Bool.not_eq_true, Formatted.fails_check]

end Shellwright.Command
