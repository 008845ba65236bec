import Shellwright.Command.Run
import Shellwright.Proofs.Command.Formatting
import Shellwright.Proofs.Files.Writing
import Shellwright.Proofs.Settings.Complaints
/-!
# What `format` writes

A script is written once its formatter has succeeded with a different text, in the mode that writes, and
when the settings and all scripts could be read. No other file is touched.
-/

namespace Shellwright.Command

variable {s s' : Session} {mode : FormatMode}

/-! ## Steps that write -/

/-- The step comes to its end, writes these texts to files, and leaves the bench alone. -/
def Alters (x : Work Unit) (writes : List (String × String)) : Prop :=
  ∀ s, ∃ s', x s = (.ok (), s') ∧ s'.files = s.files.writeAll writes ∧ s'.bench = s.bench

namespace Alters

theorem notify (tone : Console.Tone) (message : String) : Alters (notify tone message) [] := by
  intro s
  obtain ⟨hfiles, hbench⟩ := Spares.notify tone message s
  exact ⟨_, rfl, hfiles, hbench⟩

theorem printLine (line : String) : Alters (printLine line) [] :=
  fun _ => ⟨_, rfl, rfl, rfl⟩

theorem nothing : Alters (pure ()) [] :=
  fun s => ⟨s, rfl, rfl, rfl⟩

theorem bind {x : Work Unit} {y : Unit → Work Unit} {writes writes' : List (String × String)}
    (h : Alters x writes) (rest : Alters (y ()) writes') : Alters (x >>= y) (writes ++ writes') := by
  intro s
  obtain ⟨s₁, hx, hfiles, hbench⟩ := h s
  obtain ⟨s₂, hy, hfiles', hbench'⟩ := rest s₁
  refine ⟨s₂, (Work.bind_of_ok hx _).trans hy, ?_, hbench'.trans hbench⟩
  rw [hfiles', hfiles, Files.Tree.writeAll_append]

theorem forM {α : Type} {f : α → Work Unit} {w : α → Option (String × String)} {as : List α}
    (h : ∀ a ∈ as, Alters (f a) (w a).toList) : Alters (as.forM f) (as.filterMap w) := by
  induction as with
  | nil => exact nothing
  | cons a rest ih =>
      have hfirst := h a List.mem_cons_self
      have hrest := ih fun a' ha' => h a' (List.mem_cons_of_mem _ ha')
      have hwrites : (a :: rest).filterMap w = (w a).toList ++ rest.filterMap w := by
        rw [List.filterMap_cons]
        cases w a <;> rfl
      rw [hwrites]
      exact hfirst.bind hrest

end Alters

/-! ## One script -/

namespace Formatted

variable {f : Formatted} {new? : Option String}

theorem changes_of_offers (offers : f.verdict.Offers f.script.document.text new?) :
    f.changes = new?.isSome := by
  rw [changes, offers.edits]
  cases new? <;> rfl

/-- The edits of a verdict put the new text in place of the old one. -/
theorem text?_of_offers (offers : f.verdict.Offers f.script.document.text new?) :
    f.text? = some (new?.getD f.script.document.text) := by
  unfold text?
  cases new? with
  | none =>
      rw [offers.edits]
      rfl
  | some text =>
      have hfits : Overwrites f.script.document.text f.verdict.edits := by
        rw [offers.edits]
        exact .next rfl (.done _)
      rw [TextDocument.applyEdits_of_overwrites hfits]
      dsimp only [TextDocument.overwritten]
      rw [offers.edits]
      rfl

theorem text_of_offers (offers : f.verdict.Offers f.script.document.text new?) (s : Session) :
    f.text s = (.ok (new?.getD f.script.document.text), s) := by
  unfold text
  rw [text?_of_offers offers]
  rfl

/-- The text that the verdict brings. -/
def brings? (f : Formatted) : Option String :=
  f.verdict.edits.head?.map TextEdit.newText

/-- What is written for a script. -/
def write? (mode : FormatMode) (f : Formatted) : Option (String × String) :=
  if mode = .write then f.brings?.map (f.script.path, ·) else none

theorem brings?_of_offers (offers : f.verdict.Offers f.script.document.text new?) : f.brings? = new? := by
  rw [brings?, offers.edits]
  cases new? <;> rfl

theorem reportRefusal_alters (f : Formatted) : Alters f.reportRefusal [] := by
  have hlines : Alters (f.verdict.diagnostics.forM fun d => printLine (d.line f.script.path)) [] := by
    have hforM := Alters.forM (w := fun _ => none) fun d (_ : d ∈ f.verdict.diagnostics) =>
      Alters.printLine (d.line f.script.path)
    rwa [List.filterMap_eq_nil_iff.2 fun _ _ => rfl] at hforM
  exact (Alters.notify _ _).bind hlines

theorem deliver_alters (offers : f.verdict.Offers f.script.document.text new?) (mode : FormatMode) :
    Alters (f.deliver mode) (f.write? mode).toList := by
  have hchanges := changes_of_offers offers
  have hbrings := brings?_of_offers offers
  intro s
  have htext := text_of_offers offers s
  cases mode with
  | print => exact ⟨_, Work.bind_of_ok htext _, rfl, rfl⟩
  | write =>
      cases new? with
      | none =>
          have hnone : f.write? .write = none := by simp [write?, hbrings]
          rw [hnone]
          unfold deliver
          dsimp only
          rw [hchanges, if_neg (by simp)]
          exact Alters.nothing s
      | some text =>
          have hsome : f.write? .write = some (f.script.path, text) := by simp [write?, hbrings]
          rw [hsome]
          unfold deliver
          dsimp only
          rw [hchanges, if_pos (by rfl), Work.bind_of_ok htext]
          obtain ⟨hfiles, hbench⟩ := Spares.notify .success s!"Formatted {f.script.path}"
            { s with files := s.files.writeText f.script.path text }
          exact ⟨_, rfl, hfiles, hbench⟩
  | check =>
      unfold deliver
      dsimp only
      split
      · exact Alters.printLine _ s
      · exact Alters.nothing s

/-- A verdict with a new text is neither one that is open nor one that refuses. -/
theorem report_alters (offers : f.verdict.Offers f.script.document.text new?) (mode : FormatMode) :
    Alters (f.report mode) (f.write? mode).toList := by
  have hnothing (hnone : new? = none) : f.write? mode = none := by
    rw [write?, brings?_of_offers offers, hnone]
    exact ite_self _
  have hunchanged (hedits : ¬f.changes = true) : new? = none := by
    rw [changes_of_offers offers] at hedits
    simpa using hedits
  unfold report
  split
  · rename_i hopen
    rw [hnothing (hunchanged fun hchanges => ?_)]
    · exact Alters.notify _ _
    · have hedits : f.verdict.edits ≠ [] := by simpa [changes] using hchanges
      rw [offers.conclusive hedits] at hopen
      cases hopen
  · split
    · rename_i hrefused
      rw [hnothing (hunchanged fun hchanges => by simp [isRefused, hchanges] at hrefused)]
      exact reportRefusal_alters f
    · exact deliver_alters offers mode

end Formatted

/-! ## All scripts -/

theorem tellFormatted_leaves {fs : List Formatted}
    (offers : ∀ f ∈ fs, ∃ new?, f.verdict.Offers f.script.document.text new?) (timed : Bool)
    (mode : FormatMode) (s : Session) :
    (tellFormatted timed mode fs s).2.files = s.files.writeAll (fs.filterMap (Formatted.write? mode)) ∧
      (tellFormatted timed mode fs s).2.bench = s.bench := by
  have hreports : Alters (fs.forM (Formatted.report mode)) (fs.filterMap (Formatted.write? mode)) :=
    Alters.forM fun f hf => by
      obtain ⟨new?, hoffers⟩ := offers f hf
      exact f.report_alters hoffers mode
  have hrest : Spares (do
      if mode == .check && formatStatus mode fs == 0 then
        notify .success s!"{fs.length} file(s) already formatted"
      if timed then printTimings
      return formatStatus mode fs : Work Nat) := by
    have htimings : Spares (do
        if timed then printTimings
        return formatStatus mode fs : Work Nat) := by
      split
      · exact Spares.printTimings.bind fun _ => Spares.pure _
      · exact Spares.pure _
    dsimp only
    split
    · exact (Spares.notify _ _).bind fun _ => htimings
    · exact htimings
  obtain ⟨s₁, hreported, hfiles, hbench⟩ := hreports s
  unfold tellFormatted
  rw [Work.bind_of_ok hreported]
  obtain ⟨hfiles', hbench'⟩ := hrest s₁
  exact ⟨hfiles'.trans hfiles, hbench'.trans hbench⟩

/-- Files and bench are as they were, but for the log. -/
structure Logs {α : Type} (s : Session) (r : Except Stop α × Session) : Prop where
  files : r.2.files = s.files
  bench : ∃ log, r.2.bench = { s.bench with log := log }

theorem loadSettings_logs (named : Option String) (s : Session) : Logs s (loadSettings named s) := by
  unfold loadSettings
  refine Work.bind_cases (fun e _ hget => by cases hget) fun session _ hget => ?_
  cases hget
  dsimp only
  cases Settings.sourcesOf s.files "." named with
  | error e => exact ⟨rfl, _, rfl⟩
  | ok sources =>
      refine Work.bind_cases (fun e _ hrecord => by cases hrecord) fun _ s₁ hrecord => ?_
      cases hrecord
      dsimp only
      cases Settings.ofSources s.files sources with
      | ok settings => exact ⟨rfl, _, rfl⟩
      | error e => exact ⟨rfl, _, rfl⟩

/-- The settings that a request works with. -/
def Request.settings (r : Request) (tree : Files.Tree) : Except Settings.ProjectError Settings :=
  Settings.sourcesOf tree "." r.settingsFile >>= Settings.ofSources tree

/-- What `format` may leave of files and bench. -/
inductive Request.Leaves (r : Request) (paths : List String) (mode : FormatMode) (tree : Files.Tree) :
    Except Stop Nat × Session → Prop
  /-- A call has not ended. -/
  | aborted {s : Session} (files : s.files = tree) : Leaves r paths mode tree (.error (.crashed .aborted), s)
  /-- No formatter was asked. -/
  | refused {result : Except Stop Nat × Session} (files : result.2.files = tree)
      (unasked : ∀ document, result.2.bench.formatRun? document = none) : Leaves r paths mode tree result
  | told {result : Except Stop Nat × Session} {fs : List Formatted} {settings : Settings}
      (configured : r.settings tree = .ok settings)
      (readable : ∀ path ∈ paths, ∃ d, Files.loadDocument tree (Path.ofString path).text none = .ok d)
      (scripts : fs.map Formatted.script = scriptsAt tree paths)
      (brings : ∀ (j : Nat) f, fs[j]? = some f → f.brings? = rewriting result.2.bench j f.script)
      (files : result.2.files = tree.writeAll (fs.filterMap (Formatted.write? mode))) :
      Leaves r paths mode tree result

theorem Request.work_leaves {r : Request} {paths : List String} (action : r.action = .format paths mode)
    (idle : s.bench.IsIdle) {loader : FactoryLoader} (modest : loader.IsModest) :
    r.Leaves paths mode s.files (r.work loader s) := by
  obtain ⟨hfiles, log, hbench⟩ := loadSettings_logs r.settingsFile s
  have hresult := loadSettings_eq r.settingsFile s
  unfold work
  refine Work.bind_cases (fun e s₁ hload => ?_) fun settings s₁ hload => ?_
  · rw [hload] at hfiles hbench
    refine .refused hfiles fun document => formatRun?_eq_none ?_ document
    rw [hbench]
    exact idle.activities
  rw [hload] at hfiles hbench hresult
  have hconfigured : r.settings s.files = .ok settings := by
    unfold Request.settings
    cases hsettings : Settings.sourcesOf s.files "." r.settingsFile >>= Settings.ofSources s.files with
    | error e =>
        rw [hsettings] at hresult
        cases hresult
    | ok settings' =>
        rw [hsettings] at hresult
        cases hresult
        rfl
  have idle₁ : s₁.bench.IsIdle := hbench ▸ ⟨idle.messages, idle.activities, idle.finished⟩
  have htries := formatAll_tries idle₁ modest settings r.timings paths
  have hcontinues := format_continues settings loader r.timings mode paths s₁
  rw [action]
  dsimp only
  generalize formatAll settings loader r.timings paths s₁ = attempt at htries hcontinues
  generalize format settings loader r.timings mode paths s₁ = result at hcontinues
  obtain ⟨hsame, hattempt⟩ := htries
  cases hcontinues with
  | stopped e s₂ =>
      have hunwritten : s₂.files = s.files := hsame.trans hfiles
      cases hattempt with
      | aborted => exact .aborted hunwritten
      | refused _ unasked => exact .refused hunwritten unasked
  | idle s₂ =>
      cases hattempt with
      | judged scripts readable offers =>
          rw [hfiles] at scripts readable
          exact .told hconfigured readable scripts (fun j f hf => by cases hf) (hsame.trans hfiles)
  | told fs s₂ =>
      cases hattempt with
      | judged scripts readable offers =>
          rw [hfiles] at scripts readable
          obtain ⟨hwritten, hkept⟩ := tellFormatted_leaves (fun f hf => by
            obtain ⟨j, hj⟩ := List.mem_iff_getElem?.1 hf
            exact ⟨_, offers j f hj⟩) r.timings mode s₂
          refine .told hconfigured readable scripts (fun j f hf => ?_) ?_
          · rw [hkept]
            exact Formatted.brings?_of_offers (offers j f hf)
          · have hunwritten : s₂.files = s.files := hsame.trans hfiles
            rw [hwritten, hunwritten]

/-! ## The files afterwards -/

theorem map_filterMap_sublist {α β γ : Type} {f : α → Option β} {g : β → γ} {h : α → γ}
    (same : ∀ a b, f a = some b → g b = h a) (as : List α) : ((as.filterMap f).map g).Sublist (as.map h) := by
  induction as with
  | nil => exact .slnil
  | cons a rest ih =>
      cases hf : f a with
      | none =>
          rw [List.filterMap_cons_none hf]
          exact ih.cons _
      | some b =>
          rw [List.filterMap_cons_some hf, List.map_cons, List.map_cons, same a b hf]
          exact ih.cons_cons _

theorem Formatted.write?_eq_some {f : Formatted} {w : String × String} (h : f.write? mode = some w) :
    mode = .write ∧ w.1 = f.script.path ∧ f.brings? = some w.2 := by
  unfold write? at h
  split at h
  · rename_i hmode
    obtain ⟨text, htext, rfl⟩ := Option.map_eq_some_iff.1 h
    exact ⟨hmode, rfl, htext⟩
  · cases h

namespace Request

/-- A run of the formatter has succeeded with a different text for the file at the location, and the request
is one to write it: the settings and all files could be read. -/
structure Rewrites (r : Request) (paths : List String) (mode : FormatMode) (tree : Files.Tree) (b : Bench)
    (location : List String) (e : Execution) : Prop where
  writes : mode = .write
  configured : ∃ settings, r.settings tree = .ok settings
  readable : ∀ path ∈ paths, ∃ d, Files.loadDocument tree (Path.ofString path).text none = .ok d
  run : ∃ (j : Nat) (x : Script), (scriptsAt tree paths)[j]? = some x ∧ tree.place? x.path = some location ∧
    b.formatRun? (toString j) = some e ∧ e.ending = .exited 0 ∧ e.stdout ≠ x.document.text

/-- The files for which the formatter has succeeded hold its output, and all others are as they were. -/
structure TouchesOnly (r : Request) (paths : List String) (mode : FormatMode) (tree : Files.Tree)
    (s : Session) : Prop where
  rewritten : ∀ location e, r.Rewrites paths mode tree s.bench location e →
    s.files.content? location = some (Text.Utf8.encode e.stdout)
  kept : ∀ location, (∀ e, ¬r.Rewrites paths mode tree s.bench location e) →
    s.files.entryAt? location = tree.entryAt? location

variable {r : Request} {paths : List String} {tree : Files.Tree} {location : List String} {e : Execution}

theorem rewrites_unasked {b : Bench} (unasked : ∀ document, b.formatRun? document = none) :
    ¬r.Rewrites paths mode tree b location e := by
  rintro ⟨_, _, _, j, x, _, _, hrun, _⟩
  rw [unasked] at hrun
  cases hrun

variable (apart : tree.LeadsApart (paths.map fun path => (Path.ofString path).text))
include apart

theorem nodup_places : ((scriptsAt tree paths).map fun x => tree.place? x.path).Nodup := by
  refine apart.distinct.sublist ?_
  rw [List.map_map]
  exact map_filterMap_sublist (fun path x hx => by rw [(scriptAt_eq hx).1]; rfl) paths

/-- Scripts at different places in the list are in different files. -/
theorem place_inj {j k : Nat} {x y : Script} (hx : (scriptsAt tree paths)[j]? = some x)
    (hy : (scriptsAt tree paths)[k]? = some y) (same : tree.place? x.path = tree.place? y.path) : j = k := by
  obtain ⟨hj, rfl⟩ := List.getElem?_eq_some_iff.1 hx
  obtain ⟨hk, rfl⟩ := List.getElem?_eq_some_iff.1 hy
  have hj' : j < ((scriptsAt tree paths).map fun x => tree.place? x.path).length := by rwa [List.length_map]
  have hk' : k < ((scriptsAt tree paths).map fun x => tree.place? x.path).length := by rwa [List.length_map]
  have hplaces : ((scriptsAt tree paths).map fun x => tree.place? x.path)[j] =
      ((scriptsAt tree paths).map fun x => tree.place? x.path)[k] := by rwa [List.getElem_map, List.getElem_map]
  exact (nodup_places apart).getElem_inj_iff.1 hplaces

/-- What is written is what the formatter's runs have brought. -/
theorem touches_of_writes {s : Session} {fs : List Formatted} {settings : Settings}
    (configured : r.settings tree = .ok settings)
    (readable : ∀ path ∈ paths, ∃ d, Files.loadDocument tree (Path.ofString path).text none = .ok d)
    (scripts : fs.map Formatted.script = scriptsAt tree paths)
    (brings : ∀ (j : Nat) f, fs[j]? = some f → f.brings? = rewriting s.bench j f.script)
    (files : s.files = tree.writeAll (fs.filterMap (Formatted.write? mode))) (location : List String) :
    ((∀ e, ¬r.Rewrites paths mode tree s.bench location e) →
        s.files.entryAt? location = tree.entryAt? location) ∧
      ∀ e, r.Rewrites paths mode tree s.bench location e →
        (e.IsLegible → s.files.content? location = some (Text.Utf8.encode e.stdout)) ∧
          (¬e.IsLegible → s.files.entryAt? location = tree.entryAt? location) := by
  have hscript (j : Nat) (f : Formatted) (hf : fs[j]? = some f) : (scriptsAt tree paths)[j]? = some f.script := by
    rw [← scripts, List.getElem?_map, hf]
    rfl
  have hfrom (w : String × String) (hw : w ∈ fs.filterMap (Formatted.write? mode)) :
      mode = .write ∧ ∃ (j : Nat) (f : Formatted), fs[j]? = some f ∧ w.1 = f.script.path ∧
        rewriting s.bench j f.script = some w.2 := by
    obtain ⟨f, hf, hwrite⟩ := List.mem_filterMap.1 hw
    obtain ⟨j, hj⟩ := List.mem_iff_getElem?.1 hf
    obtain ⟨hmode, hpath, hbrings⟩ := Formatted.write?_eq_some hwrite
    exact ⟨hmode, j, f, hj, hpath, by rw [← brings j f hj, hbrings]⟩
  constructor
  · intro hnone
    rw [files]
    refine Files.Tree.entryAt?_writeAll fun w hw hplace => ?_
    obtain ⟨hmode, j, f, hf, hpath, hnew⟩ := hfrom w hw
    obtain ⟨e, hrun, hrewrites⟩ := Option.bind_eq_some_iff.1 hnew
    obtain ⟨hended, _, hdiffers, _⟩ := Execution.rewrites?_eq_some.1 hrewrites
    exact hnone e ⟨hmode, ⟨settings, configured⟩, readable, j, f.script, hscript j f hf, hpath ▸ hplace, hrun,
      hended, hdiffers⟩
  · rintro e ⟨hmode, _, _, j, x, hx, hplace, hrun, hended, hdiffers⟩
    rw [files]
    constructor
    · intro hlegible
      obtain ⟨f, hf, rfl⟩ : ∃ f, fs[j]? = some f ∧ f.script = x := by
        rw [← scripts, List.getElem?_map] at hx
        exact Option.map_eq_some_iff.1 hx
      have hbrings : f.brings? = some e.stdout := by
        rw [brings j f hf, rewriting, hrun]
        exact Execution.rewrites?_eq_some.2 ⟨hended, hlegible, hdiffers, rfl⟩
      have hwrite : f.write? mode = some (f.script.path, e.stdout) := by
        rw [Formatted.write?, if_pos hmode, hbrings]
        rfl
      have hdistinct : ((fs.filterMap (Formatted.write? mode)).map fun w => tree.place? w.1).Nodup := by
        refine (nodup_places apart).sublist ?_
        rw [← scripts, List.map_map]
        exact map_filterMap_sublist (fun f w hw => congrArg tree.place? (Formatted.write?_eq_some hw).2.1) fs
      exact Files.Tree.content?_writeAll hdistinct (List.mem_filterMap.2 ⟨f, List.mem_of_getElem? hf, hwrite⟩)
        hplace
    · intro hillegible
      refine Files.Tree.entryAt?_writeAll fun w hw hplace' => ?_
      obtain ⟨_, k, f, hf, hpath, hnew⟩ := hfrom w hw
      rw [hpath] at hplace'
      obtain rfl := place_inj apart hx (hscript k f hf) (hplace.trans hplace'.symm)
      obtain ⟨e', hrun', hrewrites⟩ := Option.bind_eq_some_iff.1 hnew
      rw [hrun] at hrun'
      cases hrun'
      exact hillegible (Execution.rewrites?_eq_some.1 hrewrites).2.1

omit apart in
/-- How the command ends tells no more of files and bench than its work has left. -/
theorem run_session (r : Request) (tree : Files.Tree) (bench : Bench) (loader : FactoryLoader) :
    ∃ start : Session, start.files = tree ∧ start.bench = bench ∧
      (r.run tree bench loader).session.files = (r.work loader start).2.files ∧
      (r.run tree bench loader).session.bench = (r.work loader start).2.bench ∧
      ∀ s, r.work loader start = (.error (.crashed .aborted), s) → r.run tree bench loader = .crashed .aborted s := by
  let start : Session := { files := tree, bench := bench, signs := r.signs, verbose := r.verbose }
  refine ⟨start, rfl, rfl, ?_⟩
  cases hwork : r.work loader start with
  | mk result s =>
  have hrun : (r.work loader).run.run start = (result, s) := hwork
  cases result with
  | ok status =>
      have hended : r.run tree bench loader = .done status s := by rw [run, hrun]
      rw [hended]
      exact ⟨rfl, rfl, fun s' h => by cases h⟩
  | error stop =>
      cases stop with
      | refused status message =>
          have hended : r.run tree bench loader = .done status (s.notify .failure message) := by rw [run, hrun]
          obtain ⟨hfiles, hbench⟩ := Spares.notify .failure message s
          rw [hended]
          exact ⟨hfiles, hbench, fun s' h => by cases h⟩
      | crashed crash =>
          have hended : r.run tree bench loader = .crashed crash s := by rw [run, hrun]
          rw [hended]
          refine ⟨rfl, rfl, fun s' h => ?_⟩
          cases h
          rfl

end Request

/-! ## A script with a space too many -/

/-- A directory with one script. -/
def roomyFolder : Files.Tree :=
  ⟨[(["a.sh"], .file "a  b\n".toUTF8.toList false)], []⟩

/-- A formatter is there that takes out the space and complains of something. -/
def tightBench (complaint : List UInt8) : Bench where
  programs := [("shfmt", { rules := [
    { argument := some "--version", stdout := "v3\n".toUTF8.toList },
    { stdout := "a b\n".toUTF8.toList, stderr := complaint }] })]

def tighten : Request where
  action := .format ["a.sh"] .write

theorem tightBench_isIdle (complaint : List UInt8) : (tightBench complaint).IsIdle :=
  ⟨rfl, rfl, rfl⟩

theorem isModest_none : FactoryLoader.none.IsModest := by
  intro factories log h
  cases h
  simp

theorem roomyFolder_leadsApart : roomyFolder.LeadsApart (["a.sh"].map fun path => (Path.ofString path).text) where
  files := by decide +kernel
  distinct := by decide +kernel

/-- The one script is the first of all. -/
theorem script_of_roomyFolder {j : Nat} {x : Script} (h : (scriptsAt roomyFolder ["a.sh"])[j]? = some x) :
    j = 0 := by
  have hlength : (scriptsAt roomyFolder ["a.sh"]).length = 1 := by decide +kernel
  have hbound := (List.getElem?_eq_some_iff.1 h).1
  omega

end Shellwright.Command
