import Shellwright.Command.Format
import Shellwright.Proofs.Bench.Turns
import Shellwright.Proofs.Command.Checking
import Shellwright.Proofs.Command.Reporting
/-!
# Formatting scripts on a bench

The scripts among files are formatted at the same time, each in one call. The verdict on a script has the
text that the formatter's run on it has brought, and no file is touched before all verdicts are there.
-/

namespace Shellwright.Command

open Bench (Host)
open Bench.Outlook (KeepsTo)

variable {s s' : Session} {host : Host} {c : Nat} {scripts : List Script} {tree : Files.Tree}

/-! ## Calls -/

theorem onBench_eq {α : Type} (f : Bench → Bench × α) (s : Session) :
    ∃ s', onBench f s = (.ok (f s.bench).2, s') ∧ s'.files = s.files ∧ s'.bench = (f s.bench).1 :=
  ⟨_, rfl, rfl, rfl⟩

theorem Spares.replyOf (f? : Option Bench.Finish) : Spares (replyOf f?) := by
  unfold Command.replyOf
  split
  · exact Spares.pure _
  · exact Spares.throw _
  · exact Spares.throw _

/-- The reply is that with which the call has ended, if it has. -/
theorem call_keepsTo (h : KeepsTo host c s.bench.outlook []) (request : Workspace.Request)
    (planned : ∀ a : Agenda, a.errand = host.plan → a.ExpectsWork (.call c request)) :
    ∃ f? s', call request s = replyOf f? s' ∧ s'.files = s.files ∧ KeepsTo host (c + 1) s'.bench.outlook [] ∧
      ∀ f, f? = some f → f ∈ s'.bench.finished ∧ f.call = c := by
  have hcounted : s.bench.calls = c := h.counted
  obtain ⟨s', hbench, hfiles, hsame⟩ := onBench_eq (·.await fun n => .call n request) s
  have hawait := h.await request planned
  rw [← hsame] at hawait
  refine ⟨_, s', Work.bind_of_ok hbench _, hfiles, hawait, fun f hf => ?_⟩
  rw [hsame, ← hcounted]
  exact Bench.finish?_eq_some hf

/-- Documents by their places. -/
def placed (documents : List TextDocument) : Buffers :=
  documents.mapIdx fun i d => (toString i, d)

theorem openWorkspace_keepsTo (host : Host) (idle : s.bench.IsIdle) {loader : FactoryLoader}
    (modest : loader.IsModest) {documents : List TextDocument} (known : host.known = [])
    (plan : host.plan s.bench.calls = some .start) (buffers : host.buffers = placed documents)
    (settings : Settings) (timed : Bool) :
    (openWorkspace settings loader timed documents s).2.files = s.files ∧
      KeepsTo host (s.bench.calls + 1) (openWorkspace settings loader timed documents s).2.bench.outlook [] := by
  have hopened := Bench.Outlook.keepsTo_opened idle modest settings known
  rw [buffers] at hopened
  unfold openWorkspace
  refine Work.bind_cases (P := fun r : Except Stop Nat × Session => r.2.files = s.files ∧
    KeepsTo host (s.bench.calls + 1) r.2.bench.outlook []) (fun e _ hput => by cases hput) fun _ s₁ hput => ?_
  cases hput
  obtain ⟨f?, s₂, hcall, hfiles, hkeeps, _⟩ := call_keepsTo
    (s := { s with bench := { s.bench with
      workspace := .create settings loader (placed documents), stopwatch := { enabled := timed } } })
    hopened .start fun a ha => .start (by rw [ha, plan])
  have hends {result : Except Stop Workspace.Reply} {s₃ : Session} (h : replyOf f? s₂ = (result, s₃)) :
      s₃.files = s.files ∧ KeepsTo host (s.bench.calls + 1) s₃.bench.outlook [] := by
    obtain ⟨hfiles', hbench⟩ := Spares.replyOf f? s₂
    rw [h] at hfiles' hbench
    exact ⟨hfiles'.trans hfiles, hbench ▸ hkeeps⟩
  refine Work.bind_cases (P := fun r : Except Stop Nat × Session => r.2.files = s.files ∧
    KeepsTo host (s.bench.calls + 1) r.2.bench.outlook []) (fun e s₃ hstop => ?_) fun reply s₃ hreply => ?_
  · exact hends (hcall.symm.trans hstop)
  · split
    · exact hends (hcall.symm.trans hreply)
    · exact hends (hcall.symm.trans hreply)

/-! ## The verdicts -/

theorem formatRun?_eq_none {b : Bench} (h : b.activities = []) (document : String) :
    b.formatRun? document = none := by
  rw [Bench.formatRun?, Bench.formatting?, h]
  rfl

/-- Nobody formats what the host has not asked for. -/
theorem formatRun?_unplanned (h : KeepsTo host c s.bench.outlook []) {document : String}
    (unplanned : ∀ n, host.plan n ≠ some (.format document)) : s.bench.formatRun? document = none := by
  have hnone : s.bench.formatting? document = none := by
    refine List.find?_eq_none.2 fun a ha hquestion => ?_
    obtain ⟨options, hquestion⟩ := Bench.eq_of_isFormatOf hquestion
    obtain ⟨n, _, hplan⟩ := (h.activities a ha).planned document options hquestion
    exact unplanned n hplan
  rw [Bench.formatRun?, hnone]
  rfl

/-- What the formatter's run on a script puts in place of its text. -/
def rewriting (b : Bench) (j : Nat) (x : Script) : Option String :=
  (b.formatRun? (toString j)).bind (·.rewrites? x.document.text)

/-- Replies to formats, unless one of them is not there. -/
theorem mapM_replyOf {fs : List (Option Bench.Finish)}
    (formatted : ∀ f, some f ∈ fs → ∃ v, f.outcome = .done (.review (.formatted v))) (s : Session) :
    fs.mapM replyOf s = (.error (.crashed .aborted), s) ∨
      ∃ vs : List FormatVerdict, fs.mapM replyOf s = (.ok (vs.map fun v => .review (.formatted v)), s) ∧
        List.Forall₂ (fun f? v => ∃ f, f? = some f ∧ f.outcome = .done (.review (.formatted v))) fs vs := by
  induction fs with
  | nil => exact .inr ⟨[], rfl, .nil⟩
  | cons f? rest ih =>
      rw [List.mapM_cons]
      cases f? with
      | none => exact .inl (Work.bind_of_error rfl _)
      | some f =>
          obtain ⟨v, hv⟩ := formatted f List.mem_cons_self
          have hreply : replyOf (some f) s = (.ok (.review (.formatted v)), s) := by
            obtain ⟨call, outcome, buffers⟩ := f
            cases hv
            rfl
          rw [Work.bind_of_ok hreply]
          rcases ih fun f hf => formatted f (List.mem_cons_of_mem _ hf) with hstop | ⟨vs, hrest, hvs⟩
          · exact .inl (Work.bind_of_error hstop _)
          · refine .inr ⟨v :: vs, ?_, .cons ⟨f, rfl, hv⟩ hvs⟩
            rw [Work.bind_of_ok hrest]
            rfl

theorem formattedBy_eq (scripts : List Script) (vs : List FormatVerdict) :
    formattedBy scripts (vs.map fun v => .review (.formatted v)) =
      (scripts.zip vs).map fun e => ⟨e.1, e.2⟩ := by
  induction scripts generalizing vs with
  | nil => cases vs <;> rfl
  | cons x rest ih =>
      cases vs with
      | nil => rfl
      | cons v vs => exact congrArg (Formatted.mk x v :: ·) (ih vs)

/-- The host has every script formatted, and then shuts the workspace down. -/
structure Plans (host : Host) (c : Nat) (scripts : List Script) : Prop where
  buffers : host.buffers = placed (scripts.map Script.document)
  format : ∀ j < scripts.length, host.plan (c + j) = some (.format (toString j))
  shutdown : host.plan (c + scripts.length) = some .shutdown
  single : ∀ n j, host.plan n = some (.format (toString j)) → n = c + j

/-- The verdicts on scripts, each with the text that the formatter's run has brought. -/
structure Judges (b : Bench) (scripts : List Script) (vs : List FormatVerdict) : Prop where
  length : vs.length = scripts.length
  offers : ∀ (j : Nat) x v, scripts[j]? = some x → vs[j]? = some v →
    v.Offers x.document.text (rewriting b j x)

theorem callAll_formats (h : KeepsTo host c s.bench.outlook []) (plans : Plans host c scripts) :
    ∃ s', s'.files = s.files ∧
      (callAll (scripts.mapIdx fun i _ => .format (toString i) none) s = (.error (.crashed .aborted), s') ∨
        ∃ vs : List FormatVerdict, callAll (scripts.mapIdx fun i _ => .format (toString i) none) s =
          (.ok (vs.map fun v => .review (.formatted v)), s') ∧ Judges s'.bench scripts vs) := by
  generalize hrequests : (scripts.mapIdx fun i _ => Workspace.Request.format (toString i) none) = requests
  have hlength : requests.length = scripts.length := by rw [← hrequests, List.length_mapIdx]
  obtain ⟨b₁, hawait, h₁⟩ := h.awaitAll requests fun j request hj a ha => by
    rw [← hrequests, List.getElem?_mapIdx] at hj
    obtain ⟨x, hx, rfl⟩ := Option.map_eq_some_iff.1 hj
    exact .format (by rw [ha, plans.format j (List.getElem?_eq_some_iff.1 hx).1]) none
  generalize hfinished : (List.range requests.length).map (fun j => b₁.finish? (c + j)) = finished at hawait
  have hmem : ∀ f, some f ∈ finished → ∃ j < scripts.length, f ∈ b₁.finished ∧ f.call = c + j := by
    intro f hf
    rw [← hfinished] at hf
    obtain ⟨j, hj, hfound⟩ := List.mem_map.1 hf
    exact ⟨j, hlength ▸ List.mem_range.1 hj, Bench.finish?_eq_some hfound⟩
  obtain ⟨s₁, hbench, hfiles₁, hsame⟩ :=
    onBench_eq (·.awaitAll (requests.map fun r n => .call n r)) s
  rw [hawait] at hbench hsame
  have hsame : s₁.bench = b₁ := hsame
  rw [← hsame] at h₁
  have h₂ := h₁.receive (finished.filterMap id) fun f hf => by
    obtain ⟨f?, hf?, hsome⟩ := List.mem_filterMap.1 hf
    obtain ⟨_, _, hfinished, _⟩ := hmem f ((show f? = some f from hsome) ▸ hf?)
    exact hsame ▸ hfinished
  obtain ⟨f?, s₂, hcall, hfiles₂, h₃, hended⟩ := call_keepsTo h₂ .shutdown fun a ha =>
    .shutdown (by rw [ha, hlength]; exact plans.shutdown)
  have hstart : callAll requests s = (call .shutdown >>= fun _ => finished.mapM replyOf) s₁ :=
    Work.bind_of_ok hbench _
  refine ⟨s₂, hfiles₂.trans hfiles₁, ?_⟩
  cases f? with
  | none => exact .inl (hstart.trans (Work.bind_of_error hcall _))
  | some f =>
      -- A shutdown that has ended has come to its end.
      obtain ⟨hf, hnumber⟩ := hended f rfl
      obtain ⟨reply, houtcome⟩ := h₃.replied f hf fun hplan => by
        rw [hnumber, hlength, plans.shutdown] at hplan
        cases hplan
      have hshut : call .shutdown s₁ = (.ok reply, s₂) := by
        rw [hcall]
        obtain ⟨number, outcome, buffers⟩ := f
        cases houtcome
        rfl
      rw [hstart, Work.bind_of_ok hshut]
      have hformatted : ∀ f, some f ∈ finished → ∃ v, f.outcome = .done (.review (.formatted v)) := by
        intro f hf
        obtain ⟨j, hj, hmem, hcall⟩ := hmem f hf
        obtain ⟨v, houtcome, _⟩ := h₂.formatted f (hsame ▸ hmem) _ (hcall ▸ plans.format j hj)
        exact ⟨v, houtcome⟩
      rcases mapM_replyOf hformatted s₂ with hstop | ⟨vs, hreplies, hvs⟩
      · exact .inl hstop
      · refine .inr ⟨vs, hreplies, ?_, fun j x v hx hv => ?_⟩
        · rw [← hvs.length_eq, ← hfinished, List.length_map, List.length_range, hlength]
        have hj : j < scripts.length := (List.getElem?_eq_some_iff.1 hx).1
        have hplan : host.plan (c + j) = some (.format (toString j)) := plans.format j hj
        have hplace : finished[j]? = some (b₁.finish? (c + j)) := by
          rw [← hfinished, List.getElem?_map, List.getElem?_range (hlength ▸ hj)]
          rfl
        obtain ⟨hbound, hplaced⟩ := List.getElem?_eq_some_iff.1 hplace
        obtain ⟨hbound', hverdict⟩ := List.getElem?_eq_some_iff.1 hv
        obtain ⟨f, hf, houtcome⟩ := hvs.get hbound hbound'
        rw [List.get_eq_getElem, hplaced] at hf
        rw [List.get_eq_getElem, hverdict] at houtcome
        obtain ⟨hmem, hnumber⟩ := Bench.finish?_eq_some hf
        have hknown : f ∈ finished.filterMap id :=
          List.mem_filterMap.2 ⟨some f, hf ▸ List.mem_of_getElem? hplace, rfl⟩
        -- What the formatters have done since the formats were there does not matter.
        obtain ⟨v', houtcome', hsettles⟩ := h₃.formatted f (h₃.known f hknown) _ (hnumber ▸ hplan)
        cases houtcome.symm.trans houtcome'
        have hoffers := h₃.offers hplan (fun m => plans.single m j) (hnumber ▸ hsettles)
        have hdocument : host.buffers.find (toString j) = x.document := by
          rw [plans.buffers]
          refine Workshop.find_place _ ?_
          rw [List.getElem?_map, hx]
          rfl
        dsimp only at hoffers
        rwa [hdocument] at hoffers

/-! ## Reading scripts -/

theorem Spares.loadScripts (paths : List String) : Spares (loadScripts paths) := by
  induction paths with
  | nil => exact Spares.pure _
  | cons path rest ih =>
      unfold Command.loadScripts
      refine Spares.get.bind fun session => ?_
      split
      · exact Spares.throw _
      · exact Spares.throw _
      · split
        · exact ih.bind fun _ => Spares.pure _
        · exact (Spares.notify _ _).bind fun _ => ih

/-- Scripts that have been loaded are all that there are, and every file has been read. -/
theorem scripts_of_load {paths : List String} (h : loadScripts paths s = (.ok scripts, s')) :
    scripts = scriptsAt s.files paths ∧
      ∀ path ∈ paths, ∃ d, Files.loadDocument s.files (Path.ofString path).text none = .ok d := by
  induction paths generalizing s scripts with
  | nil =>
      cases h
      exact ⟨rfl, by simp⟩
  | cons path rest ih =>
      unfold loadScripts at h
      obtain ⟨session, s₁, hget, h⟩ := Work.of_bind h
      cases hget
      cases hload : Files.loadDocument s.files (Path.ofString path).text none with
      | error e =>
          simp only [hload] at h
          cases e <;> cases h
      | ok d =>
          simp only [hload] at h
          by_cases hshell : d.isShell = true
          · rw [if_pos hshell] at h
            obtain ⟨others, s₂, hrest, h⟩ := Work.of_bind h
            cases h
            obtain ⟨hothers, hreadable⟩ := ih hrest
            refine ⟨?_, List.forall_mem_cons.2 ⟨⟨d, hload⟩, hreadable⟩⟩
            have hscript : scriptAt s.files path = some ⟨(Path.ofString path).text, d⟩ := by
              simp [scriptAt, hload, hshell]
            rw [scriptsAt, List.filterMap_cons_some hscript, hothers]
            rfl
          · rw [if_neg hshell] at h
            obtain ⟨_, s₂, hnotify, h⟩ := Work.of_bind h
            have hfiles : s₂.files = s.files := by
              have hspares := (Spares.notify .warning s!"Skipping {(Path.ofString path).text}: not a shell script" s).1
              rw [hnotify] at hspares
              exact hspares
            obtain ⟨hothers, hreadable⟩ := ih h
            rw [hfiles] at hothers hreadable
            refine ⟨?_, List.forall_mem_cons.2 ⟨⟨d, hload⟩, hreadable⟩⟩
            have hscript : scriptAt s.files path = none := by
              simp [scriptAt, hload, hshell]
            rw [scriptsAt, List.filterMap_cons_none hscript, hothers]
            rfl

/-! ## From the files to the verdicts -/

/-- What may come of formatting the scripts among files, with the bench that is left. -/
inductive Attempt (tree : Files.Tree) (paths : List String) (b : Bench) : Except Stop (List Formatted) → Prop
  /-- A call has not ended. -/
  | aborted : Attempt tree paths b (.error (.crashed .aborted))
  /-- No formatter was asked. -/
  | refused (stop : Stop) (unasked : ∀ document, b.formatRun? document = none) :
      Attempt tree paths b (.error stop)
  | judged {fs : List Formatted} (scripts : fs.map Formatted.script = scriptsAt tree paths)
      (readable : ∀ path ∈ paths, ∃ d, Files.loadDocument tree (Path.ofString path).text none = .ok d)
      (offers : ∀ (j : Nat) f, fs[j]? = some f →
        f.verdict.Offers f.script.document.text (rewriting b j f.script)) :
      Attempt tree paths b (.ok fs)

/-- A host that starts the workspace and shuts it down. -/
def visit (c : Nat) (documents : List TextDocument) : Host where
  plan n := if n = c then some .start else if n = c + 1 then some .shutdown else none
  buffers := placed documents
  known := []

/-- A host that has scripts formatted in between. -/
def formatter (c : Nat) (scripts : List Script) : Host where
  plan n :=
    if n = c then some .start
    else if c < n ∧ n ≤ c + scripts.length then some (.format (toString (n - (c + 1))))
    else if n = c + 1 + scripts.length then some .shutdown
    else none
  buffers := placed (scripts.map Script.document)
  known := []

theorem formatter_plans (c : Nat) (scripts : List Script) :
    Plans (formatter c scripts) (c + 1) scripts where
  buffers := rfl
  format j hj := by
    have hplace : c + 1 + j - (c + 1) = j := by omega
    simp only [formatter]
    rw [if_neg (by omega), if_pos (by omega), hplace]
  shutdown := by
    simp only [formatter]
    rw [if_neg (by omega), if_neg (by omega), if_pos trivial]
  single n j h := by
    simp only [formatter] at h
    split at h
    · cases h
    · split at h
      · have hplace := Workshop.toString_inj (Errand.format.inj (Option.some.inj h))
        omega
      · split at h <;> cases h

theorem visit_unplanned (c : Nat) (documents : List TextDocument) (n : Nat) (document : String) :
    (visit c documents).plan n ≠ some (.format document) := by
  simp only [visit]
  split
  · simp
  · split <;> simp

/-- Formatting the scripts among files ends so, and the files are as they were. -/
structure Tries (s : Session) (paths : List String) (r : Except Stop (List Formatted) × Session) : Prop where
  files : r.2.files = s.files
  attempt : Attempt s.files paths r.2.bench r.1

/-- Every verdict is that of the one run of the formatter on the script. -/
theorem formatAll_tries (idle : s.bench.IsIdle) {loader : FactoryLoader} (modest : loader.IsModest)
    (settings : Settings) (timed : Bool) (paths : List String) :
    Tries s paths (formatAll settings loader timed paths s) := by
  have hidle (b : Bench) (hb : b = s.bench) (document : String) : b.formatRun? document = none :=
    formatRun?_eq_none (hb ▸ idle.activities) document
  unfold formatAll
  by_cases hdisabled : (!settings.formatter.enabled) = true
  · rw [if_pos hdisabled]
    refine Work.bind_cases (fun e s₁ hthrow => ?_) fun _ _ hthrow => by cases hthrow
    cases hthrow
    exact ⟨rfl, .refused _ (hidle _ rfl)⟩
  rw [if_neg hdisabled]
  obtain ⟨hfiles₁, hbench₁⟩ := Spares.loadScripts paths s
  refine Work.bind_cases (fun e s₁ hload => ?_) fun scripts s₁ hload => ?_
  · rw [hload] at hfiles₁ hbench₁
    exact ⟨hfiles₁, .refused _ (hidle _ hbench₁)⟩
  rw [hload] at hfiles₁ hbench₁
  obtain ⟨hscripts, hreadable⟩ := scripts_of_load hload
  by_cases hempty : scripts.isEmpty = true
  · rw [if_pos hempty]
    obtain ⟨hfiles, hbench⟩ := Spares.notify .warning "No shell scripts to format" s₁
    have hnone : scripts = [] := List.isEmpty_iff.1 hempty
    refine ⟨hfiles.trans hfiles₁, .judged ?_ hreadable fun j f hf => by cases hf⟩
    rw [← hscripts, hnone]
    rfl
  rw [if_neg hempty]
  have idle₁ : s₁.bench.IsIdle := hbench₁ ▸ idle
  obtain ⟨hfiles₂, hvisit⟩ := openWorkspace_keepsTo (visit s₁.bench.calls (scripts.map Script.document))
    idle₁ modest rfl (if_pos rfl) rfl settings timed
  obtain ⟨_, hformatter⟩ := openWorkspace_keepsTo (formatter s₁.bench.calls scripts)
    idle₁ modest rfl (if_pos rfl) rfl settings timed
  refine Work.bind_cases (fun e s₂ hopen => ?_) fun active s₂ hopen => ?_
  · rw [hopen] at hfiles₂ hvisit
    exact ⟨hfiles₂.trans hfiles₁,
      .refused _ fun document => formatRun?_unplanned hvisit fun n => visit_unplanned _ _ n document⟩
  rw [hopen] at hfiles₂ hvisit hformatter
  refine Work.bind_cases (fun _ _ hget => by cases hget) fun session _ hget => ?_
  cases hget
  by_cases hnone : (!hasFormatter s₂.bench.workspace.registry) = true
  · dsimp only
    rw [if_pos hnone]
    obtain ⟨f?, s₃, hcall, hfiles₃, hkeeps, _⟩ := call_keepsTo hvisit .shutdown fun a ha =>
      .shutdown (by rw [ha]; simp [visit])
    have hshut : Spares (replyOf f?) := Spares.replyOf f?
    have hends (e : Stop) (s₄ : Session) (hreply : (replyOf f? s₃).2 = s₄) :
        Tries s paths (.error e, s₄) := by
      obtain ⟨hfiles, hbench⟩ := hshut s₃
      rw [hreply] at hfiles hbench
      refine ⟨hfiles.trans (hfiles₃.trans (hfiles₂.trans hfiles₁)), .refused _ fun document => ?_⟩
      exact hbench ▸ formatRun?_unplanned hkeeps fun n => visit_unplanned _ _ n document
    refine Work.bind_cases (fun e s₄ hstop => ?_) fun _ s₄ hreply => ?_
    · exact hends e s₄ (by rw [← hcall, hstop])
    · refine Work.bind_cases (fun e _ hthrow => ?_) fun _ _ hthrow => by cases hthrow
      cases hthrow
      exact hends _ s₄ (by rw [← hcall, hreply])
  dsimp only
  rw [if_neg hnone]
  obtain ⟨s₃, hfiles₃, hformats⟩ := callAll_formats hformatter (formatter_plans _ _)
  have hsame : s₃.files = s.files := hfiles₃.trans (hfiles₂.trans hfiles₁)
  rcases hformats with hstop | ⟨vs, hreplies, hjudges⟩
  · refine Work.bind_cases (fun e s₄ hcall => ?_) fun _ s₄ hcall => ?_
    · cases hstop.symm.trans hcall
      exact ⟨hsame, .aborted⟩
    · cases hstop.symm.trans hcall
  · refine Work.bind_cases (fun e s₄ hcall => ?_) fun replies s₄ hcall => ?_
    · cases hreplies.symm.trans hcall
    · cases hreplies.symm.trans hcall
      refine ⟨hsame, ?_⟩
      rw [formattedBy_eq]
      refine .judged ?_ hreadable fun j f hf => ?_
      · rw [List.map_map, ← hscripts]
        exact List.map_fst_zip hjudges.length.ge
      · rw [List.getElem?_map] at hf
        obtain ⟨⟨x, v⟩, hpair, rfl⟩ := Option.map_eq_some_iff.1 hf
        obtain ⟨hx, hv⟩ := List.getElem?_zip_eq_some.1 hpair
        exact hjudges.offers j x v hx hv

end Shellwright.Command
