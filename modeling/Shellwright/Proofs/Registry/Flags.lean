import Shellwright.Plugin.Basic
import Shellwright.Proofs.Registry.Formatting
import Shellwright.Proofs.Registry.Merging
/-!
# Error flags

A verdict has a flag for errors beside its diagnostics. The flag is raised exactly when one of them is an
error: in all that is made of the report of a tool, and in what comes of a check or a format when it holds
of what the plugins answered. A plugin that raises an error adds a diagnostic together with the flag.
-/

namespace Shellwright

/-! ## Verdicts on reports -/

namespace Verdict

/-- The flag is raised exactly when one of the diagnostics is an error. -/
def IsFlagged (v : Verdict) : Prop :=
  v.hasErrors = true ↔ ∃ d ∈ v.diagnostics, d.severity = .error

/-- The flag is right, and an inconclusive verdict shows nothing. -/
structure IsFaithful (v : Verdict) : Prop where
  flagged : v.IsFlagged
  silent : v.inconclusive = true → v.diagnostics = []

variable {source text : String} {message : Option String}

theorem isFlagged_of_silent {v : Verdict} (silent : v.diagnostics = []) (lowered : v.hasErrors = false) :
    v.IsFlagged := by
  simp [IsFlagged, silent, lowered]

theorem isFlagged_ofDiagnostics (diagnostics : List Diagnostic) (message : Option String) :
    (ofDiagnostics diagnostics message).IsFlagged := by
  simp [IsFlagged, ofDiagnostics]

theorem isFaithful_ofDiagnostics (diagnostics : List Diagnostic) (message : Option String) :
    (ofDiagnostics diagnostics message).IsFaithful :=
  ⟨isFlagged_ofDiagnostics diagnostics message, nofun⟩

theorem isFaithful_ofReport (source : String) (reports : Bool) (r : Report) (text : String) :
    (ofReport source reports r text).IsFaithful := by
  unfold ofReport
  split
  · exact ⟨isFlagged_of_silent rfl rfl, fun _ => rfl⟩
  · split
    · exact ⟨isFlagged_of_silent rfl rfl, nofun⟩
    · exact isFaithful_ofDiagnostics _ _

/-- What is put together of verdicts with the right flag has the right flag. -/
theorem isFlagged_merge {vs : List Verdict} (h : ∀ v ∈ vs, v.IsFlagged) : (merge vs).IsFlagged := by
  have hflag : (merge vs).hasErrors = true ↔ ∃ v ∈ vs, v.hasErrors = true := List.any_eq_true
  rw [IsFlagged, hflag]
  constructor
  · rintro ⟨v, hv, hraised⟩
    obtain ⟨d, hd, herror⟩ := (h v hv).1 hraised
    exact ⟨d, List.mem_flatMap.2 ⟨v, hv, hd⟩, herror⟩
  · rintro ⟨d, hd, herror⟩
    obtain ⟨v, hv, hmem⟩ := List.mem_flatMap.1 hd
    exact ⟨v, hv, (h v hv).2 ⟨d, hmem, herror⟩⟩

end Verdict

/-- The flag is right, and an inconclusive verdict shows nothing and edits nothing. -/
structure FormatVerdict.IsFaithful (v : FormatVerdict) : Prop where
  verdict : v.toVerdict.IsFaithful
  unedited : v.inconclusive = true → v.edits = []

theorem FormatVerdict.isFaithful_ofReport (source : String) (reports : Bool) (r : Report)
    (text : String) : (FormatVerdict.ofReport source reports r text).IsFaithful := by
  unfold FormatVerdict.ofReport
  split
  · exact ⟨⟨Verdict.isFlagged_of_silent rfl rfl, fun _ => rfl⟩, fun _ => rfl⟩
  · split
    · exact ⟨⟨(Verdict.isFaithful_ofReport source reports r text).flagged, nofun⟩, nofun⟩
    · split
      · exact ⟨⟨Verdict.isFlagged_ofDiagnostics [Diagnostic.failure source noContent text none]
          (some noContent), nofun⟩, nofun⟩
      · exact ⟨⟨Verdict.isFlagged_of_silent rfl rfl, nofun⟩, nofun⟩

/-! ## Answers and replies -/

/-- All that is in the answer of a plugin has the right flag. -/
def Answer.IsFlagged : Answer → Prop
  | .checked v => v.IsFlagged
  | .formatted v => v.toVerdict.IsFlagged
  | .available _ => True
  | .raised _ => True

/-- A plugin that runs a tool answers with the right flag, whatever the tool does. -/
theorem Plugin.isFlagged_answerOf (p : Plugin) (tool : Tool) (reports : Bool) (question : Question)
    (text : String) (e : Execution) : (p.answerOf tool reports question text e).1.IsFlagged := by
  cases question with
  | available => exact trivial
  | check document options =>
      simp only [answerOf]
      split
      · exact trivial
      · rename_i r _
        exact (Verdict.isFaithful_ofReport p.name reports r text).flagged
  | format document options =>
      simp only [answerOf]
      split
      · exact trivial
      · rename_i r _
        exact (FormatVerdict.isFaithful_ofReport p.name reports r text).verdict.flagged

namespace Registry

def Reply.IsFlagged : Reply → Prop
  | .checked v => v.IsFlagged
  | .formatted v => v.toVerdict.IsFlagged
  | _ => True

/-- All that the plugins of a call have said so far has the right flag. -/
def Stage.IsFlagged : Stage → Prop
  | .checking _ _ parts => ∀ (p : Plugin) (v : Verdict), (p, Progress.settled v) ∈ parts → v.IsFlagged
  | .formatting _ _ _ _ collected => ∀ v ∈ collected, v.IsFlagged
  | _ => True

/-- A plugin that raises an error adds an error and the flag. -/
theorem isFlagged_checkVerdict (r : Registry) (buffers : Buffers) (p : Plugin) (document : String)
    {a : Answer} (h : a.IsFlagged) : (r.checkVerdict buffers p document a).2.IsFlagged := by
  cases a with
  | available yes => exact Verdict.isFlagged_of_silent rfl rfl
  | checked v => exact h
  | formatted v => exact h
  | raised text => exact Verdict.isFlagged_ofDiagnostics _ _

theorem isFlagged_formatShare (p : Plugin) (d : TextDocument) {a : Answer} (h : a.IsFlagged) :
    (formatShare p d a).toVerdict.IsFlagged := by
  cases a with
  | available yes => exact Verdict.isFlagged_of_silent rfl rfl
  | checked v => exact h
  | formatted v => exact h
  | raised text =>
      have hfailure : (p.failure "format" text d).IsFlagged := Verdict.isFlagged_ofDiagnostics _ _
      exact hfailure

theorem isFlagged_setPart {document : String} {options : CallOptions}
    {parts : List (Plugin × Progress Verdict)} (h : (Stage.checking document options parts).IsFlagged)
    (i : Nat) {progress : Progress Verdict} (said : ∀ v, progress = .settled v → v.IsFlagged) :
    (Stage.checking document options (setPart parts i progress)).IsFlagged := by
  intro p v hmem
  obtain ⟨j, hj⟩ := List.mem_iff_getElem?.1 hmem
  rw [getElem?_setPart] at hj
  obtain ⟨entry, hentry, heq⟩ := Option.map_eq_some_iff.1 hj
  split at heq
  · exact said v (congrArg Prod.snd heq)
  · subst heq
    exact h p v (List.mem_of_getElem? hentry)

theorem isFlagged_results {document : String} {options : CallOptions}
    {parts : List (Plugin × Progress Verdict)} (h : (Stage.checking document options parts).IsFlagged) :
    ∀ v ∈ parts.filterMap (·.2.result?), v.IsFlagged := by
  intro v hv
  obtain ⟨⟨p, progress⟩, hmem, hresult⟩ := List.mem_filterMap.1 hv
  cases progress with
  | waiting => cases hresult
  | asked => cases hresult
  | settled w =>
      cases hresult
      exact h p v hmem

/-! ## Steps -/

/-- All that has been said to the call has the right flag, and so has the reply that it ends with. -/
structure Upright (r : Registry) (key : CallKey) : Prop where
  stage : ∀ c, r.calls.get? key = some c → c.stage.IsFlagged
  ends : ∀ reply, (key, .done reply) ∈ r.finishes → reply.IsFlagged

variable {r r' r₁ core : Registry} {e : Event} {key : CallKey} {ls : List Event} {as : List Inquiry}

theorem Leaves.upright (h : r'.Leaves r ls as [])
    (before : ∀ c, r.calls.get? key = some c → c.stage.IsFlagged) : r'.Upright key where
  stage c call := before c (by rwa [h.calls] at call)
  ends reply ended := by
    rw [h.finishes] at ended
    cases ended

theorem Leaves.upright_goes {c : Call} (h : r'.Leaves (core.setCall key c) ls as [])
    (flagged : c.stage.IsFlagged) : r'.Upright key := by
  refine h.upright fun c' call => ?_
  obtain rfl := Option.some.inj (call.symm.trans (Keyed.get?_put_self core.calls key c))
  exact flagged

theorem Leaves.upright_ends (h : r₁.Leaves core ls as []) {outcome : Outcome Reply}
    (flagged : ∀ reply, outcome = .done reply → reply.IsFlagged) :
    (r₁.finish key outcome).Upright key := by
  have hleaves := h.finish key outcome
  constructor
  · intro c call
    rw [hleaves.calls, get?_without] at call
    cases call
  · intro reply ended
    rw [hleaves.finishes] at ended
    cases List.mem_singleton.1 ended
    exact flagged reply rfl

theorem Leaves.upright_stops (h : r₁.Leaves core ls as []) :
    (r₁.finish key .aborted).Upright key :=
  h.upright_ends nofun

theorem Leaves.upright_done (h : r₁.Leaves core ls as []) {reply : Reply} (flagged : reply.IsFlagged) :
    (r₁.finish key (.done reply)).Upright key :=
  h.upright_ends (by rintro _ ⟨⟩; exact flagged)

theorem completeProbes_upright (h : r₁.Leaves r [] [] []) (purpose : ProbePurpose)
    (probes : List (String × Progress Bool)) : (r₁.completeProbes key purpose probes).Upright key := by
  cases purpose with
  | activateAll => exact ((h.logFailed _).withActive _).upright_done trivial
  | reactivate => exact (((h.logFailed _).withActive _).log _ _).upright_done trivial
  | replace fresh => exact ((h.withPlugins fresh _).log _ _).upright_done trivial
  | available => exact h.upright_done trivial

theorem startProbes_upright (h : r₁.Leaves r [] [] []) (purpose : ProbePurpose)
    (names : List String) : (r₁.startProbes key purpose names).Upright key := by
  unfold startProbes
  split
  · exact completeProbes_upright h purpose []
  · exact ((h.setCall key _).begins key (List.range names.length)).upright_goes trivial

theorem enter_upright (h : r₁.Leaves r [] [] []) (request : Request)
    (before : ∀ c, r.calls.get? key = some c → c.stage.IsFlagged) :
    (r₁.enter key request).Upright key := by
  cases request with
  | activate name =>
      simp only [enter]
      split
      · exact (h.log _ _).upright_done trivial
      · rename_i p _
        exact ((h.setCall key ⟨.activating name, false⟩).ask key 0 p .available).upright_goes trivial
  | activateAll names => exact startProbes_upright h .activateAll (distinct names)
  | reactivate names => exact startProbes_upright h .reactivate (distinct names)
  | replace plugins names => exact startProbes_upright h (.replace _) _
  | available => exact h.upright before
  | check document options => exact h.upright before
  | format document options => exact h.upright before

theorem acquire_upright (h : r₁.Leaves r [] [] []) (request : Request)
    (before : ∀ c, r.calls.get? key = some c → c.stage.IsFlagged) :
    (r₁.acquire key request).Upright key := by
  have hwaits (lock : Lock) : Leaves { r₁ with lock := lock } { r with lock := lock } [] [] [] :=
    ⟨h.plugins, h.active, rfl, h.calls, h.laters, h.asks, h.finishes⟩
  unfold acquire
  split
  · exact enter_upright (hwaits _) request before
  · exact ((hwaits _).setCall key ⟨.queued request, false⟩).upright_goes trivial

theorem startCheck_upright (h : r.Leaves r [] [] []) (buffers : Buffers) (document : String)
    (options : CallOptions) : (r.startCheck buffers key document options).Upright key := by
  unfold startCheck
  split
  · exact h.upright_ends nofun
  · exact h.upright_done (Verdict.isFlagged_of_silent rfl rfl)
  · rename_i plugins _ _
    refine ((h.setCall key _).begins key (List.range plugins.length)).upright_goes fun p v hmem => ?_
    -- Nobody has said anything yet.
    obtain ⟨q, _, heq⟩ := List.mem_map.1 hmem
    cases heq

theorem askFormatter_upright (h : r₁.Leaves r [] [] []) (document : String) (options : CallOptions)
    {collected : List Verdict} (flagged : ∀ v ∈ collected, v.IsFlagged) (plugins : List Plugin) :
    (r₁.askFormatter key document options collected plugins).Upright key := by
  cases plugins with
  | nil => exact h.upright_done (Verdict.isFlagged_merge flagged)
  | cons p rest =>
      exact ((h.setCall key _).ask key 0 p (.format document options)).upright_goes flagged

theorem startFormat_upright (h : r.Leaves r [] [] []) (buffers : Buffers) (document : String)
    (options : CallOptions) : (r.startFormat buffers key document options).Upright key := by
  unfold startFormat
  split
  · exact h.upright_ends nofun
  · exact askFormatter_upright h document options (by simp) _

theorem call_upright (h : r.Leaves r [] [] []) (buffers : Buffers) (request : Request)
    (before : ∀ c, r.calls.get? key = some c → c.stage.IsFlagged) :
    (r.call buffers key request).Upright key := by
  cases request with
  | activate name => exact acquire_upright h _ before
  | activateAll names => exact acquire_upright h _ before
  | reactivate names => exact acquire_upright h _ before
  | replace plugins names => exact acquire_upright (freshPlugins_leaves h [] plugins) _ before
  | available => exact startProbes_upright h .available r.plugins.keys
  | check document options => exact startCheck_upright h buffers document options
  | format document options => exact startFormat_upright h buffers document options

section Going

variable {c : Call} (h : r.Leaves r [] [] []) (call : r.calls.get? key = some c)
  (flagged : c.stage.IsFlagged)

include h call flagged

theorem same_upright : r.Upright key := by
  refine h.upright fun c' call' => ?_
  obtain rfl := Option.some.inj (call.symm.trans call')
  exact flagged

theorem begin_upright (i : Nat) : (r.begin key i c).Upright key := by
  obtain ⟨stage, aborting⟩ := c
  unfold Registry.begin
  split
  · exact h.upright_stops
  · cases stage with
    | probing purpose probes =>
        simp only
        split
        · exact same_upright h call flagged
        · split
          · exact (settleProbe_leaves (h.log _ _) _ _ _ i false).upright_goes trivial
          · exact ((h.setCall key _).ask key i _ .available).upright_goes trivial
    | checking document options parts =>
        simp only
        split
        · exact same_upright h call flagged
        · exact ((h.setCall key _).ask key i _ (.check document options)).upright_goes
            (isFlagged_setPart flagged i nofun)
    | _ => exact same_upright h call flagged

theorem answered_upright (buffers : Buffers) (i : Nat) {a : Answer} (said : a.IsFlagged) :
    (r.answered buffers key i c a).Upright key := by
  obtain ⟨stage, aborting⟩ := c
  unfold Registry.answered
  cases stage with
  | queued request => exact same_upright h call flagged
  | activating name =>
      have hleaves := (availability_leaves h name a).1
      simp only
      split
      · exact (hleaves.withActive _).upright_done trivial
      · exact hleaves.upright_done trivial
  | probing purpose probes =>
      simp only
      split
      · exact same_upright h call flagged
      · rename_i name _ _
        exact (settleProbe_leaves (availability_leaves h name a).1 _ _ _ i _).upright_goes trivial
  | checking document options parts =>
      simp only
      split
      · exact same_upright h call flagged
      · rename_i p _ _
        have hset := (checkVerdict_leaves h buffers p document a).setCall key
          ⟨.checking document options
            (setPart parts i (.settled (r.checkVerdict buffers p document a).2)), aborting⟩
        have hflagged : (Stage.checking document options
            (setPart parts i (.settled (r.checkVerdict buffers p document a).2))).IsFlagged :=
          isFlagged_setPart flagged i <| by
            rintro _ ⟨⟩
            exact isFlagged_checkVerdict r buffers p document said
        split
        · exact (hset.later (.gathered key)).upright_goes hflagged
        · exact hset.upright_goes hflagged
  | formatting document options p rest collected =>
      have hleaves := formatVerdict_leaves h buffers p document a
      have hshare : (r.formatVerdict buffers p document a).2.toVerdict.IsFlagged := by
        rw [formatVerdict_share]
        exact isFlagged_formatShare p _ said
      unfold settleFormat
      simp only
      split
      · refine askFormatter_upright hleaves document options ?_ rest
        intro v hv
        rcases List.mem_append.1 hv with hv | hv
        · exact flagged v hv
        · obtain rfl := List.mem_singleton.1 hv
          exact hshare
      · exact hleaves.upright_done hshare

theorem gathered_upright : (r.gathered key c).Upright key := by
  obtain ⟨stage, aborting⟩ := c
  unfold Registry.gathered
  split
  · exact h.upright_stops
  · cases stage with
    | probing purpose probes => exact completeProbes_upright h purpose probes
    | checking document options parts =>
        exact h.upright_done (Verdict.isFlagged_merge (isFlagged_results flagged))
    | _ => exact same_upright h call flagged

omit call in
theorem abort_upright : (r.abort key c).Upright key := by
  unfold Registry.abort
  split
  · exact (h.withLock _).upright_stops
  · exact ((h.setCall key { c with aborting := true }).quits key _).upright_goes flagged

end Going

/-- Nothing that happens to a call spoils a flag when all that it is told has the right one. -/
theorem step_upright (h : r.outbox = []) (buffers : Buffers)
    (before : ∀ c, r.calls.get? key = some c → c.stage.IsFlagged)
    (heard : ∀ i a, e = .answered key i a → a.IsFlagged) : (r.step buffers e).Upright key := by
  have hstart := Leaves.start h
  by_cases hforeign : e.key? ≠ some key
  · have hother := step_unconcerned h buffers hforeign
    exact ⟨fun c call => before c (hother.call.symm.trans call),
      fun reply ended => absurd ended (hother.finishes _)⟩
  have hkey : e.key? = some key := Classical.not_not.1 hforeign
  have hcall {f : Call → Registry}
      (hf : ∀ c, r.calls.get? key = some c → c.stage.IsFlagged → (f c).Upright key) :
      (r.withCall key f).Upright key := by
    unfold withCall
    split
    · rename_i c call
      exact hf c call (before c call)
    · exact hstart.upright before
  cases e with
  | call k request =>
      cases hkey
      exact call_upright hstart buffers request before
  | granted k =>
      cases hkey
      refine hcall fun c call flagged => ?_
      split
      · exact enter_upright hstart _ before
      · exact hstart.upright before
  | begin k i =>
      cases hkey
      exact hcall fun c call flagged => begin_upright hstart call flagged i
  | answered k i a =>
      cases hkey
      exact hcall fun c call flagged =>
        answered_upright hstart call flagged buffers i (heard i a rfl)
  | stopped k i =>
      cases hkey
      refine hcall fun c call flagged => ?_
      split
      · exact hstart.upright_stops
      · exact hstart.upright before
  | gathered k =>
      cases hkey
      exact hcall fun c call flagged => gathered_upright hstart call flagged
  | abort k =>
      cases hkey
      exact hcall fun c call flagged => abort_upright hstart flagged
  | _ => cases hkey

/-! ## Whole runs -/

namespace Schedule

/-- All that the plugins of a call answer has the right flag. -/
def Truthful (s : Schedule) (key : CallKey) : Prop :=
  ∀ t q a, (q, a) ∈ (s.world t).replies key (s t) → a.IsFlagged

variable {s : Schedule} {t : Nat}

theorem Truthful.heard (truthful : s.Truthful key) (event : s.event? t = some e) :
    ∀ i a, e = .answered key i a → a.IsFlagged := by
  rintro i a rfl
  obtain ⟨n, q, hmove, hasked, hown, -⟩ := (s.orderly t).answer_of_event event
  refine truthful t q a ?_
  rw [hmove, World.replies_answer hasked hown]
  exact List.mem_singleton_self _

/-- All that has been said to the call has the right flag at any moment. -/
theorem Truthful.stage (truthful : s.Truthful key) (t : Nat) :
    ∀ c, (s.registry t).calls.get? key = some c → c.stage.IsFlagged := by
  induction t with
  | zero =>
      intro c call
      cases call
  | succ t ih =>
      cases hevent : s.event? t with
      | none =>
          rw [registry_of_none hevent]
          exact ih
      | some e =>
          rw [registry, world_of_some hevent]
          refine (step_upright (spend_orderly s t).outbox _ ?_ (truthful.heard hevent)).stage
          rw [World.spend_registry]
          exact ih

theorem Truthful.ends (truthful : s.Truthful key) {reply : Reply}
    (ended : (key, .done reply) ∈ s.endings t) : reply.IsFlagged := by
  cases hevent : s.event? t with
  | none =>
      rw [endings, World.endings, show (s.world t).event? (s t) = none from hevent] at ended
      cases ended
  | some e =>
      rw [endings, World.endings_of_event hevent] at ended
      refine (step_upright (spend_orderly s t).outbox _ ?_ (truthful.heard hevent)).ends reply ended
      rw [World.spend_registry]
      exact truthful.stage t

theorem truthful_of_list {moves : List Move} (h : ∀ n a, .answer n a ∈ moves → a.IsFlagged) :
    (ofMoves moves).Truthful key := by
  intro t q a hreply
  have hmem (n : Nat) (said : Answer) (hmove : ofMoves moves t = .answer n said) :
      .answer n said ∈ moves := by
    rw [ofMoves, List.getD_eq_getElem?_getD] at hmove
    cases hget : moves[t]? with
    | none =>
        rw [hget] at hmove
        cases hmove
    | some m =>
        rw [hget] at hmove
        exact List.mem_of_getElem? (hget.trans (congrArg some hmove))
  unfold World.replies at hreply
  split at hreply
  · rename_i n said hmove
    obtain ⟨_, _, heq⟩ := List.mem_map.1 hreply
    obtain rfl := congrArg Prod.snd heq
    exact h n said (hmem n said hmove)
  · cases hreply

/-- The flag of a verdict is raised exactly when an error is among its diagnostics: in what is made of any
report and of any error, and in what comes of a call, whoever of its plugins raises, when what the others
say has the right flag. A verdict that is inconclusive shows nothing and edits nothing. -/
theorem flags_follow_errors :
    (∀ source reports r text, (Verdict.ofReport source reports r text).IsFaithful ∧
      (FormatVerdict.ofReport source reports r text).IsFaithful) ∧
    (∀ source message text, (Verdict.ofError source message text).IsFaithful) ∧
    ∀ (s : Schedule) (key : CallKey), s.Truthful key →
      ∀ t reply, (key, .done reply) ∈ s.endings t → reply.IsFlagged :=
  ⟨fun source reports r text => ⟨Verdict.isFaithful_ofReport source reports r text,
      FormatVerdict.isFaithful_ofReport source reports r text⟩,
    fun _ _ _ => Verdict.isFaithful_ofDiagnostics _ _,
    fun _ _ truthful _ _ ended => truthful.ends ended⟩

/-- One of two linters raises while it checks, and the other finds nothing. -/
theorem flags_follow_errors_cleared : clearedInCheck.Truthful (.host 1) ∧
    ∃ v, clearedInCheck.endings 15 = [(.host 1, .done (.checked v))] ∧ v.hasErrors = true ∧
      ∃ d ∈ v.diagnostics, d.severity = .error := by
  have htruthful : clearedInCheck.Truthful (.host 1) := by
    refine truthful_of_list fun n a hmem => ?_
    simp only [checkOfTwo, List.cons_append, List.nil_append, List.mem_cons, List.not_mem_nil,
      Move.answer.injEq, reduceCtorEq, false_or, or_false] at hmem
    rcases hmem with ⟨-, rfl⟩ | ⟨-, rfl⟩ | ⟨-, rfl⟩ | ⟨-, rfl⟩
    · exact trivial
    · exact trivial
    · exact Verdict.isFlagged_of_silent rfl rfl
    · exact trivial
  have hended : clearedInCheck.endings 15 = [(.host 1, .done (.checked _))] := rfl
  have hflagged := flags_follow_errors.2.2 clearedInCheck (.host 1) htruthful 15 _
    (hended ▸ List.mem_singleton_self _)
  exact ⟨htruthful, _, hended, rfl, hflagged.1 rfl⟩

end Schedule

end Registry

end Shellwright
