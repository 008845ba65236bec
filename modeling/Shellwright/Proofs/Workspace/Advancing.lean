import Shellwright.Proofs.Workspace.Jobs
/-!
# What a turn does to a review

When a task of a job has its turn the job goes on by one phase, and whatever else goes on in the review
stays as it is.
-/

namespace Shellwright

open Registry (Progress setPart allChecked)
open Workspace (Task)

namespace Registry

def Effect.task? : Effect → Option Task
  | .later e => some (.event (.review (.registry e)))
  | .ask key part plugin question => some (.inquiry ⟨key, part, plugin, question⟩)
  | _ => none

variable {r : Registry} {key : CallKey} {document : String} {options : CallOptions}
  {parts : List (Plugin × Progress Verdict)} {i : Nat} {p : Plugin} {progress : Progress Verdict}
  {ps : List Plugin}

/-! ## Steps of the registry -/

theorem foldl_emit (is : List Nat) (f : Nat → Effect) (r : Registry) :
    is.foldl (fun r i => r.emit (f i)) r = { r with outbox := r.outbox ++ is.map f } := by
  induction is generalizing r with
  | nil => simp
  | cons i rest ih =>
      rw [List.foldl_cons, ih]
      simp [emit]

/-- A call that does not hold the lock ends, and that is all. -/
theorem finish_free (h : r.lock.holder = none) (key : CallKey) (outcome : Outcome Reply) :
    r.finish key outcome =
      { r with calls := r.calls.drop key, outbox := r.outbox ++ [.finish key outcome] } := by
  unfold finish
  exact if_neg (by simp [emit, h])

theorem check_eq (buffers : Buffers)
    (supports : supporting (buffers.find document) r.activePlugins = .ok ps) (someone : ps ≠ [])
    (key : CallKey) (options : CallOptions) :
    r.step buffers (.call key (.check document options)) =
      { r.setCall key ⟨.checking document options (ps.map (·, .waiting)), false⟩ with
        outbox := r.outbox ++ (List.range ps.length).map fun i => .later (.begin key i) } := by
  have hsnapshot : r.snapshot (buffers.find document) = .ok ps := supports
  cases ps with
  | nil => exact absurd rfl someone
  | cons p rest =>
      simp only [step, call, startCheck, hsnapshot]
      exact foldl_emit _ (fun i => .later (.begin key i)) _

theorem check_nobody (free : r.lock.holder = none) (buffers : Buffers)
    (supports : supporting (buffers.find document) r.activePlugins = .ok []) (key : CallKey)
    (options : CallOptions) :
    r.step buffers (.call key (.check document options)) =
      { r with
        calls := r.calls.drop key
        outbox := r.outbox ++ [.finish key (.done (.checked {}))] } :=
  (startCheck_nobody supports key options).trans (finish_free free key _)

theorem begin_eq (call : r.calls.get? key = some ⟨.checking document options parts, false⟩)
    (part : parts[i]? = some (p, progress)) (buffers : Buffers) :
    r.step buffers (.begin key i) =
      { r.setCall key ⟨.checking document options (setPart parts i .asked), false⟩ with
        outbox := r.outbox ++ [.ask key i p (.check document options)] } := by
  simp only [step, withCall, call, Registry.begin, part]
  rfl

theorem answered_eq (call : r.calls.get? key = some ⟨.checking document options parts, false⟩)
    (part : parts[i]? = some (p, progress)) (buffers : Buffers) (a : Answer) {v : Verdict}
    (verdict : verdictOf p (buffers.find document) a = v) :
    ∃ records : List LogRecord, r.step buffers (.answered key i a) =
      { r.setCall key ⟨.checking document options (setPart parts i (.settled v)), false⟩ with
        outbox := r.outbox ++ records.map .log ++
          if allChecked (setPart parts i (.settled v)) then [.later (.gathered key)] else [] } := by
  obtain ⟨records, hverdict⟩ : ∃ records : List LogRecord, r.checkVerdict buffers p document a =
      ({ r with outbox := r.outbox ++ records.map .log }, v) := by
    rw [← verdict]
    cases a with
    | raised text => exact ⟨[⟨.error, .registry, s!"plugin {p.name} raised during check"⟩], rfl⟩
    | checked v => exact ⟨[], by simp [checkVerdict, verdictOf]⟩
    | formatted v => exact ⟨[], by simp [checkVerdict, verdictOf]⟩
    | available yes => exact ⟨[], by simp [checkVerdict, verdictOf]⟩
  refine ⟨records, ?_⟩
  simp only [step, withCall, call, answered, part, hverdict]
  split <;> simp [setCall, emit]

theorem gathered_eq (free : r.lock.holder = none)
    (call : r.calls.get? key = some ⟨.checking document options parts, false⟩) (buffers : Buffers) :
    r.step buffers (.gathered key) =
      { r with
        calls := r.calls.drop key
        outbox := r.outbox ++
          [.finish key (.done (.checked (Verdict.merge (parts.filterMap (·.2.result?)))))] } := by
  simp only [step, withCall, call, gathered]
  exact finish_free free key _

end Registry

namespace Reviewer

variable {r : Reviewer} {k : Nat} {g : Registry} {effects : List Registry.Effect}

/-! ## Steps of the review -/

/-- Effects that end no call are passed on. -/
theorem foldl_absorb_eq (effects : List Registry.Effect) (quiet : ∀ e ∈ effects, e.finish? = none)
    (r : Reviewer) :
    ∃ out, effects.foldl absorb r = { r with outbox := out } ∧
      out.filterMap Review.Effect.task? = r.tasks ++ effects.filterMap Registry.Effect.task? ∧
      out.filterMap Review.Effect.reply? = r.replies := by
  induction effects generalizing r with
  | nil => exact ⟨r.outbox, rfl, by simp [tasks], rfl⟩
  | cons effect rest ih =>
      obtain ⟨passed, hfirst, htask, hreply⟩ : ∃ passed : Review.Effect, r.absorb effect = r.emit passed ∧
          passed.task? = effect.task? ∧ passed.reply? = none := by
        cases effect with
        | later e => exact ⟨_, rfl, rfl, rfl⟩
        | ask key part plugin question => exact ⟨_, rfl, rfl, rfl⟩
        | quit key part => exact ⟨_, rfl, rfl, rfl⟩
        | log record => exact ⟨_, rfl, rfl, rfl⟩
        | finish key outcome => cases quiet _ List.mem_cons_self
      obtain ⟨out, hrest, htasks, hreplies⟩ :=
        ih (fun e he => quiet e (List.mem_cons_of_mem _ he)) (r.emit passed)
      refine ⟨out, ?_, ?_, ?_⟩
      · rw [List.foldl_cons, hfirst, hrest]
        rfl
      · rw [htasks, tasks_emit, htask, List.append_assoc]
        cases effect <;> rfl
      · rw [hreplies, replies_emit, hreply]
        exact List.append_nil _

theorem tellRegistry_passes {e : Registry.Event}
    (step : r.registry.step r.buffers e = { g with outbox := effects })
    (quiet : ∀ e ∈ effects, e.finish? = none) :
    ∃ out, r.tellRegistry e = { r with registry := { g with outbox := [] }, outbox := out } ∧
      out.filterMap Review.Effect.task? = r.tasks ++ effects.filterMap Registry.Effect.task? ∧
      out.filterMap Review.Effect.reply? = r.replies := by
  unfold tellRegistry
  rw [step]
  exact foldl_absorb_eq effects quiet { r with registry := { g with outbox := [] } }

theorem publish_eq (r : Reviewer) (run : Review.Run) (verdict : Verdict) :
    ∃ sessions sink out, r.publish run verdict =
        { r with sessions := sessions, sink := sink, outbox := out } ∧
      sessions.cancelled = r.sessions.cancelled ∧ out.filterMap Review.Effect.task? = r.tasks ∧
      out.filterMap Review.Effect.reply? = r.replies := by
  have hlog (text : String) : (r.log .debug text).tasks = r.tasks ∧
      (r.log .debug text).replies = r.replies := by
    unfold log
    rw [tasks_emit, replies_emit]
    exact ⟨List.append_nil _, List.append_nil _⟩
  unfold publish
  split
  · exact ⟨_, _, _, rfl, rfl, rfl, rfl⟩
  split
  · exact ⟨_, _, _, rfl, rfl, (hlog _).1, (hlog _).2⟩
  split
  · exact ⟨_, _, _, rfl, rfl, rfl, rfl⟩
  · exact ⟨_, _, _, rfl, rfl, (hlog _).1, (hlog _).2⟩

/-- The check of a run is over, and those who wait for it are going to learn so. -/
theorem tellRegistry_finishes {e : Registry.Event} {run : Review.Run} {verdict : Verdict}
    (step : r.registry.step r.buffers e =
      { g with outbox := [.finish (.run k) (.done (.checked verdict))] })
    (known : r.runs[k]? = some run) :
    ∃ sessions sink out, r.tellRegistry e =
        { r with
          registry := { g with outbox := [] }
          sessions := sessions
          sink := sink
          runs := r.runs.modify k fun run => { run with outcome := some (.done verdict) }
          outbox := out } ∧
      sessions.cancelled = r.sessions.cancelled ∧
      out.filterMap Review.Effect.task? = r.tasks ++ [.event (.review (.ended k))] ∧
      out.filterMap Review.Effect.reply? = r.replies := by
  have hcomplete : r.tellRegistry e =
      ((({ r with registry := { g with outbox := [] } }.emit (.stopped k)).publish run verdict).endRun
        k (.done verdict)) := by
    unfold tellRegistry
    rw [step]
    change completeRun _ k _ = _
    unfold completeRun
    simp only [emit, known]
  obtain ⟨sessions, sink, out, hpublish, hcancelled, htasks, hreplies⟩ :=
    publish_eq ({ r with registry := { g with outbox := [] } }.emit (.stopped k)) run verdict
  rw [tasks_emit] at htasks
  rw [replies_emit] at hreplies
  rw [hcomplete, hpublish]
  refine ⟨sessions, sink, _, rfl, hcancelled, ?_, ?_⟩
  · change (out ++ [Review.Effect.later (.ended k)]).filterMap Review.Effect.task? = _
    rw [List.filterMap_append, htasks]
    exact congrArg (· ++ _) (List.append_nil _)
  · change (out ++ [Review.Effect.later (.ended k)]).filterMap Review.Effect.reply? = _
    rw [List.filterMap_append, hreplies]
    exact (List.append_nil _).trans (List.append_nil _)

/-- Every call waits for the run of its own number. -/
def Paired (r : Reviewer) : Prop :=
  ∀ n c, r.calls.get? n = some c → c = ⟨.running n, false⟩

section Ended

variable {verdict : Verdict}

theorem Paired.finish (h : r.Paired) (n : Nat) (outcome : Outcome Review.Reply) :
    (r.finish n outcome).Paired := by
  intro m c call
  change (r.calls.drop n).get? m = some c at call
  rw [Keyed.get?_drop] at call
  split at call
  · cases call
  · exact h m c call

/-- A call that waits for another run, or is over, does not go on. -/
theorem withCall_resume_other (paired : r.Paired) {n : Nat} (h : n ≠ k ∨ r.calls.get? n = none) :
    r.withCall n (r.resume n k (.done verdict)) = r := by
  unfold withCall
  split
  · rename_i c call
    obtain rfl := paired n c call
    have hne : n ≠ k := h.resolve_right (by simp [call])
    unfold resume
    exact if_pos (by simpa [awaited] using Ne.symm hne)
  · rfl

theorem withCall_resume_own (call : r.calls.get? k = some ⟨.running k, false⟩) :
    r.withCall k (r.resume k k (.done verdict)) = r.finish k (.done (.verdict (some verdict))) := by
  unfold withCall
  rw [call]
  unfold resume
  exact if_neg (by simp [awaited])

theorem foldl_resume_over (ns : List Nat) (paired : r.Paired) (gone : r.calls.get? k = none) :
    ns.foldl (fun r n => r.withCall n (r.resume n k (.done verdict))) r = r := by
  induction ns with
  | nil => rfl
  | cons n rest ih =>
      have hfirst : r.withCall n (r.resume n k (.done verdict)) = r := by
        by_cases hn : n = k
        · exact withCall_resume_other paired (.inr (hn ▸ gone))
        · exact withCall_resume_other paired (.inl hn)
      rw [List.foldl_cons, hfirst, ih]

theorem foldl_resume_own {ns : List Nat} (paired : r.Paired) (mem : k ∈ ns)
    (call : r.calls.get? k = some ⟨.running k, false⟩) :
    ns.foldl (fun r n => r.withCall n (r.resume n k (.done verdict))) r =
      r.finish k (.done (.verdict (some verdict))) := by
  induction ns with
  | nil => cases mem
  | cons n rest ih =>
      rw [List.foldl_cons]
      by_cases hn : n = k
      · rw [hn, withCall_resume_own call]
        refine foldl_resume_over rest (paired.finish k _) ?_
        exact (Keyed.get?_drop r.calls k k).trans (if_pos rfl)
      · rw [withCall_resume_other paired (.inl hn)]
        exact ih ((List.mem_cons.1 mem).resolve_left (Ne.symm hn))

/-- The one call that waits for the run gets its reply. -/
theorem ended_eq (paired : r.Paired)
    (outcome_eq : r.runs[k]?.bind (·.outcome) = some (.done verdict))
    (call : r.calls.get? k = some ⟨.running k, false⟩) :
    r.step (.ended k) = r.finish k (.done (.verdict (some verdict))) := by
  have hended : r.step (.ended k) =
      r.calls.keys.foldl (fun r n => r.withCall n (r.resume n k (.done verdict))) r := by
    change r.ended k = _
    unfold ended
    rw [outcome_eq]
    rfl
  rw [hended]
  refine foldl_resume_own paired ?_ call
  exact List.mem_map.2 ⟨_, Keyed.mem_of_get? call, rfl⟩

end Ended

/-! ## Lanes -/

def lane (r : Reviewer) (k : Nat) : Lane where
  check := r.registry.calls.get? (.run k)
  outcome := r.runs[k]?.bind (·.outcome)
  call := r.calls.get? k

/-- The document of a run, and whether it was called off before it has begun. -/
def place (r : Reviewer) (k : Nat) : Option (String × Bool) :=
  r.runs[k]?.map fun run => (run.document, run.dropped)

/-- What no turn changes. -/
structure Keeps (r r' : Reviewer) : Prop where
  buffers : r'.buffers = r.buffers
  timeout : r'.timeout = r.timeout
  cancelled : r'.sessions.cancelled = r.sessions.cancelled
  plugins : r'.registry.plugins = r.registry.plugins
  active : r'.registry.active = r.registry.active
  lock : r'.registry.lock = r.registry.lock
  calm : r'.registry.outbox = r.registry.outbox
  place : ∀ k, r'.place k = r.place k

/-- Run `k` has gone on and no other one. -/
structure Advances (k : Nat) (lane : Lane) (tasks : List Task)
    (replies : List (Nat × Outcome Workspace.Reply)) (r r' : Reviewer) : Prop where
  keeps : r.Keeps r'
  lane : r'.lane k = lane
  others : ∀ n, n ≠ k → r'.lane n = r.lane n
  paired : r'.Paired
  tasks : r'.tasks = r.tasks ++ tasks
  replies : r'.replies = r.replies ++ replies

/-- The review is about to do the job, or does it. -/
structure Hosts (r : Reviewer) (j : Job) (d : TextDocument) : Prop where
  document : r.buffers.find j.document = d
  timeout : r.timeout = j.limit
  supporting : Registry.supporting d r.registry.activePlugins = .ok j.plugins
  place : r.place j.run = some (j.document, false)
  paired : r.Paired
  calm : r.registry.outbox = []
  free : r.registry.lock.holder = none

/-- The check of a run goes on in the registry. -/
theorem Advances.of_call (paired : r.Paired) (calm : r.registry.outbox = []) {c : Registry.Call}
    {new : List Task} {r' : Reviewer} {out : List Review.Effect}
    (step : r' = { r with
      registry := { r.registry.setCall (.run k) c with outbox := [] }, outbox := out })
    (wishes : out.filterMap Review.Effect.task? = r.tasks ++ new ∧
      out.filterMap Review.Effect.reply? = r.replies) :
    Advances k ⟨some c, (r.lane k).outcome, (r.lane k).call⟩ new [] r r' := by
  subst step
  refine ⟨⟨rfl, rfl, rfl, rfl, rfl, rfl, calm.symm, fun _ => rfl⟩, ?_, ?_, paired, wishes.1, ?_⟩
  · exact congrArg (Lane.mk · _ _) (Keyed.get?_put_self _ _ c)
  · intro n hn
    exact congrArg (Lane.mk · _ _) (Keyed.get?_put_of_ne c fun heq => hn (CallKey.run.inj heq))
  · rw [List.append_nil]
    exact wishes.2

/-- The check of a run has ended in the registry. -/
theorem Advances.of_finish (paired : r.Paired) (calm : r.registry.outbox = []) {e : Registry.Event}
    {verdict : Verdict} (known : ∃ p, r.place k = some p)
    (step : r.registry.step r.buffers e =
      { r.registry with
        calls := r.registry.calls.drop (.run k)
        outbox := [.finish (.run k) (.done (.checked verdict))] }) :
    Advances k ⟨none, some (.done verdict), (r.lane k).call⟩ [.event (.review (.ended k))] [] r
      (r.tellRegistry e) := by
  obtain ⟨p, hplace⟩ := known
  obtain ⟨run, hrun, _⟩ := Option.map_eq_some_iff.1 hplace
  obtain ⟨sessions, sink, out, htell, hcancelled, htasks, hreplies⟩ :=
    tellRegistry_finishes (g := { r.registry with calls := r.registry.calls.drop (.run k) }) step hrun
  rw [htell]
  have hmodify (n : Nat) : (r.runs.modify k fun run => { run with outcome := some (.done verdict) })[n]? =
      r.runs[n]?.map fun run => if k = n then { run with outcome := some (.done verdict) } else run := by
    rw [List.getElem?_modify]
    split <;> rfl
  refine ⟨⟨rfl, rfl, hcancelled, rfl, rfl, rfl, calm.symm, fun n => ?_⟩, ?_, ?_, paired, htasks, ?_⟩
  · change ((r.runs.modify k _)[n]?).map _ = _
    rw [hmodify, place, Option.map_map]
    congr 1
    funext run
    by_cases hn : k = n <;> simp [hn]
  · unfold Reviewer.lane
    simp only [hmodify, hrun, Keyed.get?_drop]
    simp
  · intro n hn
    unfold Reviewer.lane
    simp only [hmodify, Keyed.get?_drop]
    rw [if_neg fun heq => hn (CallKey.run.inj heq)]
    simp [Ne.symm hn]
  · rw [List.append_nil]
    exact hreplies

/-- The call that waited for a run has its reply. -/
theorem Advances.of_reply (paired : r.Paired) (outcome : Outcome Review.Reply) :
    Advances k ⟨(r.lane k).check, (r.lane k).outcome, none⟩ [] [(k, outcome.map .review)] r
      (r.finish k outcome) where
  keeps := ⟨rfl, rfl, rfl, rfl, rfl, rfl, rfl, fun _ => rfl⟩
  lane := congrArg (Lane.mk _ _) ((Keyed.get?_drop r.calls k k).trans (if_pos rfl))
  others n hn := congrArg (Lane.mk _ _) ((Keyed.get?_drop r.calls k n).trans (if_neg hn))
  paired := paired.finish k outcome
  tasks := tasks_emit _ _
  replies := replies_emit _ _

/-- What has been wanted before makes no difference. -/
theorem Advances.after {lane : Lane} {tasks : List Task}
    {replies : List (Nat × Outcome Workspace.Reply)} {e : Review.Effect} {r' : Reviewer}
    (h : Advances k lane tasks replies (r.emit e) r') (task : e.task? = none) (reply : e.reply? = none) :
    Advances k lane tasks replies r r' where
  keeps := ⟨h.keeps.buffers, h.keeps.timeout, h.keeps.cancelled, h.keeps.plugins, h.keeps.active,
    h.keeps.lock, h.keeps.calm, h.keeps.place⟩
  lane := h.lane
  others := h.others
  paired := h.paired
  tasks := by rw [h.tasks, tasks_emit, task, Option.toList_none, List.append_nil]
  replies := by rw [h.replies, replies_emit, reply, Option.toList_none, List.append_nil]

end Reviewer

/-- What a task is to a review when its turn has come; plugins answer about the document `d`. -/
inductive Workspace.Task.Comes (j : Job) (d : TextDocument) : Task → Review.Event → Prop
  | event (e : Review.Event) : Comes j d (.event (.review e)) e
  | answer (q : Registry.Inquiry) (a : Answer)
      (share : Registry.verdictOf q.plugin d a = j.share q.plugin) :
      Comes j d (.inquiry q) (.registry (.answered q.key q.part a))

namespace Job

open Reviewer (Advances Hosts)

variable {j : Job} {d : TextDocument} {r : Reviewer} {phase phase' : Phase} {t : Task}
  {new : List Task} {e : Review.Event}

theorem begin_tells (hosts : r.Hosts j d) :
    r.step (.begin j.run) =
      (r.emit (.started j.run)).tellRegistry (.call (.run j.run) (.check j.document j.options)) := by
  obtain ⟨run, hrun, hplace⟩ := Option.map_eq_some_iff.1 hosts.place
  obtain ⟨hdocument, hdropped⟩ : run.document = j.document ∧ run.dropped = false := by
    simpa using hplace
  have hbegin : r.step (.begin j.run) = r.begin j.run run := by
    simp only [Reviewer.step, hrun]
  rw [hbegin, Reviewer.begin, hdropped, hdocument, hosts.timeout]
  rfl

/-- The run begins: all plugins of the job are to be asked. -/
theorem begins_advances (hosts : r.Hosts j d) (lane : r.lane j.run = Phase.due.lane j)
    (someone : j.plugins ≠ []) :
    Advances j.run ((Phase.checking (j.plugins.map (·, .waiting))).lane j)
      ((List.range j.plugins.length).map j.asking) [] r (r.step (.begin j.run)) := by
  have hsupporting : Registry.supporting (r.buffers.find j.document) r.registry.activePlugins =
      .ok j.plugins := hosts.document.symm ▸ hosts.supporting
  have hstep := Registry.check_eq r.buffers hsupporting someone (.run j.run) j.options
  rw [hosts.calm, List.nil_append] at hstep
  obtain ⟨out, htell, hwishes⟩ :=
    Reviewer.tellRegistry_passes (r := r.emit (.started j.run)) hstep (by simp [Registry.Effect.finish?])
  have hasking : ((List.range j.plugins.length).map fun i =>
      Registry.Effect.later (.begin (.run j.run) i)).filterMap Registry.Effect.task? =
        (List.range j.plugins.length).map j.asking := by
    simp [List.filterMap_map, Function.comp_def, Registry.Effect.task?, asking]
  rw [hasking] at hwishes
  rw [begin_tells hosts]
  have hadvances := Advances.of_call (r := r.emit (.started j.run)) hosts.paired hosts.calm htell hwishes
  have hlane : (⟨some (j.checking (j.plugins.map (·, .waiting))), (r.lane j.run).outcome,
      (r.lane j.run).call⟩ : Lane) = (Phase.checking (j.plugins.map (·, .waiting))).lane j := by
    rw [lane]
    rfl
  exact hlane ▸ hadvances.after rfl rfl

/-- The run begins and ends: nobody is to be asked. -/
theorem passes_advances (hosts : r.Hosts j d) (lane : r.lane j.run = Phase.due.lane j)
    (nobody : j.plugins = []) :
    Advances j.run (Phase.ended.lane j) [j.ending] [] r (r.step (.begin j.run)) := by
  have hsupporting : Registry.supporting (r.buffers.find j.document) r.registry.activePlugins =
      .ok [] := nobody ▸ hosts.document.symm ▸ hosts.supporting
  have hstep := Registry.check_nobody hosts.free r.buffers hsupporting (.run j.run) j.options
  rw [hosts.calm, List.nil_append] at hstep
  have hadvances := Advances.of_finish (r := r.emit (.started j.run)) hosts.paired hosts.calm
    ⟨_, hosts.place⟩ hstep
  have hverdict : j.verdict = {} := by
    rw [verdict, nobody]
    rfl
  have hlane : (⟨none, some (.done {}), (r.lane j.run).call⟩ : Lane) = Phase.ended.lane j := by
    rw [lane, Phase.lane, Phase.lane, hverdict]
  rw [begin_tells hosts]
  exact hlane ▸ hadvances.after rfl rfl

section Checking

variable {parts : List (Plugin × Progress Verdict)} {i : Nat} {p : Plugin}

theorem check_of_lane (lane : r.lane j.run = (Phase.checking parts).lane j) :
    r.registry.calls.get? (.run j.run) = some (j.checking parts) :=
  congrArg Lane.check lane

/-- A part of the check is asked. -/
theorem asks_advances (hosts : r.Hosts j d) (lane : r.lane j.run = (Phase.checking parts).lane j)
    (part : parts[i]? = some (p, .waiting)) :
    Advances j.run ((Phase.checking (setPart parts i .asked)).lane j) [j.answering i p] [] r
      (r.step (.registry (.begin (.run j.run) i))) := by
  have hstep := Registry.begin_eq (check_of_lane lane) part r.buffers
  rw [hosts.calm, List.nil_append] at hstep
  obtain ⟨out, htell, hwishes⟩ :=
    Reviewer.tellRegistry_passes hstep (by simp [Registry.Effect.finish?])
  have hadvances := Advances.of_call hosts.paired hosts.calm htell hwishes
  rw [lane] at hadvances
  exact hadvances

/-- A part of the check has been answered; the last one has the verdicts put together. -/
theorem settles_advances (hosts : r.Hosts j d) (lane : r.lane j.run = (Phase.checking parts).lane j)
    (part : parts[i]? = some (p, .asked)) {a : Answer}
    (share : Registry.verdictOf p d a = j.share p) :
    Advances j.run ((Phase.checking (setPart parts i (.settled (j.share p)))).lane j)
      (j.gatherings (setPart parts i (.settled (j.share p)))) [] r
      (r.step (.registry (.answered (.run j.run) i a))) := by
  have hshare : Registry.verdictOf p (r.buffers.find j.document) a = j.share p :=
    hosts.document.symm ▸ share
  obtain ⟨records, hstep⟩ :=
    Registry.answered_eq (check_of_lane lane) part r.buffers a hshare
  rw [hosts.calm, List.nil_append] at hstep
  have hrecords : (records.map Registry.Effect.log).filterMap Registry.Effect.task? = [] := by
    simp [Registry.Effect.task?]
  obtain ⟨out, htell, hwishes⟩ := Reviewer.tellRegistry_passes hstep (by
    intro e he
    rcases List.mem_append.1 he with hlog | hgathering
    · obtain ⟨record, _, rfl⟩ := List.mem_map.1 hlog
      rfl
    · split at hgathering
      · exact List.mem_singleton.1 hgathering ▸ rfl
      · cases hgathering)
  have hgathering : (if allChecked (setPart parts i (.settled (j.share p))) then
      [Registry.Effect.later (.gathered (.run j.run))] else []).filterMap Registry.Effect.task? =
        j.gatherings (setPart parts i (.settled (j.share p))) := by
    unfold gatherings
    split <;> rfl
  rw [List.filterMap_append, hrecords, List.nil_append, hgathering] at hwishes
  have hadvances := Advances.of_call hosts.paired hosts.calm htell hwishes
  rw [lane] at hadvances
  exact hadvances

/-- The verdicts are put together. -/
theorem gathers_advances (hosts : r.Hosts j d) (fits : (Phase.checking parts).Fits j)
    (lane : r.lane j.run = (Phase.checking parts).lane j) (all : allChecked parts = true) :
    Advances j.run (Phase.ended.lane j) [j.ending] [] r
      (r.step (.registry (.gathered (.run j.run)))) := by
  have hstep := Registry.gathered_eq hosts.free (check_of_lane lane) r.buffers
  rw [hosts.calm, List.nil_append, results_eq fits all] at hstep
  have hadvances := Advances.of_finish hosts.paired hosts.calm ⟨_, hosts.place⟩ hstep
  rw [lane] at hadvances
  exact hadvances

end Checking

/-- The call that waits for the run gets the verdict. -/
theorem replies_advances (hosts : r.Hosts j d) (lane : r.lane j.run = Phase.ended.lane j) :
    Advances j.run (Phase.replied.lane j) [] (Phase.replied.replies j) r (r.step (.ended j.run)) := by
  have hstep := Reviewer.ended_eq hosts.paired (congrArg Lane.outcome lane) (congrArg Lane.call lane)
  have hadvances := Advances.of_reply (k := j.run) hosts.paired
    (.done (.verdict (some j.verdict)))
  rw [lane] at hadvances
  rw [hstep]
  exact hadvances

/-- The job goes on when one of its tasks has its turn. -/
theorem Goes.advances (h : j.Goes phase t phase' new) (hosts : r.Hosts j d) (fits : phase.Fits j)
    (lane : r.lane j.run = phase.lane j) (comes : t.Comes j d e) :
    Advances j.run (phase'.lane j) new (phase'.replies j) r (r.step e) := by
  cases h with
  | begins someone =>
      cases comes
      exact begins_advances hosts lane someone
  | passes nobody =>
      cases comes
      exact passes_advances hosts lane nobody
  | asks part =>
      cases comes
      exact asks_advances hosts lane part
  | settles part =>
      cases comes with
      | answer q a share => exact settles_advances hosts lane part share
  | gathers all =>
      cases comes
      exact gathers_advances hosts fits lane all
  | replies =>
      cases comes
      exact replies_advances hosts lane

end Job

end Shellwright
