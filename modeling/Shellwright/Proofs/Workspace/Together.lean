import Mathlib.Data.List.Nodup
import Shellwright.Proofs.Workspace.Advancing
/-!
# Jobs side by side

The jobs of the documents that have been opened go on in any order and do not get into each other's way:
each comes to its reply, after a number of turns that is known beforehand, and the reply is what the
plugins say about its document.
-/

namespace Shellwright.Workshop

open Workspace (Task)

/-- The job of the document in place `k`. -/
def job (s : Workshop) (documents : List TextDocument) (k : Nat) (d : TextDocument) : Job where
  run := k
  limit := s.limit
  plugins := s.asked d
  share := s.tools.share s.limit (isRepeated documents k) d

/-- No plugin raises an error when it is asked whether it handles a document. -/
def Willing (s : Workshop) : Prop :=
  ∀ p ∈ s.plugins.values, ∀ d text, p.supports d ≠ .error text

/-- The number of plugins that are asked about the document in place `k`. -/
def width (s : Workshop) (documents : List TextDocument) (k : Nat) : Nat :=
  (documents[k]?.map fun d => (s.asked d).length).getD 0

/-- A bound on the turns that are still to be taken. -/
def load (s : Workshop) (documents : List TextDocument) (f : Floor) : Nat :=
  (f.tasks.map (Task.weight (s.width documents))).sum

/-- A number of turns after which nothing is left to happen. -/
def span (s : Workshop) (documents : List TextDocument) : Nat :=
  (documents.map fun d => 4 * (s.asked d).length + 2).sum

/-- A job stands in a phase: what the review knows of it, what is still to happen and what has been
replied. -/
structure StandsIn (j : Job) (phase : Phase) (f : Floor) : Prop where
  fits : phase.Fits j
  lane : f.workspace.reviewer.lane j.run = phase.lane j
  tasks : (f.tasks.filter fun t => decide (t.run? = some j.run)).Perm (phase.tasks j)
  replies : (f.replies.filter fun e => e.1 == j.run) = phase.replies j

/-- All jobs are under way or done, and nothing else goes on. -/
structure Stands (s : Workshop) (documents : List TextDocument) (f : Floor) : Prop where
  calls : f.workspace.calls = []
  outbox : f.workspace.outbox = []
  wishes : f.workspace.reviewer.outbox = []
  calm : f.workspace.reviewer.registry.outbox = []
  plugins : f.workspace.reviewer.registry.plugins = s.plugins
  active : f.workspace.reviewer.registry.active = s.active
  lock : f.workspace.reviewer.registry.lock = {}
  buffers : f.workspace.reviewer.buffers = documents.mapIdx fun i d => (toString i, d)
  timeout : f.workspace.reviewer.timeout = s.limit
  paired : f.workspace.reviewer.Paired
  flags : ∀ (k : Nat) d, documents[k]? = some d →
    f.workspace.reviewer.sessions.cancelled[k]? = some (isRepeated documents k)
  places : ∀ (k : Nat) d, documents[k]? = some d →
    f.workspace.reviewer.place k = some (toString k, false)
  mine : ∀ t ∈ f.tasks, ∃ (k : Nat) (d : TextDocument), documents[k]? = some d ∧ t.run? = some k
  jobs : ∀ (k : Nat) d, documents[k]? = some d → ∃ phase, StandsIn (s.job documents k d) phase f

variable {s : Workshop} {documents : List TextDocument} {f : Floor} {k : Nat} {d : TextDocument}

/-! ## The beginning -/

theorem filter_begin (n k : Nat) (h : k < n) :
    (((List.range n).map fun k => Task.event (.review (.begin k))).filter
      fun t => decide (t.run? = some k)) = [.event (.review (.begin k))] := by
  have hown : ((List.range n).filter fun i => i == k) = [k] := by
    rw [List.filter_beq, List.count_eq_one_of_mem List.nodup_range (List.mem_range.2 h)]
    rfl
  have hrun : (fun t : Task => decide (t.run? = some k)) ∘ (fun i => .event (.review (.begin i))) =
      fun i => i == k := by
    funext i
    exact decide_eq_decide.2 (by simp [Task.run?])
  rw [List.filter_map, hrun, hown]
  rfl

/-- All jobs are due once the documents have been opened. -/
theorem Opened.stands (h : s.Opened documents documents.length f) : s.Stands documents f where
  calls := h.calls
  outbox := h.outbox
  wishes := h.wishes
  calm := by rw [h.registry]
  plugins := by rw [h.registry]
  active := by rw [h.registry]
  lock := by rw [h.registry]
  buffers := h.buffers
  timeout := h.timeout
  paired n c call := by
    rw [h.waiting n] at call
    split at call
    · exact (Option.some.inj call).symm
    · cases call
  flags k d hk := by
    have huri : ((documents.map TextDocument.uri).take documents.length)[k]? = some d.uri := by
      rw [List.take_of_length_le (Nat.le_of_eq (List.length_map _)), List.getElem?_map, hk]
      rfl
    rw [h.sessions.flags k d.uri huri, List.take_of_length_le (Nat.le_of_eq (List.length_map _)), isRepeated,
      hk]
    rfl
  places k d hk := by
    obtain ⟨run, hrun, hdocument, hdropped, _⟩ := h.runs k (List.getElem?_eq_some_iff.1 hk).1
    simp [Reviewer.place, hrun, hdocument, hdropped]
  mine t ht := by
    rw [h.tasks] at ht
    obtain ⟨k, hk, rfl⟩ := List.mem_map.1 ht
    exact ⟨k, _, List.getElem?_eq_getElem (List.mem_range.1 hk), rfl⟩
  jobs k d hk := by
    have hlt : k < documents.length := (List.getElem?_eq_some_iff.1 hk).1
    obtain ⟨run, hrun, _, _, houtcome⟩ := h.runs k hlt
    refine ⟨.due, trivial, ?_, ?_, ?_⟩
    · have hcheck : f.workspace.reviewer.registry.calls.get? (.run k) = none := by
        rw [h.registry]
        rfl
      have hcall := (h.waiting k).trans (if_pos hlt)
      change Lane.mk _ (f.workspace.reviewer.runs[k]?.bind (·.outcome)) _ = _
      rw [hrun, Option.bind_some, houtcome]
      exact congrArg₂ (Lane.mk · none ·) hcheck hcall
    · rw [h.tasks]
      exact .of_eq (filter_begin _ k hlt)
    · rw [h.replies]
      rfl

/-- At the beginning there is one turn for each run, and each plugin is going to need four. -/
theorem Opened.load (h : s.Opened documents documents.length f) : s.load documents f = s.span documents := by
  have hweights : (List.range documents.length).map
      (Task.weight (s.width documents) ∘ fun k => .event (.review (.begin k))) =
        documents.map fun d => 4 * (s.asked d).length + 2 := by
    refine List.ext_getElem (by simp) fun k _ hk => ?_
    rw [List.length_map] at hk
    simp [Task.weight, width, hk]
  unfold Workshop.load span
  rw [h.tasks, List.map_map, hweights]

/-! ## One turn -/

/-- The review hosts every job. -/
theorem Stands.hosts (h : s.Stands documents f) (willing : s.Willing) (hk : documents[k]? = some d) :
    f.workspace.reviewer.Hosts (s.job documents k d) d where
  document := by
    rw [h.buffers]
    exact find_place documents hk
  timeout := h.timeout
  supporting := by
    have hplugins : f.workspace.reviewer.registry.activePlugins =
        s.plugins.values.filter fun p => s.active.contains p.name := by
      unfold Registry.activePlugins Registry.isActive
      rw [h.plugins, h.active]
    rw [hplugins]
    exact Registry.supporting_eq fun p hp => willing p (List.mem_of_mem_filter hp) d
  place := h.places k d hk
  paired := h.paired
  calm := h.calm
  free := by rw [h.lock]

/-- What a plugin that has been asked answers is what it says about the document. -/
theorem Stands.answers (h : s.Stands documents f) (hk : documents[k]? = some d) (i : Nat) (p : Plugin) :
    Registry.verdictOf p d (f.answerTo s.tools
      ⟨.run k, i, p, .check (toString k) ⟨some (.run k), s.limit⟩⟩) =
        (s.job documents k d).share p := by
  have hdocument : f.workspace.reviewer.document (toString k) = d := by
    unfold Reviewer.document
    rw [h.buffers]
    exact find_place documents hk
  have hoff : f.isOff (some (.run k)) = isRepeated documents k := by
    change f.workspace.reviewer.sessions.cancelled.getD k false = _
    rw [List.getD_eq_getElem?_getD, h.flags k d hk]
    rfl
  unfold Floor.answerTo
  simp only [Question.document?, Question.options, Option.map_some, Option.getD_some, hdocument, hoff,
    Tools.answer_check]
  rfl

/-- What a task of a job is when its turn has come. -/
theorem Stands.comes (h : s.Stands documents f) (hk : documents[k]? = some d) {phase phase' : Phase}
    {t : Task} {new : List Task} (goes : (s.job documents k d).Goes phase t phase' new) :
    ∃ e, f.event s.tools t = .review e ∧ t.Comes (s.job documents k d) d e := by
  cases goes with
  | begins someone => exact ⟨_, rfl, .event _⟩
  | passes nobody => exact ⟨_, rfl, .event _⟩
  | asks part => exact ⟨_, rfl, .event _⟩
  | settles part => exact ⟨_, rfl, .answer _ _ (h.answers hk _ _)⟩
  | gathers all => exact ⟨_, rfl, .event _⟩
  | replies => exact ⟨_, rfl, .event _⟩

/-- What a turn of the review makes of a floor on which nothing else goes on. -/
theorem react_review {lane : Lane} {new : List Task}
    {replies : List (Nat × Outcome Workspace.Reply)} {e : Review.Event}
    (calls : f.workspace.calls = []) (outbox : f.workspace.outbox = [])
    (wishes : f.workspace.reviewer.outbox = [])
    (advances : Reviewer.Advances k lane new replies f.workspace.reviewer (f.workspace.reviewer.step e)) :
    f.react (.review e) =
      { workspace :=
          { f.workspace with
            reviewer := { f.workspace.reviewer.step e with outbox := [] }
            outbox := [] }
        tasks := f.tasks ++ new
        replies := f.replies ++ replies } := by
  obtain ⟨out, htell, htasks, hreplies⟩ := Workspace.tellReview_eq calls outbox e
  rw [advances.tasks, Reviewer.tasks, wishes] at htasks
  rw [advances.replies, Reviewer.replies, wishes] at hreplies
  change Floor.mk _ _ _ = _
  change f.workspace.step (.review e) = _ at htell
  simp [htell, htasks, hreplies]

/-- The job whose task has had its turn stands in the phase that comes next. -/
theorem StandsIn.goes {j : Job} {phase phase' : Phase} {t : Task} {new rest : List Task} {f' : Floor}
    (h : StandsIn j phase f) (goes : j.Goes phase t phase' new) (turn : f.tasks.Perm (t :: rest))
    (lane : f'.workspace.reviewer.lane j.run = phase'.lane j) (tasks : f'.tasks = rest ++ new)
    (replies : f'.replies = f.replies ++ phase'.replies j) : StandsIn j phase' f' where
  fits := goes.fits h.fits
  lane := lane
  tasks := by
    obtain ⟨others, hbefore, hafter⟩ := goes.tasks
    obtain ⟨hown, hnew⟩ := goes.own
    have hturn := turn.filter fun t => decide (t.run? = some j.run)
    rw [List.filter_cons_of_pos (by simp [hown])] at hturn
    have hrest := ((hturn.symm.trans h.tasks).trans hbefore).cons_inv
    have hall : (new.filter fun t => decide (t.run? = some j.run)) = new :=
      List.filter_eq_self.2 fun t' ht' => decide_eq_true (hnew t' ht')
    rw [tasks, List.filter_append, hall]
    exact (hrest.append_right new).trans hafter.symm
  replies := by
    have hbefore : phase.replies j = [] := by cases goes <;> rfl
    rw [replies, List.filter_append, h.replies, hbefore]
    cases goes <;> simp [Phase.replies]

/-- The other jobs stand where they stood. -/
theorem StandsIn.other {j j' : Job} {phase phase' stay : Phase} {t : Task} {new rest : List Task}
    {f' : Floor} (h : StandsIn j' stay f) (goes : j.Goes phase t phase' new)
    (turn : f.tasks.Perm (t :: rest)) (apart : j'.run ≠ j.run)
    (lane : f'.workspace.reviewer.lane j'.run = f.workspace.reviewer.lane j'.run)
    (tasks : f'.tasks = rest ++ new) (replies : f'.replies = f.replies ++ phase'.replies j) :
    StandsIn j' stay f' where
  fits := h.fits
  lane := lane.trans h.lane
  tasks := by
    obtain ⟨hown, hnew⟩ := goes.own
    have hturn := turn.filter fun t => decide (t.run? = some j'.run)
    rw [List.filter_cons_of_neg (by simp [hown, apart.symm])] at hturn
    have hnone : (new.filter fun t => decide (t.run? = some j'.run)) = [] :=
      List.filter_eq_nil_iff.2 fun t' ht' => by simp [hnew t' ht', apart.symm]
    rw [tasks, List.filter_append, hnone, List.append_nil]
    exact hturn.symm.trans h.tasks
  replies := by
    have hnone : ((phase'.replies j).filter fun e => e.1 == j'.run) = [] := by
      cases phase' <;> simp [Phase.replies, apart.symm]
    rw [replies, List.filter_append, hnone, List.append_nil]
    exact h.replies

/-- One task has its turn: its job goes on by a phase, and what is still to be done weighs less. -/
theorem Stands.turn (h : s.Stands documents f) (willing : s.Willing) {i : Nat} {t : Task}
    (ht : f.tasks[i]? = some t) :
    s.Stands documents ({ f with tasks := f.tasks.eraseIdx i }.react (f.event s.tools t)) ∧
      s.load documents ({ f with tasks := f.tasks.eraseIdx i }.react (f.event s.tools t)) <
        s.load documents f := by
  have hturn := Registry.World.perm_of_getElem? ht
  obtain ⟨k, d, hk, hown⟩ := h.mine t (List.mem_of_getElem? ht)
  obtain ⟨phase, hphase⟩ := h.jobs k d hk
  have hmem : t ∈ phase.tasks (s.job documents k d) :=
    hphase.tasks.mem_iff.1 (List.mem_filter.2 ⟨List.mem_of_getElem? ht, decide_eq_true hown⟩)
  obtain ⟨phase', new, goes⟩ := Job.exists_goes hmem
  obtain ⟨e, hevent, hcomes⟩ := h.comes hk goes
  have hadvances := goes.advances (h.hosts willing hk) hphase.fits hphase.lane hcomes
  have hreact := react_review (f := { f with tasks := f.tasks.eraseIdx i }) h.calls h.outbox h.wishes
    hadvances
  have hkeeps := hadvances.keeps
  rw [hevent, hreact]
  constructor
  · constructor
    case calls => exact h.calls
    case outbox => rfl
    case wishes => rfl
    case calm => exact hkeeps.calm.trans h.calm
    case plugins => exact hkeeps.plugins.trans h.plugins
    case active => exact hkeeps.active.trans h.active
    case lock => exact hkeeps.lock.trans h.lock
    case buffers => exact hkeeps.buffers.trans h.buffers
    case timeout => exact hkeeps.timeout.trans h.timeout
    case paired => exact hadvances.paired
    case flags =>
      intro n d' hn
      exact (congrArg (·[n]?) hkeeps.cancelled).trans (h.flags n d' hn)
    case places => exact fun n d' hn => (hkeeps.place n).trans (h.places n d' hn)
    case mine =>
      intro t' ht'
      rcases List.mem_append.1 ht' with hold | hnew
      · exact h.mine t' (List.mem_of_mem_eraseIdx hold)
      · exact ⟨k, d, hk, goes.own.2 t' hnew⟩
    case jobs =>
      intro n d' hn
      by_cases hnk : n = k
      · subst hnk
        obtain rfl : d = d' := Option.some.inj (hk.symm.trans hn)
        exact ⟨phase', hphase.goes goes hturn hadvances.lane rfl rfl⟩
      · obtain ⟨stay, hstay⟩ := h.jobs n d' hn
        exact ⟨stay, hstay.other goes hturn hnk (hadvances.others n hnk) rfl rfl⟩
  · have hwidth : s.width documents k = (s.asked d).length := by rw [width, hk]; rfl
    have hless : (new.map (Task.weight (s.width documents))).sum < t.weight (s.width documents) :=
      goes.weight hwidth
    have hbefore := (hturn.map (Task.weight (s.width documents))).sum_nat
    rw [List.map_cons, List.sum_cons] at hbefore
    have hafter : ((f.tasks.eraseIdx i ++ new).map (Task.weight (s.width documents))).sum =
        ((f.tasks.eraseIdx i).map (Task.weight (s.width documents))).sum +
          (new.map (Task.weight (s.width documents))).sum := by
      rw [List.map_append, List.sum_append]
    change ((f.tasks.eraseIdx i ++ new).map (Task.weight (s.width documents))).sum <
      (f.tasks.map (Task.weight (s.width documents))).sum
    omega

/-! ## All turns -/

/-- A turn that is taken is one that is due; when nothing is left nothing happens. -/
theorem Stands.step (h : s.Stands documents f) (willing : s.Willing) (pick : Nat) :
    s.Stands documents (f.step s.tools pick) ∧
      ((f.step s.tools pick).tasks = [] ∨ s.load documents (f.step s.tools pick) < s.load documents f) := by
  unfold Floor.step
  split
  · rename_i t ht
    obtain ⟨hstands, hless⟩ := h.turn willing ht
    exact ⟨hstands, .inr hless⟩
  · rename_i hnone
    have hempty : f.tasks = [] := by
      by_contra hne
      have hlt := Nat.mod_lt pick (List.length_pos_of_ne_nil hne)
      rw [List.getElem?_eq_getElem hlt] at hnone
      cases hnone
    exact ⟨h, .inl hempty⟩

/-- However the turns are taken, the jobs stand, and each turn has brought them nearer to their end. -/
theorem floor_stands (willing : s.Willing) (shell : ∀ d ∈ documents, d.isShell = true)
    (picks : Nat → Nat) (t : Nat) :
    s.Stands documents (s.floor documents picks t) ∧
      ((s.floor documents picks t).tasks = [] ∨
        s.load documents (s.floor documents picks t) + t ≤ s.span documents) := by
  induction t with
  | zero =>
      have hopened := s.opened_all shell
      exact ⟨hopened.stands, .inr (Nat.le_of_eq hopened.load)⟩
  | succ t ih =>
      obtain ⟨hstands, hbound⟩ := ih
      obtain ⟨hnext, hover | hless⟩ := hstands.step willing (picks t)
      · exact ⟨hnext, .inl hover⟩
      · refine ⟨hnext, .inr ?_⟩
        rcases hbound with hempty | hbound
        · have hzero : s.load documents (s.floor documents picks t) = 0 := by
            rw [load, hempty]
            rfl
          omega
        · change s.load documents ((s.floor documents picks t).step s.tools (picks t)) + (t + 1) ≤ _
          omega

/-- After so many turns nothing is left to happen. -/
theorem floor_over (willing : s.Willing) (shell : ∀ d ∈ documents, d.isShell = true)
    (picks : Nat → Nat) {t : Nat} (late : s.span documents ≤ t) :
    (s.floor documents picks t).tasks = [] := by
  obtain ⟨hstands, hover | hbound⟩ := floor_stands willing shell picks t
  · exact hover
  · have hload : s.load documents (s.floor documents picks t) = 0 := by omega
    refine List.eq_nil_iff_forall_not_mem.2 fun task htask => ?_
    have hzero := List.sum_eq_zero_iff_forall_eq_nat.1 hload _ (List.mem_map_of_mem htask)
    have hpositive : 0 < task.weight (s.width documents) := by
      unfold Workspace.Task.weight
      split <;> omega
    omega

/-- Each call has one reply: what the plugins say about its document. -/
theorem floor_replies (willing : s.Willing) (shell : ∀ d ∈ documents, d.isShell = true)
    (picks : Nat → Nat) {t : Nat} (late : s.span documents ≤ t) (hk : documents[k]? = some d) :
    ((s.floor documents picks t).replies.filter fun e => e.1 == k) =
      [(k, .done (.review (.verdict (some (s.verdict (isRepeated documents k) d)))))] := by
  obtain ⟨hstands, _⟩ := floor_stands willing shell picks t
  obtain ⟨phase, hphase⟩ := hstands.jobs k d hk
  have hover := hphase.tasks
  rw [floor_over willing shell picks late] at hover
  obtain rfl := Job.eq_replied hover.symm.eq_nil
  exact hphase.replies

end Shellwright.Workshop
