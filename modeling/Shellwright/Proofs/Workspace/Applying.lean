import Shellwright.Proofs.Workspace.Settling
/-!
# Settings that are applied

No other call is under way when settings are applied. Plugins are rebuilt if the settings concern them,
and then all open documents are checked.
-/

namespace Shellwright

namespace Workspace

/-- The event is about a part of a call. -/
def isPart (e : Review.Event) : Bool :=
  e.about?.isSome

/-- The parts of calls that have been put off. -/
def parts (w : Workspace) : List Review.Event :=
  (w.outbox.filterMap Effect.chore?).filter isPart

def replies (w : Workspace) : List (Nat × Outcome Reply) :=
  w.outbox.filterMap Effect.reply?

/-- The calls are `calls` and those of the review `reviews` now; these parts of them have been put off,
these replies given and so many runs have been dispatched. -/
structure Proceeds (calls : Keyed Nat Stage) (reviews : Keyed Nat Review.Call)
    (parts : List Review.Event) (replies : List (Nat × Outcome Reply)) (fresh : Nat)
    (w w' : Workspace) : Prop where
  calls : w'.calls = calls
  reviews : w'.reviewer.calls = reviews
  documents : w'.documents = w.documents
  buffers : w'.reviewer.buffers = w.reviewer.buffers
  parts : w'.parts = w.parts ++ parts
  replies : w'.replies = w.replies ++ replies
  runs : w'.reviewer.runs.length = w.reviewer.runs.length + fresh

open Review

variable {w w' w'' : Workspace} {calls calls' : Keyed Nat Stage} {reviews reviews' : Keyed Nat Call}
  {ps ps' : List Review.Event} {rs rs' : List (Nat × Outcome Reply)} {es : List Ending}
  {fresh fresh' n : Nat}

theorem Proceeds.trans (h : Proceeds calls reviews ps rs fresh w w')
    (h' : Proceeds calls' reviews' ps' rs' fresh' w' w'') :
    Proceeds calls' reviews' (ps ++ ps') (rs ++ rs') (fresh + fresh') w w'' where
  calls := h'.calls
  reviews := h'.reviews
  documents := h'.documents.trans h.documents
  buffers := h'.buffers.trans h.buffers
  parts := by rw [h'.parts, h.parts, List.append_assoc]
  replies := by rw [h'.replies, h.replies, List.append_assoc]
  runs := by rw [h'.runs, h.runs, Nat.add_assoc]

theorem emit_proceeds (w : Workspace) (e : Effect) :
    Proceeds w.calls w.reviewer.calls (e.chore?.toList.filter isPart) e.reply?.toList 0 w
      (w.emit e) := by
  refine ⟨rfl, rfl, rfl, rfl, ?_, ?_, rfl⟩
  · unfold parts emit
    rw [List.filterMap_append, List.filter_append]
    cases h : e.chore? <;> simp [h]
  · unfold replies emit
    rw [List.filterMap_append]
    cases h : e.reply? <;> simp [h]

theorem log_proceeds (w : Workspace) (level : LogLevel) (text : String) :
    Proceeds w.calls w.reviewer.calls [] [] 0 w (w.log level text) :=
  emit_proceeds w (.log ⟨level, .workspace, text⟩)

theorem setCall_proceeds (w : Workspace) (n : Nat) (stage : Stage) :
    Proceeds (w.calls.put n stage) w.reviewer.calls [] [] 0 w (w.setCall n stage) :=
  ⟨rfl, rfl, rfl, rfl, (List.append_nil _).symm, (List.append_nil _).symm, rfl⟩

theorem finish_proceeds (w : Workspace) (n : Nat) (outcome : Outcome Reply) :
    Proceeds (w.calls.drop n) w.reviewer.calls [] [(n, outcome)] 0 w (w.finish n outcome) := by
  have hended : Proceeds (w.calls.drop n) w.reviewer.calls [] [(n, outcome)] 0
      { w with calls := w.calls.drop n } (w.finish n outcome) :=
    emit_proceeds { w with calls := w.calls.drop n } (.finish n outcome)
  exact ⟨hended.calls, hended.reviews, hended.documents, hended.buffers, hended.parts,
    hended.replies, hended.runs⟩

/-! ## Steps of the review -/

theorem foldl_absorb_parts (effects : List Review.Effect) (w : Workspace) :
    (effects.foldl absorb w).parts = w.parts ++ effects.filterMap Review.Effect.part? := by
  induction effects generalizing w with
  | nil => simp
  | cons effect rest ih =>
      have hfirst : (w.absorb effect).parts = w.parts ++ (Review.Effect.part? effect).toList := by
        cases effect with
        | later event => cases event <;> exact (emit_proceeds w _).parts
        | finish n outcome => exact (List.append_nil _).symm
        | finishRegistry n outcome => exact (List.append_nil _).symm
        | _ => exact (emit_proceeds w _).parts
      rw [List.foldl_cons, ih, hfirst, List.append_assoc]
      cases h : Review.Effect.part? effect <;> simp [h]

/-- What the review does in a step; the calls that it ends are returned. -/
theorem tell_proceeds (calm : w.reviewer.outbox = []) {e : Review.Event}
    (h : Reviewer.Proceeds reviews ps es fresh w.reviewer (w.reviewer.step e)) :
    Proceeds w.calls reviews ps [] fresh w (w.tell e).1 ∧ (w.tell e).2 = es := by
  have hparts : w.reviewer.parts = [] := by rw [Reviewer.parts, calm]; rfl
  have hreports : w.reviewer.reports = [] := by rw [Reviewer.reports, calm]; rfl
  have htold : (w.tell e).1.parts = w.parts ++ (w.reviewer.step e).parts := foldl_absorb_parts _ _
  have hreplies : (w.tell e).1.replies = w.replies := foldl_absorb_replies _ _
  rw [h.parts, hparts, List.nil_append] at htold
  obtain ⟨out, hout⟩ := tell_eq w e
  rw [hout] at htold hreplies ⊢
  refine ⟨⟨rfl, h.calls, rfl, h.buffers, htold, ?_, h.runs⟩, ?_⟩
  · rw [hreplies, List.append_nil]
  · exact h.reports.trans (by rw [hreports, List.nil_append])

/-- The review takes a step in which no call ends. -/
theorem tellReview_proceeds (calm : w.reviewer.outbox = []) {e : Review.Event}
    (h : Reviewer.Proceeds reviews ps [] fresh w.reviewer (w.reviewer.step e)) :
    Proceeds w.calls reviews ps [] fresh w (w.tellReview e) := by
  obtain ⟨hproceeds, hnone⟩ := tell_proceeds calm h
  unfold tellReview
  simp only [hnone]
  exact hproceeds

/-- The documents are going to be checked, or there are none to be checked. -/
inductive Sweeps (n : Nat) (targets : List String) (w w' : Workspace) : Prop
  | nothing (none : targets = []) (proceeds : Proceeds [] [] [] [(n, .done .settled)] 0 w w')
  | waits (some : targets ≠ [])
      (proceeds : Proceeds [(n, .diagnosing)] [(n, ⟨.several (targets.map (·, .waiting)), false⟩)]
        ((List.range targets.length).map (.member n ·)) [] 0 w w')

/-- How the call ends whose documents have been checked. -/
def concluded : Outcome Review.Reply → Outcome Reply
  | .done _ => .done .settled
  | .raised trouble => .raised trouble
  | .aborted => .aborted

theorem conclude_review (calls : w.calls = [(n, .diagnosing)]) (outcome : Outcome Review.Reply) :
    Proceeds [] w.reviewer.calls [] [(n, concluded outcome)] 0 w (w.conclude (.review n outcome)) := by
  have hcall : w.calls.get? n = some .diagnosing := by simp [calls, Keyed.get?]
  have hdrop : w.calls.drop n = [] := by simp [calls, Keyed.drop]
  have hfinish (outcome : Outcome Reply) :
      Proceeds [] w.reviewer.calls [] [(n, outcome)] 0 w (w.finish n outcome) :=
    hdrop ▸ finish_proceeds w n outcome
  unfold conclude
  cases outcome <;> simp only [hcall] <;> exact hfinish _

variable {targets : List String} {stage : Stage}

/-- The call goes on to have all open documents checked. -/
theorem setCall_tell (calls : w.calls.put n .diagnosing = [(n, .diagnosing)])
    (reviews : w.reviewer.calls = []) (calm : w.reviewer.outbox = [])
    (shell : (w.documents.values.filter fun name => (w.reviewer.document name).isShell) = targets) :
    if targets = [] then
      Proceeds [(n, .diagnosing)] [] [] [] 0 w
          ((w.setCall n .diagnosing).tell (.call n (.diagnoseAll w.documents.values))).1 ∧
        ((w.setCall n .diagnosing).tell (.call n (.diagnoseAll w.documents.values))).2 =
          [.review n (.done (.verdicts []))]
    else
      Proceeds [(n, .diagnosing)] [(n, ⟨.several (targets.map (·, .waiting)), false⟩)]
          ((List.range targets.length).map (.member n ·)) [] 0 w
          ((w.setCall n .diagnosing).tell (.call n (.diagnoseAll w.documents.values))).1 ∧
        ((w.setCall n .diagnosing).tell (.call n (.diagnoseAll w.documents.values))).2 = [] := by
  have hset := setCall_proceeds w n .diagnosing
  rw [calls, reviews] at hset
  have hreview := Reviewer.diagnoseAll_proceeds (r := (w.setCall n .diagnosing).reviewer) reviews n
    shell
  split
  · rename_i hnone
    rw [if_pos hnone] at hreview
    obtain ⟨htold, hends⟩ := tell_proceeds (w := w.setCall n .diagnosing) calm hreview
    rw [hset.calls] at htold
    exact ⟨hset.trans htold, hends⟩
  · rename_i hsome
    rw [if_neg hsome] at hreview
    obtain ⟨htold, hends⟩ := tell_proceeds (w := w.setCall n .diagnosing) calm hreview
    rw [hset.calls] at htold
    exact ⟨hset.trans htold, hends⟩

theorem finish_checked (calls : w.calls = [(n, .diagnosing)]) (reviews : w.reviewer.calls = [])
    (outcome : Outcome Reply) :
    Proceeds [] [] [] [(n, outcome)] 0 w (w.finish n outcome) := by
  have hfinish := finish_proceeds w n outcome
  have hdrop : w.calls.drop n = [] := by simp [calls, Keyed.drop]
  rwa [hdrop, reviews] at hfinish

theorem sweep_sweeps (calls : w.calls.put n .diagnosing = [(n, .diagnosing)])
    (reviews : w.reviewer.calls = []) (calm : w.reviewer.outbox = [])
    (shell : (w.documents.values.filter fun name => (w.reviewer.document name).isShell) = targets) :
    Sweeps n targets w
      ((w.setCall n .diagnosing).tellReview (.call n (.diagnoseAll w.documents.values))) := by
  have htell := setCall_tell calls reviews calm shell
  unfold tellReview
  split at htell
  · rename_i hnone
    obtain ⟨htold, hends⟩ := htell
    have hconclude := conclude_review htold.calls (.done (.verdicts []))
    rw [htold.reviews] at hconclude
    simp only [hends, List.foldl_cons, List.foldl_nil]
    exact .nothing hnone (htold.trans hconclude)
  · rename_i hsome
    obtain ⟨htold, hends⟩ := htell
    simp only [hends]
    exact .waits hsome htold

/-- The plugins are in place. -/
theorem conclude_sweeps (calls : w.calls = [(n, .rebuilding)]) (reviews : w.reviewer.calls = [])
    (calm : w.reviewer.outbox = [])
    (shell : (w.documents.values.filter fun name => (w.reviewer.document name).isShell) = targets)
    (count : Nat) : Sweeps n targets w (w.conclude (.registry n (.done (.count count)))) := by
  have hcall : w.calls.get? n = some .rebuilding := by simp [calls, Keyed.get?]
  have hput : w.calls.put n .diagnosing = [(n, .diagnosing)] := by simp [calls, Keyed.put]
  unfold conclude
  simp only [hcall]
  have hlog := log_proceeds w .info s!"configuration changed, {count} plugin(s) active"
  rw [calls, reviews] at hlog
  have htell := setCall_tell (w := w.log .info s!"configuration changed, {count} plugin(s) active")
    hput reviews calm shell
  split at htell
  · rename_i hnone
    obtain ⟨htold, hends⟩ := htell
    have hfinish := finish_checked htold.calls htold.reviews (.done .settled)
    rw [hends, List.isEmpty_cons, if_neg Bool.false_ne_true]
    exact .nothing hnone ((hlog.trans htold).trans hfinish)
  · rename_i hsome
    obtain ⟨htold, hends⟩ := htell
    rw [hends, List.isEmpty_nil, if_pos rfl]
    exact .waits hsome (hlog.trans htold)

/-! ## Documents that are open -/

/-- The open documents that are shell scripts. -/
def shellDocuments (w : Workspace) : List String :=
  w.documents.values.filter fun name => (w.reviewer.document name).isShell

theorem Proceeds.shellDocuments (h : Proceeds calls reviews ps rs fresh w w') :
    w'.shellDocuments = w.shellDocuments := by
  unfold Workspace.shellDocuments Reviewer.document
  rw [h.documents, h.buffers]

/-- What comes before it ends no call. -/
theorem Sweeps.after (h : Sweeps n targets w' w'') (before : Proceeds calls reviews [] [] 0 w w') :
    Sweeps n targets w w'' := by
  cases h with
  | nothing none proceeds => exact .nothing none (before.trans proceeds)
  | waits some proceeds => exact .waits some (before.trans proceeds)

/-- Without calls of its own the review leaves those of the workspace as they are. -/
theorem quiet_proceeds (reviews : w.reviewer.calls = []) (calm : w.Calm) {e : Review.Event}
    (inner : e.inner = true) (quiet : (w.reviewer.reached e).hostEnds = []) :
    ∃ fresh, (fresh = 0 ∨ ∃ timer, e = .elapsed timer) ∧
      Proceeds w.calls [] [] [] fresh w (w.tellReview e) := by
  obtain ⟨fresh, htimer, hproceeds⟩ := Reviewer.step_proceeds reviews calm.registry inner
  rw [quiet] at hproceeds
  exact ⟨fresh, htimer, tellReview_proceeds calm.reviewer hproceeds⟩

/-- The plugins that the call waits for are in place, so that the documents can be checked. -/
theorem rebuilt_sweeps (calls : w.calls = [(n, .rebuilding)]) (reviews : w.reviewer.calls = [])
    (calm : w.Calm) {e : Review.Event} (inner : e.inner = true) {count : Nat}
    (ends : (w.reviewer.reached e).hostEnds = [.registry n (.done (.count count))]) :
    Sweeps n w.shellDocuments w (w.tellReview e) := by
  obtain ⟨fresh, htimer, hproceeds⟩ := Reviewer.step_proceeds reviews calm.registry inner
  have hfresh : fresh = 0 := by
    refine htimer.resolve_right ?_
    rintro ⟨timer, rfl⟩
    have hidle : (w.reviewer.reached (.elapsed timer)).hostEnds = [] := by
      change w.reviewer.registry.hostEnds = []
      rw [Reviewer.hostEnds_eq, show w.reviewer.registry.outbox = [] from calm.registry]
      rfl
    rw [hidle] at ends
    cases ends
  subst hfresh
  rw [ends] at hproceeds
  obtain ⟨htold, hends⟩ := tell_proceeds calm.reviewer hproceeds
  have hcalm : (w.tell e).1.reviewer.outbox = [] := by
    obtain ⟨out, hout⟩ := tell_eq w e
    rw [hout]
  have hsweeps := conclude_sweeps (htold.calls.trans calls)
    htold.reviews hcalm htold.shellDocuments count
  unfold tellReview
  simp only [hends, List.foldl_cons, List.foldl_nil]
  exact hsweeps.after htold

/-! ## Members that are checked -/

/-- What an event is to a call that has the members checked. -/
inductive Follows (n : Nat) (members : List (String × Member)) (e : Review.Event)
    (w w' : Workspace) : Prop
  | rests (fresh : Nat) (still : fresh = 0 ∨ ∃ timer, e = .elapsed timer)
      (proceeds : Proceeds w.calls w.reviewer.calls [] [] fresh w w')
  | checks (i : Nat) (name : String) (event : e = .member n i)
      (waiting : members[i]? = some (name, .waiting))
      (desk : w'.desk = w.desk.diagnose (w.reviewer.document name).uri name)
      (proceeds : Proceeds w.calls [(n, ⟨.several
        (Reviewer.setMember members i (.running w.reviewer.runs.length)), false⟩)] [] [] 1 w w')
  | settles (run : Nat) (verdict : Verdict)
      (proceeds : Proceeds w.calls [(n, ⟨.several (settle members run verdict), false⟩)]
        (if Reviewer.allSettled (settle members run verdict) then [.gathered n] else []) [] 0 w w')
  | ended (outcome : Outcome Review.Reply)
      (complete : ∀ reply, outcome = .done reply → e = .gathered n)
      (proceeds : Proceeds [] [] [] [(n, concluded outcome)] 0 w w')

theorem tellReview_follows {members : List (String × Member)} (calls : w.calls = [(n, .diagnosing)])
    (reviews : w.reviewer.calls = [(n, ⟨.several members, false⟩)]) (calm : w.Calm)
    {e : Review.Event} (inner : e.inner = true)
    (due : ∀ i, e = .member n i → ∃ name, members[i]? = some (name, .waiting))
    (shell : ∀ name ∈ members.map Prod.fst, (w.reviewer.document name).isShell = true)
    (quiet : (w.reviewer.reached e).hostEnds = []) : Follows n members e w (w.tellReview e) := by
  cases Reviewer.step_follows reviews calm.registry inner due shell quiet with
  | rests fresh still proceeds => exact .rests fresh still (tellReview_proceeds calm.reviewer proceeds)
  | checks i name event waiting desk proceeds =>
      refine .checks i name event waiting ?_ (tellReview_proceeds calm.reviewer proceeds)
      rw [(tell_rests w e).desk, tell_desk]
      exact desk
  | settles run verdict proceeds =>
      exact .settles run verdict (tellReview_proceeds calm.reviewer proceeds)
  | ended outcome complete proceeds =>
      obtain ⟨htold, hends⟩ := tell_proceeds calm.reviewer proceeds
      have hconclude := conclude_review (htold.calls.trans calls) outcome
      rw [htold.reviews] at hconclude
      refine .ended outcome complete ?_
      unfold tellReview
      simp only [hends, List.foldl_cons, List.foldl_nil]
      exact htold.trans hconclude

/-! ## The call that applies settings -/

theorem foldl_log_proceeds (records : List LogRecord) (w : Workspace) :
    Proceeds w.calls w.reviewer.calls [] [] 0 w
      (records.foldl (fun w record => w.emit (.log record)) w) := by
  induction records generalizing w with
  | nil => exact ⟨rfl, rfl, rfl, rfl, (List.append_nil _).symm, (List.append_nil _).symm, rfl⟩
  | cons record rest ih =>
      exact (emit_proceeds w (.log record)).trans (ih (w.emit (.log record)))

theorem configure_eq (calm : w.reviewer.outbox = []) (debounce : Option Int)
    (timeout : Option Execution.Limit) (onChange : Bool) :
    w.tellReview (.configure debounce timeout onChange) =
      { w with reviewer := { w.reviewer with
          debounce := debounce, timeout := timeout, onChange := onChange } } := by
  have hout : (w.reviewer.step (.configure debounce timeout onChange)).outbox = [] := calm
  have hsame : { w.reviewer.step (.configure debounce timeout onChange) with outbox := [] } =
      { w.reviewer with debounce := debounce, timeout := timeout, onChange := onChange } := by
    rw [← calm]
    rfl
  unfold tellReview tell
  simp only [hout, hsame]
  rfl

/-- The settings are in force and the documents count as open. -/
def prepare (w : Workspace) (settings : Settings) (documents : List String) : Workspace :=
  { documents.foldl trackNew w with
    settings := settings
    reviewer := { w.reviewer with
      debounce := some (settings.diagnosis.debounce : Int)
      timeout := some (.milliseconds settings.diagnosis.timeout)
      onChange := settings.diagnosis.onChange } }

variable {settings : Settings} {documents : List String}

theorem prepare_eq (calm : w.reviewer.outbox = []) (settings : Settings) (documents : List String) :
    Workspace.tellReview { documents.foldl trackNew w with settings := settings }
        (.configure (some (settings.diagnosis.debounce : Int))
          (some (.milliseconds settings.diagnosis.timeout)) settings.diagnosis.onChange) =
      w.prepare settings documents := by
  obtain ⟨open_, hopen⟩ := foldl_trackNew_eq documents w
  unfold prepare
  rw [hopen]
  exact configure_eq (w := { w with documents := open_, settings := settings }) calm _ _ _

/-- What concerns plugins is left as it is, but for the settings. -/
theorem prepare_same (w : Workspace) (settings : Settings) (documents : List String) :
    (w.prepare settings documents).calls = w.calls ∧
      (w.prepare settings documents).outbox = w.outbox ∧
      (w.prepare settings documents).loader = w.loader ∧
      (w.prepare settings documents).made = w.made := by
  obtain ⟨open_, hopen⟩ := foldl_trackNew_eq documents w
  unfold prepare
  rw [hopen]
  exact ⟨rfl, rfl, rfl, rfl⟩

/-- How the call begins: it fails, waits for plugins, or has the documents checked. -/
inductive Begins (w : Workspace) (n : Nat) (settings : Settings) (documents : List String)
    (w' : Workspace) : Prop
  | fails (failure : LoadFailure) (unordered : w.order? (.call n (.apply settings documents)) = none)
      (proceeds : Proceeds [] [] [] [(n, .raised (.loading failure))] 0
        (w.prepare settings documents) w')
  | orders (o : Order) (order : w.order? (.call n (.apply settings documents)) = some o)
      (rebuilds : (w.reached (.call n (.apply settings documents))).hostEnds = [] →
        Proceeds [(n, .rebuilding)] [] [] [] 0 (w.prepare settings documents) w')
      (sweeps : ∀ count, (w.reached (.call n (.apply settings documents))).hostEnds =
          [.registry n (.done (.count count))] →
        Sweeps n (w.prepare settings documents).shellDocuments (w.prepare settings documents) w')
  | keeps (affects : w.settings.affectsPlugins settings = false)
      (unordered : w.order? (.call n (.apply settings documents)) = none)
      (sweeps : Sweeps n (w.prepare settings documents).shellDocuments
        (w.prepare settings documents) w')

/-- The plugins are built, and the registry is to put them in place. -/
theorem rebuild_begins (calls : w.calls = []) (reviews : w.reviewer.calls = []) (calm : w.Calm)
    (n : Nat) (affects : w.settings.affectsPlugins settings = true) :
    Begins w n settings documents ((w.prepare settings documents).rebuild n .rebuilding
      (some (w.registry.activeNames ++ w.settings.retriedTools settings))) := by
  obtain ⟨hcalls, houtbox, hloader, hmade⟩ := prepare_same w settings documents
  generalize hw₁ : w.prepare settings documents = w₁ at *
  have hreviews : w₁.reviewer.calls = [] := hw₁ ▸ reviews
  have hsettings : w₁.settings = settings := hw₁ ▸ rfl
  have hcalm : w₁.Calm := hw₁ ▸ ⟨calm.reviewer, calm.registry⟩
  have hreached (told : Registry.Event) :
      w₁.reviewer.reached (.registry told) = w.registry.step w.reviewer.buffers told := hw₁ ▸ rfl
  unfold rebuild
  rw [hloader]
  cases hload : w.loader.load with
  | error failure =>
      have hfinish := finish_proceeds w₁ n (.raised (.loading failure))
      rw [hcalls, calls, hreviews] at hfinish
      have hnone : w.order? (.call n (.apply settings documents)) = none := by
        simp [order?, Request.blueprint?, hload]
      exact hw₁ ▸ .fails failure hnone (hw₁ ▸ hfinish)
  | ok loaded =>
      obtain ⟨factories, log⟩ := loaded
      have hfactories : w.factories = factories := by rw [Workspace.factories, hload]
      have horder : w.order? (.call n (.apply settings documents)) = some
          ⟨n, ⟨settings, w.made, some (w.settings.retriedTools settings)⟩, w.registry.activeNames⟩ := by
        simp [order?, Request.blueprint?, hload, affects]
      have hlogs := foldl_log_proceeds
        (log ++ (Plugin.build w₁.settings w₁.made factories).2.2) w₁
      obtain ⟨out, hout⟩ := foldl_emit_eq
        (log ++ (Plugin.build w₁.settings w₁.made factories).2.2) w₁
      simp only
      rw [hout] at hlogs ⊢
      generalize hw₂ : ({ w₁ with
        outbox := out
        made := (Plugin.build w₁.settings w₁.made factories).2.1 } : Workspace).setCall n
          .rebuilding = w₂
      have hset : Proceeds [(n, .rebuilding)] [] [] [] 0 w₁ w₂ := by
        subst hw₂
        refine ⟨?_, hreviews, rfl, rfl, hlogs.parts, hlogs.replies, rfl⟩
        change w₁.calls.put n .rebuilding = _
        rw [hcalls, calls]
        rfl
      have hcalm₂ : w₂.Calm := hw₂ ▸ ⟨hcalm.reviewer, hcalm.registry⟩
      have hreached : w.reached (.call n (.apply settings documents)) =
          w₂.reviewer.reached (.registry (.call (.host n)
            (.replace (Plugin.build w₁.settings w₁.made factories).1
              (some (w.registry.activeNames ++ w.settings.retriedTools settings))))) := by
        unfold reached
        rw [conveyed_of_order horder, hfactories, hsettings, hmade, ← hw₂]
        exact (hreached _).symm
      rw [← hw₁]
      refine .orders _ horder (fun hnone => ?_) fun count hends => ?_
      · rw [hreached] at hnone
        obtain ⟨fresh, htimer, hproceeds⟩ := quiet_proceeds hset.reviews hcalm₂ rfl hnone
        obtain rfl : fresh = 0 := htimer.resolve_right (by rintro ⟨timer, ⟨⟩⟩)
        rw [hset.calls] at hproceeds
        rw [hw₁]
        exact hset.trans hproceeds
      · rw [hreached] at hends
        have hsweeps := rebuilt_sweeps hset.calls hset.reviews hcalm₂ rfl hends
        rw [hset.shellDocuments] at hsweeps
        rw [hw₁]
        exact hsweeps.after hset

/-- The call of a workspace in which nothing else is under way. -/
theorem apply_begins (calls : w.calls = []) (reviews : w.reviewer.calls = []) (calm : w.Calm)
    (n : Nat) (settings : Settings) (documents : List String) :
    Begins w n settings documents (w.apply n settings documents) := by
  have hold : (documents.foldl trackNew w).settings = w.settings := by
    obtain ⟨open_, hopen⟩ := foldl_trackNew_eq documents w
    rw [hopen]
  unfold apply
  simp only
  rw [prepare_eq calm.reviewer, hold]
  cases haffects : w.settings.affectsPlugins settings with
  | true => exact rebuild_begins calls reviews calm n haffects
  | false =>
      obtain ⟨hcalls, houtbox, hloader, hmade⟩ := prepare_same w settings documents
      have hnone : w.order? (.call n (.apply settings documents)) = none := by
        unfold order? Request.blueprint?
        cases w.loader.load <;> simp [haffects]
      refine .keeps haffects hnone (sweep_sweeps ?_ reviews calm.reviewer rfl)
      rw [hcalls, calls]
      rfl

end Workspace

end Shellwright
