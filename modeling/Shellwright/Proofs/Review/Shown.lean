import Shellwright.Proofs.Review.Faithful
/-!
# What is shown

The diagnostics that are shown for a document are those of the last run that its session has published,
and those of its newest run when this has ended with a conclusive verdict.
-/

namespace Shellwright.Reviewer

open Review

variable {r r' : Reviewer} {may : String → Prop} {b : Buffers} {e : Event}

/-! ## One publication after another -/

theorem not_publishes (h : r'.sink.history = r.sink.history) {k : Nat} {run : Run}
    {session : Session} {verdict : Verdict} : ¬Publishes r r' k run session verdict := by
  intro hpublishes
  rw [hpublishes.sink] at h
  have hlength := congrArg List.length h
  change (r.sink.history ++ [_]).length = _ at hlength
  simp at hlength

/-- A step publishes for one session only. -/
theorem Publishes.session_unique {k k' : Nat} {run run' : Run} {session session' : Session}
    {verdict verdict' : Verdict} (h : Publishes r r' k run session verdict)
    (h' : Publishes r r' k' run' session' verdict') : run'.session = run.session := by
  have hsinks := h'.sink.symm.trans h.sink
  have hhistory : r.sink.history ++ [(session'.uri, verdict'.diagnostics)] =
      r.sink.history ++ [(session.uri, verdict.diagnostics)] := congrArg (·.history) hsinks
  have huri : session'.uri = session.uri := by
    have hlast := List.append_cancel_left hhistory
    exact congrArg (·.1) (List.cons.inj hlast).1
  have hregistered := h'.registered
  rw [huri, h.registered] at hregistered
  exact (Option.some.inj hregistered).symm

/-- How it comes that something is shown for a session, or nothing. -/
inductive Entry (r r' : Reviewer) (uri : String) (n : Nat) : Prop
  | published (k : Nat) (run : Run) (session : Session) (verdict : Verdict)
      (publishes : Publishes r r' k run session verdict) (own : run.session = n)
      (shown : r'.sink.published.get? uri = some verdict.diagnostics)
  | kept (silent : ∀ k run session verdict, Publishes r r' k run session verdict →
        run.session ≠ n)
      (registered : r.sessions.get? uri = some n)
      (shown : r'.sink.published.get? uri = r.sink.published.get? uri)
  | made (silent : ∀ k run session verdict, Publishes r r' k run session verdict →
        run.session ≠ n)
      (new : r.sessions.at? n = none) (shown : r'.sink.published.get? uri = none)

theorem obtain_entry (h : Faithful r.desk) {uri other : String} {n : Nat} {d : Desk}
    (desk : r'.desk = d) (get : ∀ uri, d.sessions.get? uri = (r.sessions.obtain other).1.get? uri)
    (sink : d.sink = r.sink) (registered : r'.sessions.get? uri = some n) :
    Entry r r' uri n := by
  have hsink : r'.sink = r.sink := (congrArg Desk.sink desk).trans sink
  have hsilent : ∀ k run session verdict, Publishes r r' k run session verdict →
      run.session ≠ n := fun k run session verdict hpublishes =>
    absurd hpublishes (not_publishes (congrArg DiagnosticSink.history hsink))
  have hget : (r.sessions.obtain other).1.get? uri = some n := by
    rw [← get, ← desk]
    exact registered
  cases hother : r.sessions.get? other with
  | some m =>
      rw [Sessions.obtain_of_some hother] at hget
      exact .kept hsilent hget (by rw [hsink])
  | none =>
      rw [Sessions.get?_obtain_none hother] at hget
      split at hget
      · rename_i huri
        have hn : r.sessions.all.length = n := Option.some.inj hget
        refine .made hsilent ?_ ?_
        · rw [← hn]
          exact List.getElem?_eq_none (Nat.le_refl _)
        · rw [hsink, huri]
          exact h.hidden other hother
      · exact .kept hsilent hget (by rw [hsink])

theorem entry_of_does (h : Faithful r.desk) (does : Does may b e r.desk r'.desk)
    (running : ∀ n, e ≠ .call n .shutdown) {uri : String} {n : Nat}
    (registered : r'.sessions.get? uri = some n) : Entry r r' uri n := by
  have hsilent (hhistory : r'.sink.history = r.sink.history) : ∀ k run session verdict,
      Publishes r r' k run session verdict → run.session ≠ n :=
    fun k run session verdict hpublishes => absurd hpublishes (not_publishes hhistory)
  cases does with
  | rests sessions runs sink =>
      have hsink : r'.sink = r.sink := sink
      have hsessions : r'.sessions = r.sessions := sessions
      exact .kept (hsilent (congrArg _ hsink)) (hsessions ▸ registered) (by rw [hsink])
  | publishes k run session verdict run_eq session_eq conclusive newest desk =>
      have hpublishes : Publishes r r' k run session verdict :=
        .of_desk h.sound run_eq session_eq newest desk
      have hget : r.sessions.get? uri = some n := by
        have hsessions : r'.sessions = _ := congrArg Desk.sessions desk
        rw [hsessions] at registered
        exact registered
      have hregistered := hpublishes.registered
      by_cases hown : run.session = n
      · refine .published k run session verdict hpublishes hown ?_
        rw [hown] at hregistered
        rw [hpublishes.sink, h.sound.registered_unique hget hregistered]
        exact Keyed.get?_put_self _ session.uri _
      · refine .kept (fun k' run' session' verdict' hother => ?_) hget ?_
        · rw [hpublishes.session_unique hother]
          exact hown
        · rw [hpublishes.sink]
          refine (Keyed.get?_put _ _ uri _).trans (if_neg ?_)
          rintro rfl
          exact hown (Option.some.inj (hregistered.symm.trans hget))
  | diagnoses document allowed shell desk =>
      have hget : ∀ uri, (r.desk.diagnose (b.find document).uri document).sessions.get? uri =
          (r.sessions.obtain (b.find document).uri).1.get? uri :=
        fun uri => Sessions.get?_supersede _ _ uri
      exact obtain_entry h desk hget rfl registered
  | elapses number session debounce event session_eq pending desk =>
      have hsink : r'.sink = r.sink := congrArg Desk.sink desk
      have hsessions : r'.sessions = _ := congrArg Desk.sessions desk
      refine .kept (hsilent (congrArg _ hsink)) ?_ (by rw [hsink])
      rw [hsessions] at registered
      exact (Sessions.get?_supersede (r.sessions.cancelPending number) number uri).symm.trans registered
  | arms document debounce event own desk => exact obtain_entry h desk (fun _ => rfl) rfl registered
  | closes document event desk =>
      have hsink : r'.sink = _ := congrArg Desk.sink desk
      have hsessions : r'.sessions = _ := congrArg Desk.sessions desk
      rw [hsessions] at registered
      have hget := (Sessions.get?_close r.sessions (b.find document).uri uri).symm.trans registered
      split at hget
      · cases hget
      · rename_i hne
        refine .kept (hsilent (by rw [hsink]; rfl)) hget ?_
        rw [hsink]
        exact (Keyed.get?_drop _ _ uri).trans (if_neg hne)
  | shuts n event desk => exact absurd event (running n)

end Shellwright.Reviewer

namespace Shellwright.Review

/-- A review and the runs that are still to begin. -/
structure World where
  reviewer : Reviewer
  due : List Nat := []

inductive Move
  /-- Anything but the beginning of a run; it may be due or not. -/
  | event (e : Event)
  /-- One of the runs that are due begins. -/
  | begin (n : Nat)

namespace World

/-- The review is not shut down. -/
def admits : Event → Bool
  | .call _ .shutdown => false
  | e => Reviewer.Apart e

def event? (w : World) : Move → Option Event
  | .event e => if admits e then some e else none
  | .begin n => w.due[n]?.map .begin

def spend (w : World) : Move → World
  | .event _ => w
  | .begin n => { w with due := w.due.eraseIdx n }

def react (w : World) (e : Event) : World :=
  let r := w.reviewer.step e
  { reviewer := { r with outbox := [] }, due := w.due ++ r.begins }

/-- A move that is not possible changes nothing of the review. -/
def step (w : World) (m : Move) : World :=
  match w.event? m with
  | some e => (w.spend m).react e
  | none => w.spend m

end World

/-- How a review begins, with nothing shown and no call under way, and all that happens to it. -/
structure Schedule where
  plugins : Keyed String Plugin
  active : List String
  buffers : Buffers
  debounce : Option Int
  timeout : Option Execution.Limit
  onChange : Bool
  move : Nat → Move

namespace Schedule

/-- The world after the first `t` moves. -/
def world (s : Schedule) : Nat → World
  | 0 =>
    { reviewer :=
        { registry := { plugins := s.plugins, active := s.active }
          buffers := s.buffers
          debounce := s.debounce
          timeout := s.timeout
          onChange := s.onChange } }
  | t + 1 => (s.world t).step (s.move t)

def reviewer (s : Schedule) (t : Nat) : Reviewer :=
  (s.world t).reviewer

/-- With move `t` run `k` has its verdict published. -/
def Publishes (s : Schedule) (t k : Nat) (run : Run) (session : Session) (verdict : Verdict) : Prop :=
  Reviewer.Publishes (s.reviewer t) (s.reviewer (t + 1)) k run session verdict

/-- No run of session `n` publishes from time `t₁` to `t₂`. -/
def Silent (s : Schedule) (t₁ t₂ n : Nat) : Prop :=
  ∀ t k run session verdict, t₁ ≤ t → t < t₂ → s.Publishes t k run session verdict → run.session ≠ n

/-- The verdict that a run of session `n` has published last before time `t`. -/
def LastPublished (s : Schedule) (t n : Nat) (verdict : Verdict) : Prop :=
  ∃ u k run session, u < t ∧ s.Publishes u k run session verdict ∧ run.session = n ∧
    s.Silent (u + 1) t n

end Schedule

/-! ## Every moment of a schedule -/

structure World.Orderly (w : World) : Prop where
  tracked : w.reviewer.Tracked w.due
  outbox : w.reviewer.outbox = []
  faithful : Faithful w.reviewer.desk

variable {w : World}

theorem World.Orderly.begins (h : w.Orderly) : w.reviewer.begins = [] := by
  rw [Reviewer.begins, h.outbox]
  rfl

/-- A step that keeps track of the runs. -/
theorem World.Orderly.reacts (h : w.Orderly) {e : Event} {due : List Nat}
    (kept : (w.reviewer.step e).Tracked (due ++ (w.reviewer.step e).begins) ∧
      w.reviewer.Evolves (w.reviewer.step e))
    (running : ∀ n, e ≠ .call n .shutdown) : World.Orderly (World.react { w with due := due } e) where
  tracked := ⟨(Reviewer.step_acts h.tracked.calm e).calm h.tracked.calm, kept.1.once, kept.1.due,
    kept.1.checked⟩
  outbox := rfl
  faithful := by
    have hfaithful := Reviewer.faithful_of_does h.faithful kept.2
      (Reviewer.step_acts h.tracked.calm e).desk running
    exact hfaithful

theorem World.admits_apart {e : Event} (h : admits e = true) :
    Reviewer.Apart e = true ∧ ∀ n, e ≠ .call n .shutdown := by
  unfold admits at h
  split at h
  · cases h
  · rename_i hrunning
    exact ⟨h, hrunning⟩

theorem World.Orderly.step (h : w.Orderly) (m : Move) : (w.step m).Orderly := by
  have htracked : w.reviewer.Tracked (w.due ++ w.reviewer.begins) := by
    rw [h.begins, List.append_nil]
    exact h.tracked
  unfold World.step
  cases m with
  | event e =>
      simp only [World.event?]
      split
      · rename_i e' hevent
        obtain ⟨hadmits, ⟨⟩⟩ := Option.ite_none_right_eq_some.1 hevent
        obtain ⟨hapart, hrunning⟩ := World.admits_apart hadmits
        exact h.reacts (Reviewer.step_tracked htracked hapart) hrunning
      · exact h
  | begin n =>
      have hsublist := List.eraseIdx_sublist w.due n
      -- What is spent is to begin no more, and so it may begin now.
      have hspent : w.reviewer.Tracked (w.due.eraseIdx n) :=
        ⟨h.tracked.calm, h.tracked.once.sublist hsublist,
          fun k hk => h.tracked.due k (hsublist.subset hk), h.tracked.checked⟩
      simp only [World.event?, World.spend]
      cases hk : w.due[n]? with
      | none => exact ⟨hspent, h.outbox, h.faithful⟩
      | some k =>
          obtain ⟨hunended, hidle⟩ := h.tracked.due k (List.mem_of_getElem? hk)
          have hspent' : w.reviewer.Tracked (w.due.eraseIdx n ++ w.reviewer.begins) := by
            rw [h.begins, List.append_nil]
            exact hspent
          refine h.reacts (Reviewer.begin_tracked hspent' ?_ hunended hidle) nofun
          rw [h.begins, List.append_nil]
          have hnodup : (w.due.filterMap some).Nodup := by
            rw [List.filterMap_some]
            exact h.tracked.once
          have hgone := Registry.World.not_mem_filterMap_eraseIdx hk rfl hnodup
          rw [List.filterMap_some] at hgone
          exact hgone

namespace Schedule

variable (s : Schedule)

theorem orderly (t : Nat) : (s.world t).Orderly := by
  induction t with
  | zero =>
      refine ⟨⟨rfl, List.nodup_nil, ?_, ?_⟩, rfl, Faithful.start⟩
      · intro k hk
        cases hk
      · intro k hcall
        exact absurd rfl hcall
  | succ t ih => exact ih.step (s.move t)

/-- A move leaves the review as it is, or is a step of it. -/
theorem moves (t : Nat) :
    s.reviewer (t + 1) = s.reviewer t ∨
      ∃ e, (∀ n, e ≠ .call n .shutdown) ∧
        Does ((s.reviewer t).May e) (s.reviewer t).buffers e (s.reviewer t).desk
          (s.reviewer (t + 1)).desk := by
  have hsame : ((s.world t).spend (s.move t)).reviewer = (s.world t).reviewer := by
    cases s.move t <;> rfl
  change ((s.world t).step (s.move t)).reviewer = _ ∨ ∃ e, _ ∧
    Does _ _ e _ ((s.world t).step (s.move t)).reviewer.desk
  unfold World.step
  cases hevent : (s.world t).event? (s.move t) with
  | none => exact .inl hsame
  | some e =>
      have hrunning : ∀ n, e ≠ .call n .shutdown := by
        cases hmove : s.move t with
        | event e' =>
            rw [hmove] at hevent
            obtain ⟨hadmits, ⟨⟩⟩ := Option.ite_none_right_eq_some.1 hevent
            exact (World.admits_apart hadmits).2
        | begin m =>
            rw [hmove] at hevent
            obtain ⟨k, _, rfl⟩ := Option.map_eq_some_iff.1 hevent
            exact nofun
      refine .inr ⟨e, hrunning, ?_⟩
      have hdoes := (Reviewer.step_acts (s.orderly t).tracked.calm e).desk
      simp only [World.react, hsame]
      exact hdoes

/-- What a move does to what is shown for a session that is registered after it. -/
theorem entry (t : Nat) {uri : String} {n : Nat}
    (registered : (s.reviewer (t + 1)).sessions.get? uri = some n) :
    Reviewer.Entry (s.reviewer t) (s.reviewer (t + 1)) uri n := by
  rcases s.moves t with hsame | ⟨e, hrunning, hdoes⟩
  · rw [hsame] at registered ⊢
    exact .kept (fun k run session verdict hpublishes =>
      absurd hpublishes (Reviewer.not_publishes rfl)) registered rfl
  · exact Reviewer.entry_of_does (s.orderly t).faithful hdoes hrunning registered

variable {s} {t n : Nat}

theorem later {t₁ t₂ : Nat} (h : t₁ ≤ t₂) : Later (s.reviewer t₁).desk (s.reviewer t₂).desk := by
  induction h with
  | refl => exact .refl _
  | @step t _ ih =>
      rcases s.moves t with hsame | ⟨e, _, hdoes⟩
      · rw [hsame]
        exact ih
      · exact ih.trans hdoes.later

theorem silent_succ {u : Nat} (h : s.Silent u t n)
    (silent : ∀ k run session verdict,
      Reviewer.Publishes (s.reviewer t) (s.reviewer (t + 1)) k run session verdict →
        run.session ≠ n) : s.Silent u (t + 1) n := by
  intro v k run session verdict hle hlt hpublishes
  rcases Nat.lt_or_eq_of_le (Nat.le_of_lt_succ hlt) with hbefore | rfl
  · exact h v k run session verdict hle hbefore hpublishes
  · exact silent k run session verdict hpublishes

/-- What is shown for a session is what it has published last. -/
theorem last_shown (t : Nat) {uri : String} {n : Nat}
    (registered : (s.reviewer t).sessions.get? uri = some n) :
    (∃ verdict, s.LastPublished t n verdict ∧
        (s.reviewer t).sink.published.get? uri = some verdict.diagnostics) ∨
      s.Silent 0 t n ∧ (s.reviewer t).sink.published.get? uri = none := by
  induction t generalizing uri n with
  | zero => cases registered
  | succ t ih =>
      cases s.entry t registered with
      | published k run session verdict publishes own shown =>
          refine .inl ⟨verdict, ⟨t, k, run, session, Nat.lt_succ_self t, publishes, own, ?_⟩, shown⟩
          intro u k' run' session' verdict' hle hlt
          omega
      | kept silent hregistered shown =>
          rw [shown]
          rcases ih hregistered with ⟨verdict, ⟨u, k, run, session, hlt, hpublishes, hown, hsilent⟩,
            hshown⟩ | ⟨hsilent, hshown⟩
          · refine .inl ⟨verdict, ⟨u, k, run, session, Nat.lt_succ_of_lt hlt, hpublishes, hown, ?_⟩,
              hshown⟩
            exact silent_succ hsilent silent
          · exact .inr ⟨silent_succ hsilent silent, hshown⟩
      | made silent new shown =>
          refine .inr ⟨?_, shown⟩
          intro u k run session verdict _ hlt hpublishes hown
          rcases Nat.lt_or_eq_of_le (Nat.le_of_lt_succ hlt) with hbefore | rfl
          -- A session that has published was there before.
          · obtain ⟨session', hsession', _⟩ :=
              (later (Nat.le_of_lt hbefore)).sessions _ session hpublishes.session_eq
            have hnew : (s.reviewer t).desk.sessions.at? n = none := new
            rw [← hown, hsession'] at hnew
            cases hnew
          · exact silent k run session verdict hpublishes hown

/-- At any time what is shown for an open session comes from the run that it has published last, and
nothing is shown when it has published none. When its newest run has ended with a conclusive verdict,
that verdict is shown. -/
theorem shown_of_registered (s : Schedule) (t : Nat) (uri : String) (n : Nat) (session : Session)
    (registered : (s.reviewer t).sessions.get? uri = some n)
    (session_eq : (s.reviewer t).sessions.at? n = some session) :
    (∀ (k : Nat) (run : Run) (verdict : Verdict), (s.reviewer t).runs[k]? = some run →
      run.session = n → run.sequence = session.dispatched → run.outcome = some (.done verdict) →
      verdict.inconclusive = false →
      (s.reviewer t).sink.published.get? uri = some verdict.diagnostics) ∧
    ((∃ verdict, s.LastPublished t n verdict ∧
        (s.reviewer t).sink.published.get? uri = some verdict.diagnostics) ∨
      s.Silent 0 t n ∧ (s.reviewer t).sink.published.get? uri = none) :=
  ⟨fun k run verdict => (s.orderly t).faithful.shown uri n session k run verdict registered session_eq,
    last_shown t registered⟩

def linter : Plugin :=
  ⟨0, "lint", "Lint", "1.0", false, supportAll, .external 0⟩

def remark (message : String) : Diagnostic :=
  ⟨⟨⟨0, 0⟩, ⟨0, 1⟩⟩, message, .warning, none, "lint"⟩

/-- A document is checked twice; the check that was called first answers last. -/
def outOfOrder : Schedule where
  plugins := [("lint", linter)]
  active := ["lint"]
  buffers := [("d", { uri := "file:///d.sh" })]
  debounce := some 300
  timeout := none
  onChange := true
  move t :=
    [.event (.call 0 (.diagnose "d")), .event (.call 1 (.diagnose "d")), .begin 0, .begin 0,
      .event (.registry (.begin (.run 0) 0)), .event (.registry (.begin (.run 1) 0)),
      .event (.registry (.answered (.run 1) 0 (.checked { diagnostics := [remark "new"] }))),
      .event (.registry (.gathered (.run 1))),
      .event (.registry (.answered (.run 0) 0 (.checked { diagnostics := [remark "old"] }))),
      .event (.registry (.gathered (.run 0)))].getD t (.begin 0)

/-- The second check is the newest, and its result stays. -/
theorem outOfOrder_shown :
    (outOfOrder.reviewer 10).sink.published.get? "file:///d.sh" = some [remark "new"] :=
  (shown_of_registered outOfOrder 10 "file:///d.sh" 0
    { uri := "file:///d.sh", source := some 1, dispatched := 2, published := 2 }
    (by decide) (by decide)).1 1
    { session := 0, sequence := 2, document := "d"
      outcome := some (.done { diagnostics := [remark "new"] }) }
    { diagnostics := [remark "new"] } (by decide) rfl rfl rfl rfl

end Schedule

end Shellwright.Review
