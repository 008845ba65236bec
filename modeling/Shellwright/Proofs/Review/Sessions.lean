import Shellwright.Proofs.Review.Steps
/-!
# Sessions in order

What holds of the desk of every review: open sessions are registered under their own addresses, no
session has published more than it has dispatched, and the runs of a session are numbered upwards.
-/

namespace Shellwright.Review

namespace Sessions

variable (s : Sessions) (n m : Nat)

theorem at?_modify (f : Session → Session) :
    (s.modify n f).at? m = if n = m then (s.at? m).map f else s.at? m := by
  unfold modify at?
  rw [List.getElem?_modify]
  split
  · rfl
  · cases s.all[m]? <;> rfl

@[simp] theorem at?_cancelNewest : (s.cancelNewest n).at? m = s.at? m := by
  unfold cancelNewest
  split <;> rfl

@[simp] theorem get?_cancelNewest (uri : String) : (s.cancelNewest n).get? uri = s.get? uri := by
  unfold cancelNewest
  split <;> rfl

theorem at?_supersede :
    (s.supersede n).at? m = if n = m then (s.at? m).map fun session =>
      { session with
        dispatched := session.dispatched + 1
        source := some (s.cancelNewest n).cancelled.length } else s.at? m := by
  have hmodify := at?_modify (s.cancelNewest n) n m fun session =>
    { session with
      dispatched := session.dispatched + 1
      source := some (s.cancelNewest n).cancelled.length }
  rw [at?_cancelNewest] at hmodify
  exact hmodify

@[simp] theorem get?_supersede (uri : String) : (s.supersede n).get? uri = s.get? uri :=
  get?_cancelNewest s n uri

theorem at?_closeSession :
    (s.closeSession n).at? m = if n = m then (s.at? m).map fun session =>
      { session with closed := true, debounce := none } else s.at? m := by
  unfold closeSession
  rw [at?_cancelNewest, at?_modify]

@[simp] theorem registered_closeSession : (s.closeSession n).registered = s.registered := by
  unfold closeSession cancelNewest
  split <;> rfl

/-- The sessions that are closed together. -/
theorem at?_foldl_closeSession (numbers : List Nat) :
    (numbers.foldl closeSession s).at? m = if m ∈ numbers then (s.at? m).map fun session =>
      { session with closed := true, debounce := none } else s.at? m := by
  induction numbers generalizing s with
  | nil => rfl
  | cons n rest ih =>
      rw [List.foldl_cons, ih, at?_closeSession]
      by_cases hn : n = m
      · subst hn
        rw [if_pos rfl, if_pos List.mem_cons_self]
        split
        · rw [Option.map_map]
          rfl
        · rfl
      · have hne : m ≠ n := fun h => hn h.symm
        simp [hn, hne]

theorem registered_foldl_closeSession (numbers : List Nat) :
    (numbers.foldl closeSession s).registered = s.registered := by
  induction numbers generalizing s with
  | nil => rfl
  | cons n rest ih => rw [List.foldl_cons, ih, registered_closeSession]

end Sessions

/-! ## Soundness -/

structure Sound (d : Desk) : Prop where
  registered : ∀ uri n, d.sessions.get? uri = some n →
    ∃ s, d.sessions.at? n = some s ∧ s.uri = uri ∧ s.closed = false
  listed : ∀ n s, d.sessions.at? n = some s → s.closed = false → d.sessions.get? s.uri = some n
  published : ∀ n s, d.sessions.at? n = some s → s.published ≤ s.dispatched
  quiet : ∀ n s, d.sessions.at? n = some s → s.closed = true → s.debounce = none
  runs : ∀ (k : Nat) (run : Run), d.runs[k]? = some run →
    ∃ s, d.sessions.at? run.session = some s ∧ run.sequence ≤ s.dispatched
  ordered : ∀ (j k : Nat) (run run' : Run), j < k → d.runs[j]? = some run → d.runs[k]? = some run' →
    run.session = run'.session → run.sequence < run'.sequence

/-- A desk at which nothing has happened yet. -/
theorem Sound.start {sink : DiagnosticSink} : Sound ⟨{}, [], sink⟩ := by
  refine ⟨?_, ?_, ?_, ?_, ?_, ?_⟩
  · intro uri n h
    cases h
  · intro n s h
    cases h
  · intro n s h
    cases h
  · intro n s h
    cases h
  · intro k run h
    cases h
  · intro j k run run' _ h
    cases h

/-- How a session may change while it stays registered or not as it was. -/
structure Session.Steady (s s' : Session) : Prop where
  uri : s'.uri = s.uri
  closed : s'.closed = s.closed
  published : s'.published ≤ s'.dispatched
  dispatched : s.dispatched ≤ s'.dispatched
  quiet : s'.closed = true → s'.debounce = none

variable {d : Desk}

theorem Sound.steady (h : Sound d) (n : Nat) (s : Session) (hs : d.sessions.at? n = some s) :
    s.Steady s :=
  ⟨rfl, rfl, h.published n s hs, Nat.le_refl _, h.quiet n s hs⟩

theorem Sound.modified (h : Sound d) {sessions : Sessions} {n : Nat} {f : Session → Session}
    (get : ∀ uri, sessions.get? uri = d.sessions.get? uri)
    (at_eq : ∀ m, sessions.at? m = if n = m then (d.sessions.at? m).map f else d.sessions.at? m)
    (steady : ∀ s, d.sessions.at? n = some s → s.Steady (f s)) :
    Sound { d with sessions := sessions } := by
  have hback : ∀ m s', sessions.at? m = some s' →
      ∃ s, d.sessions.at? m = some s ∧ s.Steady s' := by
    intro m s' hs'
    rw [at_eq] at hs'
    split at hs'
    · rename_i hn
      obtain ⟨s, hs, rfl⟩ := Option.map_eq_some_iff.1 hs'
      subst hn
      exact ⟨s, hs, steady s hs⟩
    · exact ⟨s', hs', h.steady m s' hs'⟩
  have hforth : ∀ m s, d.sessions.at? m = some s →
      ∃ s', sessions.at? m = some s' ∧ s.Steady s' := by
    intro m s hs
    rw [at_eq]
    split
    · rename_i hn
      subst hn
      exact ⟨f s, by rw [hs]; rfl, steady s hs⟩
    · exact ⟨s, hs, h.steady m s hs⟩
  refine ⟨?_, ?_, ?_, ?_, ?_, h.ordered⟩
  · intro uri m hget
    obtain ⟨s, hs, huri, hopen⟩ := h.registered uri m ((get uri).symm.trans hget)
    obtain ⟨s', hs', hsteady⟩ := hforth m s hs
    exact ⟨s', hs', hsteady.uri.trans huri, hsteady.closed.trans hopen⟩
  · intro m s' hs' hopen
    obtain ⟨s, hs, hsteady⟩ := hback m s' hs'
    change sessions.get? s'.uri = some m
    rw [get, hsteady.uri]
    exact h.listed m s hs (hsteady.closed.symm.trans hopen)
  · intro m s' hs'
    obtain ⟨s, hs, hsteady⟩ := hback m s' hs'
    exact hsteady.published
  · intro m s' hs' hclosed
    obtain ⟨s, hs, hsteady⟩ := hback m s' hs'
    exact hsteady.quiet hclosed
  · intro k run hrun
    obtain ⟨s, hs, hle⟩ := h.runs k run hrun
    obtain ⟨s', hs', hsteady⟩ := hforth _ s hs
    exact ⟨s', hs', Nat.le_trans hle hsteady.dispatched⟩

theorem Run.eq_of_ticket {run run' : Run} (h : run.ticket = run'.ticket) :
    run.session = run'.session ∧ run.sequence = run'.sequence ∧ run.document = run'.document :=
  ⟨congrArg (·.1) h, congrArg (·.2.1) h, congrArg (·.2.2) h⟩

/-- The runs may end. -/
theorem Sound.tickets (h : Sound d) {runs : List Run}
    (tickets : runs.map Run.ticket = d.runs.map Run.ticket) : Sound { d with runs := runs } := by
  have hback : ∀ (k : Nat) (run' : Run), runs[k]? = some run' →
      ∃ run, d.runs[k]? = some run ∧ run.ticket = run'.ticket := by
    intro k run' hrun'
    have hk : (runs.map Run.ticket)[k]? = some run'.ticket := by
      rw [List.getElem?_map, hrun']
      rfl
    rw [tickets, List.getElem?_map] at hk
    exact Option.map_eq_some_iff.1 hk
  refine ⟨h.registered, h.listed, h.published, h.quiet, ?_, ?_⟩
  · intro k run' hrun'
    obtain ⟨run, hrun, hticket⟩ := hback k run' hrun'
    obtain ⟨hsession, hsequence, _⟩ := Run.eq_of_ticket hticket
    rw [← hsession, ← hsequence]
    exact h.runs k run hrun
  · intro j k run₁' run₂' hjk h₁' h₂' hsame
    obtain ⟨run₁, h₁, hticket₁⟩ := hback j run₁' h₁'
    obtain ⟨run₂, h₂, hticket₂⟩ := hback k run₂' h₂'
    obtain ⟨hsession₁, hsequence₁, _⟩ := Run.eq_of_ticket hticket₁
    obtain ⟨hsession₂, hsequence₂, _⟩ := Run.eq_of_ticket hticket₂
    rw [← hsequence₁, ← hsequence₂]
    refine h.ordered j k run₁ run₂ hjk h₁ h₂ ?_
    rw [hsession₁, hsession₂, hsame]

/-! ## The ways in which a desk changes -/

theorem Sessions.obtain_of_some {s : Sessions} {uri : String} {n : Nat} (h : s.get? uri = some n) :
    s.obtain uri = (s, n) := by
  unfold Sessions.obtain
  rw [h]

theorem Sessions.at?_obtain_none {s : Sessions} {uri : String} (h : s.get? uri = none) (m : Nat) :
    (s.obtain uri).1.at? m = if m = s.all.length then some { uri := uri } else s.at? m := by
  unfold Sessions.obtain
  rw [h]
  change (s.all ++ [{ uri := uri }])[m]? = _
  rw [List.getElem?_append]
  split
  · rename_i hlt
    rw [if_neg (Nat.ne_of_lt hlt)]
    rfl
  · rename_i hge
    split
    · rename_i heq
      simp [heq]
    · have hgt : s.all.length < m := by omega
      rw [List.getElem?_eq_none (by simp; omega)]
      exact (List.getElem?_eq_none (by omega)).symm

theorem Sessions.get?_obtain_none {s : Sessions} {uri : String} (h : s.get? uri = none)
    (other : String) :
    (s.obtain uri).1.get? other = if other = uri then some s.all.length else s.get? other := by
  unfold Sessions.obtain
  rw [h]
  exact Keyed.get?_put s.registered uri other s.all.length

theorem Sessions.obtain_number_none {s : Sessions} {uri : String} (h : s.get? uri = none) :
    (s.obtain uri).2 = s.all.length := by
  unfold Sessions.obtain
  rw [h]

theorem Sessions.lt_of_at? {s : Sessions} {n : Nat} {session : Session}
    (h : s.at? n = some session) : n < s.all.length :=
  (List.getElem?_eq_some_iff.1 h).1

/-- A new session is registered under its address and has dispatched nothing. -/
theorem Sound.obtain (h : Sound d) (uri : String) :
    Sound { d with sessions := (d.sessions.obtain uri).1 } ∧
      ∃ s, (d.sessions.obtain uri).1.at? (d.sessions.obtain uri).2 = some s ∧ s.uri = uri ∧
        s.closed = false := by
  cases hget : d.sessions.get? uri with
  | some n =>
      rw [Sessions.obtain_of_some hget]
      exact ⟨h, h.registered uri n hget⟩
  | none =>
      have hat := Sessions.at?_obtain_none hget
      have hreg := Sessions.get?_obtain_none hget
      have hold : ∀ m s, d.sessions.at? m = some s →
          (d.sessions.obtain uri).1.at? m = some s := by
        intro m s hs
        rw [hat, if_neg (Nat.ne_of_lt (Sessions.lt_of_at? hs))]
        exact hs
      have hback : ∀ m s, (d.sessions.obtain uri).1.at? m = some s →
          (m = d.sessions.all.length ∧ s = { uri := uri }) ∨ d.sessions.at? m = some s := by
        intro m s hs
        rw [hat] at hs
        split at hs
        · rename_i hm
          cases hs
          exact .inl ⟨hm, rfl⟩
        · exact .inr hs
      refine ⟨⟨?_, ?_, ?_, ?_, ?_, h.ordered⟩, ?_⟩
      · intro other m hm
        change (d.sessions.obtain uri).1.get? other = some m at hm
        rw [hreg] at hm
        split at hm
        · rename_i hother
          cases hm
          refine ⟨{ uri := uri }, ?_, hother.symm, rfl⟩
          exact (hat _).trans (if_pos rfl)
        · obtain ⟨s, hs, huri, hopen⟩ := h.registered other m hm
          exact ⟨s, hold m s hs, huri, hopen⟩
      · intro m s hs hopen
        change (d.sessions.obtain uri).1.get? s.uri = some m
        rw [hreg]
        rcases hback m s hs with ⟨rfl, rfl⟩ | hs
        · exact if_pos rfl
        · have hlisted := h.listed m s hs hopen
          rw [if_neg]
          · exact hlisted
          · rintro rfl
            rw [hget] at hlisted
            cases hlisted
      · intro m s hs
        rcases hback m s hs with ⟨_, rfl⟩ | hs
        · exact Int.le_refl 0
        · exact h.published m s hs
      · intro m s hs hclosed
        rcases hback m s hs with ⟨_, rfl⟩ | hs
        · rfl
        · exact h.quiet m s hs hclosed
      · intro k run hrun
        obtain ⟨s, hs, hle⟩ := h.runs k run hrun
        exact ⟨s, hold _ s hs, hle⟩
      · rw [Sessions.obtain_number_none hget]
        exact ⟨{ uri := uri }, (hat _).trans (if_pos rfl), rfl, rfl⟩

theorem Desk.dispatch_runs {n : Nat} {s : Session} (hs : d.sessions.at? n = some s)
    (document : String) :
    (d.dispatch n document).runs =
      d.runs ++ [{ session := n, sequence := s.dispatched + 1, document := document }] := by
  have hat := Sessions.at?_supersede d.sessions n n
  rw [if_pos rfl, hs] at hat
  unfold Desk.dispatch
  simp only [hat]
  rfl

/-- The run that is dispatched gets the next number of its session. -/
theorem Sound.dispatch (h : Sound d) {n : Nat} {s : Session} (hs : d.sessions.at? n = some s)
    (document : String) : Sound (d.dispatch n document) := by
  have hsessions : Sound { d with sessions := d.sessions.supersede n } := by
    refine h.modified (Sessions.get?_supersede d.sessions n) (Sessions.at?_supersede d.sessions n)
      fun s' hs' => ?_
    have hle := h.published n s' hs'
    refine ⟨rfl, rfl, ?_, Nat.le_succ _, h.quiet n s' hs'⟩
    change s'.published ≤ ((s'.dispatched + 1 : Nat) : Int)
    omega
  have hruns := Desk.dispatch_runs hs document
  have hnew : (d.sessions.supersede n).at? n = some { s with
      dispatched := s.dispatched + 1
      source := some (d.sessions.cancelNewest n).cancelled.length } := by
    rw [Sessions.at?_supersede, if_pos rfl, hs]
    rfl
  have hsplit : ∀ (k : Nat) (run : Run), (d.dispatch n document).runs[k]? = some run →
      d.runs[k]? = some run ∨ k = d.runs.length ∧
        run = { session := n, sequence := s.dispatched + 1, document := document } := by
    intro k run hrun
    rw [hruns, List.getElem?_append] at hrun
    split at hrun
    · exact .inl hrun
    · rename_i hge
      rw [List.getElem?_singleton] at hrun
      obtain ⟨hk, ⟨⟩⟩ := Option.ite_none_right_eq_some.1 hrun
      exact .inr ⟨by omega, rfl⟩
  refine ⟨hsessions.registered, hsessions.listed, hsessions.published, hsessions.quiet, ?_, ?_⟩
  · intro k run hrun
    rcases hsplit k run hrun with hrun | ⟨_, rfl⟩
    · exact hsessions.runs k run hrun
    · exact ⟨_, hnew, Nat.le_refl _⟩
  · intro j k run run' hjk hrun hrun' hsame
    rcases hsplit k run' hrun' with hrun' | ⟨rfl, rfl⟩
    · rcases hsplit j run hrun with hrun | ⟨rfl, _⟩
      · exact h.ordered j k run run' hjk hrun hrun' hsame
      · have hlt := (List.getElem?_eq_some_iff.1 hrun').1
        omega
    · rcases hsplit j run hrun with hrun | ⟨rfl, _⟩
      -- The numbers so far are at most what the session has dispatched, and the new one is more.
      · obtain ⟨s', hs', hle⟩ := h.runs j run hrun
        change run.session = n at hsame
        rw [hsame, hs] at hs'
        cases hs'
        exact Nat.lt_succ_of_le hle
      · omega

/-- A session changes what it waits for. -/
theorem Sound.debounce (h : Sound d) (n : Nat) (debounce : Option Debounce)
    (allowed : debounce = none ∨ ∃ s, d.sessions.at? n = some s ∧ s.closed = false) :
    Sound { d with sessions := d.sessions.modify n fun s => { s with debounce := debounce } } := by
  refine h.modified (fun _ => rfl) (fun m => Sessions.at?_modify d.sessions n m _) fun s hs => ?_
  refine ⟨rfl, rfl, h.published n s hs, Nat.le_refl _, fun hclosed => ?_⟩
  rcases allowed with hnone | ⟨s', hs', hopen⟩
  · exact hnone
  · rw [hs] at hs'
    cases hs'
    rw [hopen] at hclosed
    cases hclosed

theorem Sound.elapse (h : Sound d) {n : Nat} {s : Session} (hs : d.sessions.at? n = some s)
    (document : String) : Sound (d.elapse n document) := by
  refine (h.debounce n none (.inl rfl)).dispatch (n := n) (s := { s with debounce := none }) ?_
    document
  rw [Sessions.at?_modify, if_pos rfl, hs]
  rfl

theorem Sound.diagnose (h : Sound d) (uri document : String) : Sound (d.diagnose uri document) := by
  obtain ⟨hsound, s, hs, _⟩ := h.obtain uri
  exact hsound.elapse hs document

theorem Sound.arm (h : Sound d) (uri : String) (debounce : Option Debounce) :
    Sound (d.arm uri debounce) := by
  obtain ⟨hsound, s, hs, _, hopen⟩ := h.obtain uri
  exact hsound.debounce _ debounce (.inr ⟨s, hs, hopen⟩)

theorem Session.newest {s : Session} {sequence : Int} (h : s.mayPublish sequence = true) :
    s.closed = false ∧ sequence = s.dispatched ∧ s.published < sequence := by
  simpa [Session.mayPublish, and_assoc] using h

theorem Sound.publish (h : Sound d) {n : Nat} {run : Run} {s : Session} {verdict : Verdict}
    (session_eq : d.sessions.at? run.session = some s)
    (newest : s.mayPublish run.sequence = true) : Sound (d.publish n run s verdict) := by
  have hmarked : Sound { d with sessions := d.sessions.markPublished run.session run.sequence } := by
    refine h.modified (fun _ => rfl) (fun m => Sessions.at?_modify d.sessions run.session m _)
      fun s' hs' => ?_
    rw [session_eq] at hs'
    cases hs'
    obtain ⟨_, hlast, _⟩ := Session.newest newest
    exact ⟨rfl, rfl, Int.le_of_eq hlast, Nat.le_refl _, h.quiet _ s session_eq⟩
  have htickets := Reviewer.tickets_modify d.runs n
    (f := fun run => { run with outcome := some (.done verdict) }) fun _ => rfl
  have hsound := hmarked.tickets htickets
  exact ⟨hsound.registered, hsound.listed, hsound.published, hsound.quiet, hsound.runs,
    hsound.ordered⟩

/-- Sessions that are closed are no longer registered. -/
theorem Sound.closed (h : Sound d) {sessions : Sessions} (numbers : List Nat)
    (get : ∀ uri n, sessions.get? uri = some n →
      d.sessions.get? uri = some n ∧ n ∉ numbers)
    (listed : ∀ uri n, d.sessions.get? uri = some n → n ∉ numbers → sessions.get? uri = some n)
    (at_eq : ∀ m, sessions.at? m = if m ∈ numbers then (d.sessions.at? m).map fun s =>
      { s with closed := true, debounce := none } else d.sessions.at? m) :
    Sound { d with sessions := sessions } := by
  have hback : ∀ m s', sessions.at? m = some s' →
      (s'.closed = true ∧ s'.debounce = none ∧ s'.published ≤ s'.dispatched) ∨
        m ∉ numbers ∧ d.sessions.at? m = some s' := by
    intro m s' hs'
    rw [at_eq] at hs'
    split at hs'
    · obtain ⟨s, hs, rfl⟩ := Option.map_eq_some_iff.1 hs'
      exact .inl ⟨rfl, rfl, h.published m s hs⟩
    · rename_i hm
      exact .inr ⟨hm, hs'⟩
  -- What is still registered has not been closed; what has been closed only has to be quiet.
  refine ⟨?_, ?_, ?_, ?_, ?_, h.ordered⟩
  · intro uri m hm
    obtain ⟨hget, hnot⟩ := get uri m hm
    obtain ⟨s, hs, huri, hopen⟩ := h.registered uri m hget
    exact ⟨s, (at_eq m).trans ((if_neg hnot).trans hs), huri, hopen⟩
  · intro m s' hs' hopen
    rcases hback m s' hs' with ⟨hclosed, _⟩ | ⟨hnot, hs⟩
    · rw [hopen] at hclosed
      cases hclosed
    · exact listed _ m (h.listed m s' hs hopen) hnot
  · intro m s' hs'
    rcases hback m s' hs' with ⟨_, _, hle⟩ | ⟨_, hs⟩
    · exact hle
    · exact h.published m s' hs
  · intro m s' hs' hclosed
    rcases hback m s' hs' with ⟨_, hnone, _⟩ | ⟨_, hs⟩
    · exact hnone
    · exact h.quiet m s' hs hclosed
  · intro k run hrun
    obtain ⟨s, hs, hle⟩ := h.runs k run hrun
    change ∃ s, sessions.at? run.session = some s ∧ _
    rw [at_eq, hs]
    split
    · exact ⟨_, rfl, hle⟩
    · exact ⟨s, rfl, hle⟩

@[simp] theorem Sessions.get?_close (s : Sessions) (uri other : String) :
    (s.close uri).get? other = if other = uri then none else s.get? other := by
  unfold Sessions.close
  split
  · unfold Sessions.get?
    rw [Sessions.registered_closeSession]
    exact Keyed.get?_drop s.registered uri other
  · rename_i hnone
    split
    · rename_i hother
      rw [hother, hnone]
    · rfl

theorem Sessions.at?_close (s : Sessions) (uri : String) (m : Nat) :
    (s.close uri).at? m = if s.get? uri = some m then (s.at? m).map fun session =>
      { session with closed := true, debounce := none } else s.at? m := by
  unfold Sessions.close
  split
  · rename_i n hget
    rw [Sessions.at?_closeSession, hget]
    simp only [Option.some.injEq]
    rfl
  · rename_i hnone
    rw [if_neg (by simp [hnone])]

theorem Sound.close (h : Sound d) (uri : String) : Sound (d.close uri) := by
  have hsessions : Sound { d with sessions := d.sessions.close uri } := by
    refine h.closed (d.sessions.get? uri).toList ?_ ?_ ?_
    · intro other m hm
      rw [Sessions.get?_close] at hm
      split at hm
      · cases hm
      · rename_i hother
        refine ⟨hm, fun hmem => hother ?_⟩
        obtain ⟨s, hs, huri, _⟩ := h.registered other m hm
        obtain ⟨s', hs', huri', _⟩ := h.registered uri m (Option.mem_toList.1 hmem)
        rw [hs] at hs'
        cases hs'
        exact huri.symm.trans huri'
    · intro other m hm hnot
      rw [Sessions.get?_close, if_neg]
      · exact hm
      · rintro rfl
        exact hnot (Option.mem_toList.2 hm)
    · intro m
      rw [Sessions.at?_close]
      simp only [Option.mem_toList]
  exact ⟨hsessions.registered, hsessions.listed, hsessions.published, hsessions.quiet,
    hsessions.runs, hsessions.ordered⟩

@[simp] theorem Sessions.get?_closeAll (s : Sessions) (uri : String) : s.closeAll.get? uri = none := by
  unfold Sessions.closeAll Sessions.get?
  rw [Sessions.registered_foldl_closeSession]
  rfl

theorem Sound.shut (h : Sound d) : Sound d.shut := by
  refine h.closed d.sessions.registered.values ?_ ?_ ?_
  · intro uri n hn
    rw [Sessions.get?_closeAll] at hn
    cases hn
  · intro uri n hn hnot
    exact absurd (List.mem_map.2 ⟨_, Keyed.mem_of_get? hn, rfl⟩) hnot
  · exact fun m => Sessions.at?_foldl_closeSession _ m _

/-- Every step keeps the desk in order. -/
theorem Does.sound {may : String → Prop} {b : Buffers} {e : Event} {d' : Desk}
    (does : Does may b e d d') (h : Sound d) : Sound d' := by
  cases does with
  | rests sessions runs sink =>
      have hsound := h.tickets runs
      rw [← sessions] at hsound
      exact ⟨hsound.registered, hsound.listed, hsound.published, hsound.quiet, hsound.runs,
        hsound.ordered⟩
  | publishes n run session verdict run_eq session_eq conclusive newest desk =>
      subst desk
      exact h.publish session_eq newest
  | diagnoses document allowed shell desk =>
      subst desk
      exact h.diagnose _ document
  | elapses number session debounce event session_eq pending desk =>
      subst desk
      exact h.elapse session_eq _
  | arms document debounce event own desk =>
      subst desk
      exact h.arm _ debounce
  | closes document event desk =>
      subst desk
      exact h.close _
  | shuts n event desk =>
      subst desk
      exact h.shut

/-! ## Progress -/

/-- Numbers of a session only rise, and a closed session stays closed. -/
structure Session.Grows (s s' : Session) : Prop where
  uri : s'.uri = s.uri
  published : s.published ≤ s'.published
  dispatched : s.dispatched ≤ s'.dispatched
  closed : s.closed = true → s'.closed = true

theorem Session.Grows.refl (s : Session) : s.Grows s :=
  ⟨rfl, Int.le_refl _, Nat.le_refl _, id⟩

theorem Session.Grows.trans {s s' s'' : Session} (h : s.Grows s') (h' : s'.Grows s'') :
    s.Grows s'' :=
  ⟨h'.uri.trans h.uri, Int.le_trans h.published h'.published,
    Nat.le_trans h.dispatched h'.dispatched, fun hclosed => h'.closed (h.closed hclosed)⟩

def Sessions.Grow (s s' : Sessions) : Prop :=
  ∀ n session, s.at? n = some session → ∃ session', s'.at? n = some session' ∧
    session.Grows session'

theorem Sessions.Grow.refl (s : Sessions) : s.Grow s := fun _ session h =>
  ⟨session, h, .refl session⟩

theorem Sessions.Grow.trans {s s' s'' : Sessions} (h : s.Grow s') (h' : s'.Grow s'') :
    s.Grow s'' := by
  intro n session hsession
  obtain ⟨session', hsession', hgrows⟩ := h n session hsession
  obtain ⟨session'', hsession'', hgrows'⟩ := h' n session' hsession'
  exact ⟨session'', hsession'', hgrows.trans hgrows'⟩

/-- Some sessions have changed, all in the same way. -/
theorem Sessions.grow_of_at? {s s' : Sessions} {p : Nat → Prop} [DecidablePred p]
    {f : Session → Session}
    (at_eq : ∀ m, s'.at? m = if p m then (s.at? m).map f else s.at? m)
    (grows : ∀ m session, p m → s.at? m = some session → session.Grows (f session)) :
    s.Grow s' := by
  intro m session hsession
  rw [at_eq, hsession]
  split
  · rename_i hm
    exact ⟨f session, rfl, grows m session hm hsession⟩
  · exact ⟨session, rfl, .refl session⟩

theorem Sessions.obtain_grow (s : Sessions) (uri : String) : s.Grow (s.obtain uri).1 := by
  cases hget : s.get? uri with
  | some n =>
      rw [Sessions.obtain_of_some hget]
      exact .refl s
  | none =>
      intro m session hsession
      rw [Sessions.at?_obtain_none hget, if_neg (Nat.ne_of_lt (Sessions.lt_of_at? hsession))]
      exact ⟨session, hsession, .refl session⟩

theorem Sessions.supersede_grow (s : Sessions) (n : Nat) : s.Grow (s.supersede n) :=
  grow_of_at? (Sessions.at?_supersede s n) fun _ _ _ _ =>
    ⟨rfl, Int.le_refl _, Nat.le_succ _, id⟩

theorem Sessions.debounce_grow (s : Sessions) (n : Nat) (debounce : Option Debounce) :
    s.Grow (s.modify n fun session => { session with debounce := debounce }) :=
  grow_of_at? (fun m => Sessions.at?_modify s n m _) fun _ _ _ _ =>
    ⟨rfl, Int.le_refl _, Nat.le_refl _, id⟩

/-- Sessions and runs only get further. -/
structure Later (d d' : Desk) : Prop where
  sessions : d.sessions.Grow d'.sessions
  runs : ∀ (k : Nat) (run : Run), d.runs[k]? = some run →
    ∃ run', d'.runs[k]? = some run' ∧ run'.ticket = run.ticket

theorem Later.refl (d : Desk) : Later d d := ⟨.refl _, fun _ run h => ⟨run, h, rfl⟩⟩

theorem Later.trans {d' d'' : Desk} (h : Later d d') (h' : Later d' d'') : Later d d'' := by
  refine ⟨h.sessions.trans h'.sessions, fun k run hrun => ?_⟩
  obtain ⟨run', hrun', hticket⟩ := h.runs k run hrun
  obtain ⟨run'', hrun'', hticket'⟩ := h'.runs k run' hrun'
  exact ⟨run'', hrun'', hticket'.trans hticket⟩

theorem Later.of_tickets {d' : Desk} (sessions : d.sessions.Grow d'.sessions)
    (tickets : d'.runs.map Run.ticket = d.runs.map Run.ticket) : Later d d' := by
  refine ⟨sessions, fun k run hrun => ?_⟩
  have hk : (d.runs.map Run.ticket)[k]? = some run.ticket := by
    rw [List.getElem?_map, hrun]
    rfl
  rw [← tickets, List.getElem?_map] at hk
  exact Option.map_eq_some_iff.1 hk

theorem Desk.elapse_later (d : Desk) (n : Nat) (document : String) :
    Later d (d.elapse n document) := by
  refine ⟨(Sessions.debounce_grow d.sessions n none).trans (Sessions.supersede_grow _ n),
    fun k run hrun => ⟨run, ?_, rfl⟩⟩
  have hlt := (List.getElem?_eq_some_iff.1 hrun).1
  exact (List.getElem?_append_left hlt).trans hrun

theorem Desk.diagnose_later (d : Desk) (uri document : String) :
    Later d (d.diagnose uri document) := by
  have hobtain : Later d { d with sessions := (d.sessions.obtain uri).1 } :=
    ⟨Sessions.obtain_grow d.sessions uri, fun _ run h => ⟨run, h, rfl⟩⟩
  exact hobtain.trans (Desk.elapse_later _ _ document)

theorem Session.closed_grows (s : Session) : s.Grows { s with closed := true, debounce := none } :=
  ⟨rfl, Int.le_refl _, Nat.le_refl _, fun _ => rfl⟩

theorem Does.later {may : String → Prop} {b : Buffers} {e : Event} {d' : Desk}
    (does : Does may b e d d') : Later d d' := by
  cases does with
  | rests sessions runs sink => exact .of_tickets (sessions ▸ .refl _) runs
  | publishes n run session verdict run_eq session_eq conclusive newest desk =>
      subst desk
      refine .of_tickets ?_ (Reviewer.tickets_modify d.runs n fun _ => rfl)
      refine Sessions.grow_of_at? (fun m => Sessions.at?_modify d.sessions run.session m _) ?_
      rintro m s rfl hs
      rw [session_eq] at hs
      cases hs
      obtain ⟨_, _, hlt⟩ := Session.newest newest
      exact ⟨rfl, Int.le_of_lt hlt, Nat.le_refl _, id⟩
  | diagnoses document allowed shell desk =>
      subst desk
      exact d.diagnose_later _ document
  | elapses number session debounce event session_eq pending desk =>
      subst desk
      exact d.elapse_later number _
  | arms document debounce event own desk =>
      subst desk
      exact .of_tickets ((Sessions.obtain_grow d.sessions _).trans
        (Sessions.debounce_grow _ _ debounce)) rfl
  | closes document event desk =>
      subst desk
      refine .of_tickets ?_ rfl
      exact Sessions.grow_of_at? (fun m => Sessions.at?_close d.sessions _ m)
        fun _ s _ _ => s.closed_grows
  | shuts n event desk =>
      subst desk
      refine .of_tickets ?_ rfl
      exact Sessions.grow_of_at? (fun m => Sessions.at?_foldl_closeSession _ m _)
        fun _ s _ _ => s.closed_grows

end Shellwright.Review
