import Shellwright.Proofs.Review.Publication
import Shellwright.Proofs.Review.Endings
/-!
# The newest run is not passed over

When the newest run of a session ends with a conclusive verdict this is what is shown for its document,
however the runs before it end.
-/

namespace Shellwright.Review

/-- What is shown belongs to sessions that are open, a run that has not ended has not published, and
the newest run has if its verdict is conclusive. -/
structure Faithful (d : Desk) : Prop where
  sound : Sound d
  hidden : ∀ uri, d.sessions.get? uri = none → d.sink.published.get? uri = none
  first : ∀ (k : Nat) run s, d.runs[k]? = some run → run.outcome = none →
    d.sessions.at? run.session = some s → s.published ≠ run.sequence
  shown : ∀ uri n s (k : Nat) run verdict, d.sessions.get? uri = some n →
    d.sessions.at? n = some s → d.runs[k]? = some run → run.session = n →
    run.sequence = s.dispatched → run.outcome = some (.done verdict) →
    verdict.inconclusive = false → d.sink.published.get? uri = some verdict.diagnostics

variable {d d' : Desk}

theorem Faithful.start : Faithful ⟨{}, [], {}⟩ := by
  refine ⟨Sound.start, fun _ _ => rfl, ?_, ?_⟩
  · intro k run s hrun
    cases hrun
  · intro uri n s k run verdict hget
    cases hget

/-! ## The ways in which a desk changes -/

/-- The run that session `n` has dispatched last is the one with its last number. -/
theorem Sound.newest_unique (h : Sound d) {j k : Nat} {run run' : Run} (hj : d.runs[j]? = some run)
    (hk : d.runs[k]? = some run') (session : run.session = run'.session)
    (sequence : run.sequence = run'.sequence) : j = k := by
  rcases Nat.lt_trichotomy j k with hlt | heq | hgt
  · have hless := h.ordered j k run run' hlt hj hk session
    omega
  · exact heq
  · have hless := h.ordered k j run' run hgt hk hj session.symm
    omega

/-- An open session is registered under its address only. -/
theorem Sound.registered_unique (h : Sound d) {uri uri' : String} {n : Nat}
    (hn : d.sessions.get? uri = some n) (hn' : d.sessions.get? uri' = some n) : uri = uri' := by
  obtain ⟨s, hs, huri, _⟩ := h.registered uri n hn
  obtain ⟨s', hs', huri', _⟩ := h.registered uri' n hn'
  obtain rfl := Option.some.inj (hs.symm.trans hs')
  exact huri.symm.trans huri'

/-- A session that is made has dispatched nothing, and nothing is shown for it. -/
theorem Faithful.obtain (h : Faithful d) (uri : String) :
    Faithful { d with sessions := (d.sessions.obtain uri).1 } := by
  have hsound := (h.sound.obtain uri).1
  cases hget : d.sessions.get? uri with
  | some n =>
      rw [Sessions.obtain_of_some hget]
      exact h
  | none =>
      have hat := Sessions.at?_obtain_none hget
      have hreg := Sessions.get?_obtain_none hget
      have hknown : ∀ (k : Nat) run, d.runs[k]? = some run →
          (d.sessions.obtain uri).1.at? run.session = d.sessions.at? run.session := by
        intro k run hrun
        obtain ⟨s, hs, _⟩ := h.sound.runs k run hrun
        rw [hat, if_neg (Nat.ne_of_lt (Sessions.lt_of_at? hs))]
      refine ⟨hsound, fun other hother => ?_, fun k run s hrun hnone hs => ?_, ?_⟩
      · change (d.sessions.obtain uri).1.get? other = none at hother
        rw [hreg] at hother
        split at hother
        · cases hother
        · exact h.hidden other hother
      · exact h.first k run s hrun hnone ((hknown k run hrun).symm.trans hs)
      · rintro other n s k run verdict hn hs hrun rfl hlast hdone hconclusive
        have hs : d.sessions.at? run.session = some s := (hknown k run hrun).symm.trans hs
        change (d.sessions.obtain uri).1.get? other = some run.session at hn
        rw [hreg] at hn
        split at hn
        · have hlt := Sessions.lt_of_at? hs
          have heq := Option.some.inj hn
          omega
        · exact h.shown other _ s k run verdict hn hs hrun rfl hlast hdone hconclusive

/-- A session changes what it waits for. -/
theorem Faithful.debounce (h : Faithful d) (n : Nat) (debounce : Option Debounce)
    (sound : Sound { d with
      sessions := d.sessions.modify n fun s => { s with debounce := debounce } }) :
    Faithful { d with
      sessions := d.sessions.modify n fun s => { s with debounce := debounce } } := by
  have hback : ∀ m s', (d.sessions.modify n fun s => { s with debounce := debounce }).at? m = some s' →
      ∃ s, d.sessions.at? m = some s ∧ s'.published = s.published ∧
        s'.dispatched = s.dispatched := by
    intro m s' hs'
    rw [Sessions.at?_modify] at hs'
    split at hs'
    · obtain ⟨s, hs, rfl⟩ := Option.map_eq_some_iff.1 hs'
      exact ⟨s, hs, rfl, rfl⟩
    · exact ⟨s', hs', rfl, rfl⟩
  refine ⟨sound, h.hidden, fun k run s' hrun hnone hs' => ?_, ?_⟩
  · obtain ⟨s, hs, hpublished, _⟩ := hback _ s' hs'
    rw [hpublished]
    exact h.first k run s hrun hnone hs
  · intro uri m s' k run verdict hm hs' hrun hsession hlast hdone hconclusive
    obtain ⟨s, hs, _, hdispatched⟩ := hback m s' hs'
    exact h.shown uri m s k run verdict hm hs hrun hsession (hlast.trans hdispatched) hdone
      hconclusive

/-- A run is dispatched, and what is shown for its session comes from an older one. -/
theorem Faithful.dispatch (h : Faithful d) {n : Nat} {s : Session}
    (hs : d.sessions.at? n = some s) (document : String) : Faithful (d.dispatch n document) := by
  have hruns := Desk.dispatch_runs hs document
  have hat : ∀ m s', (d.dispatch n document).sessions.at? m = some s' →
      ∃ s₀, d.sessions.at? m = some s₀ ∧ s'.published = s₀.published ∧
        (m = n ∧ s'.dispatched = s₀.dispatched + 1 ∨ m ≠ n ∧ s'.dispatched = s₀.dispatched) := by
    intro m s' hs'
    change (d.sessions.supersede n).at? m = some s' at hs'
    rw [Sessions.at?_supersede] at hs'
    split at hs'
    · rename_i hm
      obtain ⟨s₀, hs₀, rfl⟩ := Option.map_eq_some_iff.1 hs'
      exact ⟨s₀, hs₀, rfl, .inl ⟨hm.symm, rfl⟩⟩
    · rename_i hm
      exact ⟨s', hs', rfl, .inr ⟨fun heq => hm heq.symm, rfl⟩⟩
  have hsplit : ∀ (k : Nat) run, (d.dispatch n document).runs[k]? = some run →
      d.runs[k]? = some run ∨
        run = { session := n, sequence := s.dispatched + 1, document := document } := by
    intro k run hrun
    rw [hruns, List.getElem?_append] at hrun
    split at hrun
    · exact .inl hrun
    · rw [List.getElem?_singleton] at hrun
      obtain ⟨_, ⟨⟩⟩ := Option.ite_none_right_eq_some.1 hrun
      exact .inr rfl
  refine ⟨h.sound.dispatch hs document, fun uri huri => ?_, fun k run s' hrun hnone hs' => ?_, ?_⟩
  · refine h.hidden uri ?_
    rw [← Sessions.get?_supersede d.sessions n uri]
    exact huri
  · obtain ⟨s₀, hs₀, hpublished, _⟩ := hat _ s' hs'
    rw [hpublished]
    rcases hsplit k run hrun with hold | rfl
    · exact h.first k run s₀ hold hnone hs₀
    · obtain rfl := Option.some.inj (hs.symm.trans hs₀)
      have hle := h.sound.published n s hs
      change s.published ≠ ((s.dispatched + 1 : Nat) : Int)
      omega
  · intro uri m s' k run verdict hm hs' hrun hsession hlast hdone hconclusive
    obtain ⟨s₀, hs₀, _, hdispatched⟩ := hat m s' hs'
    rcases hsplit k run hrun with hold | rfl
    · change (d.sessions.supersede n).get? uri = some m at hm
      rw [Sessions.get?_supersede] at hm
      obtain ⟨s₁, hs₁, hle⟩ := h.sound.runs k run hold
      rw [hsession, hs₀] at hs₁
      obtain rfl := Option.some.inj hs₁
      refine h.shown uri m s₀ k run verdict hm hs₀ hold hsession ?_ hdone hconclusive
      omega
    · cases hdone

theorem Faithful.elapse (h : Faithful d) {n : Nat} {s : Session}
    (hs : d.sessions.at? n = some s) (document : String) : Faithful (d.elapse n document) := by
  refine (h.debounce n none (h.sound.debounce n none (.inl rfl))).dispatch (n := n)
    (s := { s with debounce := none }) ?_ document
  rw [Sessions.at?_modify, if_pos rfl, hs]
  rfl

theorem Faithful.diagnose (h : Faithful d) (uri document : String) :
    Faithful (d.diagnose uri document) := by
  obtain ⟨_, s, hs, _⟩ := h.sound.obtain uri
  exact (h.obtain uri).elapse hs document

theorem Faithful.arm (h : Faithful d) (uri : String) (debounce : Option Debounce) :
    Faithful (d.arm uri debounce) :=
  (h.obtain uri).debounce _ debounce (h.sound.arm uri debounce)

theorem Faithful.publish (h : Faithful d) {n : Nat} {run : Run} {s : Session} {verdict : Verdict}
    (run_eq : d.runs[n]? = some run) (session_eq : d.sessions.at? run.session = some s)
    (newest : s.mayPublish run.sequence = true) : Faithful (d.publish n run s verdict) := by
  obtain ⟨hopen, hlast, _⟩ := Session.newest newest
  have hregistered := h.sound.listed _ s session_eq hopen
  have hother : ∀ (k : Nat) run', k ≠ n → (d.publish n run s verdict).runs[k]? = some run' →
      d.runs[k]? = some run' := by
    intro k run' hk hrun'
    simpa [Desk.publish, Ne.symm hk] using hrun'
  have hself : ∀ run', (d.publish n run s verdict).runs[n]? = some run' →
      run' = { run with outcome := some (.done verdict) } := by
    intro run' hrun'
    simpa [Desk.publish, run_eq] using hrun'.symm
  have hat : ∀ m s', (d.publish n run s verdict).sessions.at? m = some s' →
      m = run.session ∧ s' = { s with published := run.sequence } ∨
        m ≠ run.session ∧ d.sessions.at? m = some s' := by
    intro m s' hs'
    change (d.sessions.modify run.session _).at? m = some s' at hs'
    rw [Sessions.at?_modify] at hs'
    split at hs'
    · rename_i hm
      rw [← hm, session_eq] at hs'
      exact .inl ⟨hm.symm, (Option.some.inj hs').symm⟩
    · rename_i hm
      exact .inr ⟨fun heq => hm heq.symm, hs'⟩
  have hsink : ∀ uri, (d.publish n run s verdict).sink.published.get? uri =
      if uri = s.uri then some verdict.diagnostics else d.sink.published.get? uri :=
    fun uri => Keyed.get?_put _ _ uri _
  refine ⟨h.sound.publish session_eq newest, fun uri huri => ?_, fun k run' s' hrun' hnone hs' => ?_,
    ?_⟩
  · rw [hsink, if_neg]
    · exact h.hidden uri huri
    · rintro rfl
      have hnone : d.sessions.get? s.uri = none := huri
      rw [hregistered] at hnone
      cases hnone
  · by_cases hk : k = n
    · subst hk
      rw [hself run' hrun'] at hnone
      cases hnone
    · have hold := hother k run' hk hrun'
      rcases hat _ s' hs' with ⟨hsession, rfl⟩ | ⟨_, hs⟩
      · intro heq
        exact hk (h.sound.newest_unique hold run_eq hsession (Int.ofNat.inj heq).symm)
      · exact h.first k run' s' hold hnone hs
  · intro uri m s' k run' verdict' hm hs' hrun' hsession hlast' hdone hconclusive
    have hm : d.sessions.get? uri = some m := hm
    rw [hsink]
    rcases hat m s' hs' with ⟨hm', rfl⟩ | ⟨hm', hs⟩
    -- The newest run of the session is the one that publishes.
    · subst hm'
      obtain ⟨s₀, hs₀, huri, _⟩ := h.sound.registered uri _ hm
      obtain rfl := Option.some.inj (session_eq.symm.trans hs₀)
      rw [if_pos huri.symm]
      have hk : k = n := by
        refine Classical.byContradiction fun hk => hk ?_
        have hseq : run'.sequence = run.sequence := hlast'.trans (Int.ofNat.inj hlast).symm
        exact h.sound.newest_unique (hother k run' hk hrun') run_eq hsession hseq
      subst hk
      rw [hself run' hrun'] at hdone
      cases hdone
      rfl
    · have hk : k ≠ n := by
        rintro rfl
        rw [hself run' hrun'] at hsession
        exact hm' hsession.symm
      rw [if_neg]
      · exact h.shown uri m s' k run' verdict' hm hs (hother k run' hk hrun') hsession hlast' hdone
          hconclusive
      · rintro rfl
        exact hm' (Option.some.inj (hm.symm.trans hregistered))

theorem Faithful.close (h : Faithful d) (uri : String) : Faithful (d.close uri) := by
  have hat : ∀ m s', (d.close uri).sessions.at? m = some s' →
      ∃ s, d.sessions.at? m = some s ∧ s'.published = s.published ∧
        s'.dispatched = s.dispatched := by
    intro m s' hs'
    change (d.sessions.close uri).at? m = some s' at hs'
    rw [Sessions.at?_close] at hs'
    split at hs'
    · obtain ⟨s, hs, rfl⟩ := Option.map_eq_some_iff.1 hs'
      exact ⟨s, hs, rfl, rfl⟩
    · exact ⟨s', hs', rfl, rfl⟩
  have hsink : ∀ other, (d.close uri).sink.published.get? other =
      if other = uri then none else d.sink.published.get? other :=
    fun other => Keyed.get?_drop _ uri other
  refine ⟨h.sound.close uri, fun other hother => ?_, fun k run s' hrun hnone hs' => ?_, ?_⟩
  · rw [hsink]
    split
    · rfl
    · rename_i hne
      refine h.hidden other ?_
      change (d.sessions.close uri).get? other = none at hother
      rw [Sessions.get?_close, if_neg hne] at hother
      exact hother
  · obtain ⟨s, hs, hpublished, _⟩ := hat _ s' hs'
    rw [hpublished]
    exact h.first k run s hrun hnone hs
  · intro other m s' k run verdict hm hs' hrun hsession hlast hdone hconclusive
    change (d.sessions.close uri).get? other = some m at hm
    rw [Sessions.get?_close] at hm
    split at hm
    · cases hm
    · rename_i hne
      obtain ⟨s, hs, _, hdispatched⟩ := hat m s' hs'
      rw [hsink, if_neg hne]
      exact h.shown other m s k run verdict hm hs hrun hsession (hlast.trans hdispatched) hdone
        hconclusive

end Shellwright.Review

namespace Shellwright.Reviewer

open Review

variable {r r' : Reviewer} {may : String → Prop} {b : Buffers} {e : Event}

/-- Runs may have ended; a verdict that should be shown is published with them. -/
theorem faithful_of_rests (h : Faithful r.desk) (evolves : r.Evolves r')
    (sessions : r'.sessions = r.sessions)
    (runs : r'.runs.map Run.ticket = r.runs.map Run.ticket) (sink : r'.sink = r.sink) :
    Faithful r'.desk := by
  have hsound : Sound r'.desk := by
    have htickets := h.sound.tickets runs
    change Sound ⟨r'.sessions, r'.runs, r'.sink⟩
    rw [sessions, sink]
    exact ⟨htickets.registered, htickets.listed, htickets.published, htickets.quiet,
      htickets.runs, htickets.ordered⟩
  have hback : ∀ (k : Nat) run', r'.runs[k]? = some run' →
      ∃ run, r.runs[k]? = some run ∧ run.ticket = run'.ticket := by
    intro k run' hrun'
    have hk : (r'.runs.map Run.ticket)[k]? = some run'.ticket := by
      rw [List.getElem?_map, hrun']
      rfl
    rw [runs, List.getElem?_map] at hk
    exact Option.map_eq_some_iff.1 hk
  refine ⟨hsound, ?_, fun k run' s hrun' hnone hs => ?_, ?_⟩
  · change ∀ uri, r'.sessions.get? uri = none → r'.sink.published.get? uri = none
    rw [sessions, sink]
    exact h.hidden
  · obtain ⟨run, hrun, hticket⟩ := hback k run' hrun'
    obtain ⟨hsession, hsequence, _⟩ := Run.eq_of_ticket hticket
    have hs : r.sessions.at? run.session = some s := by
      rw [hsession, ← sessions]
      exact hs
    rw [← hsequence]
    refine h.first k run s hrun ?_ hs
    cases hbefore : run.outcome with
    | none => rfl
    | some outcome =>
        have hkept := evolves.kept k outcome (by rw [getElem?_outcomes hrun, hbefore])
        rw [getElem?_outcomes hrun', hnone] at hkept
        cases hkept
  · intro uri n s k run' verdict hn hs hrun' hown hlast hdone hconclusive
    obtain ⟨run, hrun, hticket⟩ := hback k run' hrun'
    obtain ⟨hsession, hsequence, _⟩ := Run.eq_of_ticket hticket
    have hn : r.sessions.get? uri = some n := by
      rw [← sessions]
      exact hn
    have hs : r.sessions.at? n = some s := by
      rw [← sessions]
      exact hs
    have hown : run.session = n := hsession.trans hown
    have hlast : run.sequence = s.dispatched := hsequence.trans hlast
    have hdone' : r'.outcomes[k]? = some (some (.done verdict)) := by
      rw [getElem?_outcomes hrun', hdone]
    change r'.sink.published.get? uri = some verdict.diagnostics
    rw [sink]
    cases hbefore : run.outcome with
    | some outcome =>
        have hkept := evolves.kept k outcome (by rw [getElem?_outcomes hrun, hbefore])
        rw [hdone'] at hkept
        cases hkept
        exact h.shown uri n s k run verdict hn hs hrun hown hlast hbefore hconclusive
    -- The newest run of an open session may publish when it ends, for it has not done so before.
    | none =>
        have hfirst := h.first k run s hrun hbefore (hown ▸ hs)
        have hle := h.sound.published n s hs
        obtain ⟨s₀, hs₀, huri, hopen⟩ := h.sound.registered uri n hn
        obtain rfl := Option.some.inj (hs.symm.trans hs₀)
        rcases evolves.judged k run verdict hrun hbefore hdone' with hquiet | hstale |
          ⟨session, hsession, hdesk⟩
        · rw [hconclusive] at hquiet
          cases hquiet
        · have hmay : s.mayPublish run.sequence = true := by
            simp only [Session.mayPublish, hopen, Bool.not_false, Bool.true_and, Bool.and_eq_true,
              beq_iff_eq, decide_eq_true_eq]
            exact ⟨congrArg Int.ofNat hlast, by omega⟩
          rw [hstale s (hown ▸ hs)] at hmay
          cases hmay
        · obtain rfl := Option.some.inj (hs.symm.trans (hown ▸ hsession))
          have hpublished : r'.sink = r.sink.publish s.uri verdict.diagnostics :=
            congrArg Desk.sink hdesk
          rw [← sink, hpublished, huri]
          exact Keyed.get?_put_self _ uri _

theorem faithful_of_does (h : Faithful r.desk) (evolves : r.Evolves r')
    (does : Does may b e r.desk r'.desk) (running : ∀ n, e ≠ .call n .shutdown) :
    Faithful r'.desk := by
  cases does with
  | rests sessions runs sink => exact faithful_of_rests h evolves sessions runs sink
  | publishes n run session verdict run_eq session_eq conclusive newest desk =>
      rw [desk]
      exact h.publish run_eq session_eq newest
  | diagnoses document allowed shell desk =>
      rw [desk]
      exact h.diagnose _ document
  | elapses number session debounce event session_eq pending desk =>
      rw [desk]
      exact h.elapse session_eq _
  | arms document debounce event own desk =>
      rw [desk]
      exact h.arm _ debounce
  | closes document event desk =>
      rw [desk]
      exact h.close _
  | shuts n event desk => exact absurd event (running n)

end Shellwright.Reviewer
