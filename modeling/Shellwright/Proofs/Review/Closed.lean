import Shellwright.Proofs.Review.Publication
/-!
# Documents that are closed

After a document has been closed no session of its address is open and none waits for a timer. That
changes only when the document is edited or when something has it checked.
-/

namespace Shellwright.Review

/-- Timers that are pending were pending before. -/
def Sessions.Quiets (s s' : Sessions) : Prop :=
  ∀ n session' debounce, s'.at? n = some session' → session'.debounce = some debounce →
    ∃ session, s.at? n = some session ∧ session.debounce = some debounce

namespace Sessions

theorem Quiets.refl (s : Sessions) : s.Quiets s := fun _ session _ h hpending =>
  ⟨session, h, hpending⟩

theorem Quiets.trans {s s' s'' : Sessions} (h : s.Quiets s') (h' : s'.Quiets s'') :
    s.Quiets s'' := by
  intro n session'' debounce hsession'' hpending''
  obtain ⟨session', hsession', hpending'⟩ := h' n session'' debounce hsession'' hpending''
  exact h n session' debounce hsession' hpending'

/-- Some sessions have changed, and none of them has set a timer. -/
theorem quiets_of_at? {s s' : Sessions} {p : Nat → Prop} [DecidablePred p] {f : Session → Session}
    (at_eq : ∀ m, s'.at? m = if p m then (s.at? m).map f else s.at? m)
    (quiet : ∀ session debounce, (f session).debounce = some debounce →
      session.debounce = some debounce) : s.Quiets s' := by
  intro n session' debounce hsession' hpending
  rw [at_eq] at hsession'
  split at hsession'
  · obtain ⟨session, hsession, rfl⟩ := Option.map_eq_some_iff.1 hsession'
    exact ⟨session, hsession, quiet session debounce hpending⟩
  · exact ⟨session', hsession', hpending⟩

theorem obtain_quiets (s : Sessions) (uri : String) : s.Quiets (s.obtain uri).1 := by
  cases hget : s.get? uri with
  | some n =>
      rw [obtain_of_some hget]
      exact .refl s
  | none =>
      intro n session' debounce hsession' hpending
      rw [at?_obtain_none hget] at hsession'
      split at hsession'
      · cases hsession'
        cases hpending
      · exact ⟨session', hsession', hpending⟩

theorem supersede_quiets (s : Sessions) (n : Nat) : s.Quiets (s.supersede n) :=
  quiets_of_at? (at?_supersede s n) fun _ _ h => h

theorem cancelPending_quiets (s : Sessions) (n : Nat) : s.Quiets (s.cancelPending n) :=
  quiets_of_at? (fun m => at?_modify s n m _) fun _ _ h => nomatch h

theorem closed_quiets {s s' : Sessions} {p : Nat → Prop} [DecidablePred p]
    (at_eq : ∀ m, s'.at? m = if p m then (s.at? m).map fun session =>
      { session with closed := true, debounce := none } else s.at? m) : s.Quiets s' :=
  quiets_of_at? at_eq fun _ _ h => nomatch h

end Sessions

variable {d d' : Desk} {uri : String}

namespace Desk

/-- No session of the address waits for a timer. -/
def Idle (d : Desk) (uri : String) : Prop :=
  ∀ n s, d.sessions.at? n = some s → s.uri = uri → s.debounce = none

/-- Run `k` belongs to an open session of the address. -/
structure Live (d : Desk) (uri : String) (k : Nat) (run : Run) : Prop where
  run_eq : d.runs[k]? = some run
  session : ∃ s, d.sessions.at? run.session = some s ∧ s.uri = uri ∧ s.closed = false

theorem elapse_quiets (d : Desk) (n : Nat) (document : String) :
    d.sessions.Quiets (d.elapse n document).sessions :=
  (Sessions.cancelPending_quiets d.sessions n).trans (Sessions.supersede_quiets _ n)

theorem elapse_runs {n : Nat} {s : Session} (hs : d.sessions.at? n = some s) (document : String) :
    (d.elapse n document).runs =
      d.runs ++ [{ session := n, sequence := s.dispatched + 1, document := document }] := by
  refine dispatch_runs (d := { d with sessions := d.sessions.cancelPending n })
    (s := { s with debounce := none }) ?_ document
  rw [Sessions.cancelPending, Sessions.at?_modify, if_pos rfl, hs]
  rfl

/-- A run is dispatched for a session, which waits for no timer then. -/
theorem at?_elapse {n : Nat} {s : Session} (hs : d.sessions.at? n = some s) (document : String) :
    ∃ source, (d.elapse n document).sessions.at? n = some { s with
      debounce := none
      dispatched := s.dispatched + 1
      source := source } := by
  have hat := Sessions.at?_supersede (d.sessions.cancelPending n) n n
  rw [Sessions.cancelPending, Sessions.at?_modify, if_pos rfl, if_pos rfl, hs] at hat
  exact ⟨_, hat⟩

end Desk

/-- A check dispatches a run for the open session of the address. -/
theorem Sound.diagnose_dispatches (h : Sound d) (uri document : String) :
    ∃ run s', (d.diagnose uri document).runs = d.runs ++ [run] ∧
      (d.diagnose uri document).sessions.at? run.session = some s' ∧ s'.uri = uri ∧
        s'.closed = false ∧ run.document = document := by
  obtain ⟨_, s, hs, huri, hopen⟩ := h.obtain uri
  obtain ⟨source, hs'⟩ := Desk.at?_elapse
    (d := { d with sessions := (d.sessions.obtain uri).1 }) hs document
  exact ⟨_, _, Desk.elapse_runs hs document, hs', huri, hopen, rfl⟩

/-- An address without an open session is idle, and no run of it is live. -/
theorem Sound.idle (h : Sound d) (unregistered : d.sessions.get? uri = none) :
    d.Idle uri ∧ ∀ k run, ¬d.Live uri k run := by
  have hclosed : ∀ n s, d.sessions.at? n = some s → s.uri = uri → s.closed ≠ false := by
    rintro n s hs rfl hopen
    rw [h.listed n s hs hopen] at unregistered
    cases unregistered
  constructor
  · intro n s hs huri
    exact h.quiet n s hs (by simpa using hclosed n s hs huri)
  · rintro k run ⟨_, s, hs, huri, hopen⟩
    exact hclosed _ s hs huri hopen

theorem Desk.Idle.quiets (h : d.Idle uri) (quiets : d.sessions.Quiets d'.sessions)
    (grow : d.sessions.Grow d'.sessions) : d'.Idle uri := by
  intro n s' hs' huri
  cases hpending : s'.debounce with
  | none => rfl
  | some debounce =>
      obtain ⟨s, hs, hbefore⟩ := quiets n s' debounce hs' hpending
      obtain ⟨s₁, hs₁, hgrows⟩ := grow n s hs
      obtain rfl := Option.some.inj (hs₁.symm.trans hs')
      rw [h n s hs (hgrows.uri.symm.trans huri)] at hbefore
      cases hbefore

section Does

variable {may : String → Prop} {b : Buffers} {e : Event}

/-- Only an edit of a document sets a timer for its address. -/
theorem Does.idle (does : Does may b e d d') (sound : Sound d) (idle : d.Idle uri)
    (unnamed : ∀ name, e.Names name → (b.find name).uri ≠ uri) : d'.Idle uri := by
  have hgrow := does.later.sessions
  cases does with
  | rests sessions runs sink => exact idle.quiets (sessions ▸ .refl _) hgrow
  | publishes n run session verdict run_eq session_eq conclusive newest desk =>
      subst desk
      refine idle.quiets ?_ hgrow
      exact Sessions.quiets_of_at? (fun m => Sessions.at?_modify d.sessions run.session m _)
        fun _ _ h => h
  | diagnoses document allowed shell desk =>
      subst desk
      exact idle.quiets ((Sessions.obtain_quiets d.sessions _).trans (Desk.elapse_quiets _ _ _)) hgrow
  | elapses number session debounce event session_eq pending desk =>
      subst desk
      exact idle.quiets (Desk.elapse_quiets d number _) hgrow
  | arms document debounce event own desk =>
      subst event
      subst desk
      have hobtain : Desk.Idle { d with sessions := (d.sessions.obtain (b.find document).uri).1 } uri :=
        idle.quiets (Sessions.obtain_quiets d.sessions _) (Sessions.obtain_grow d.sessions _)
      obtain ⟨_, s₀, hs₀, huri₀, _⟩ := sound.obtain (b.find document).uri
      intro n s' hs' huri
      unfold Desk.arm at hs'
      rw [Sessions.at?_modify] at hs'
      split at hs'
      · rename_i hn
        rw [← hn, hs₀] at hs'
        cases hs'
        exact absurd (huri₀.symm.trans huri) (unnamed document rfl)
      · exact hobtain n s' hs' huri
  | closes document event desk =>
      subst desk
      exact idle.quiets (Sessions.closed_quiets fun m => Sessions.at?_close d.sessions _ m) hgrow
  | shuts n event desk =>
      subst desk
      exact idle.quiets (Sessions.closed_quiets fun m => Sessions.at?_foldl_closeSession _ m _) hgrow

/-- A step dispatches one run at most, of an open session: for a document that may be checked or for a
session whose timer was pending. -/
theorem Does.dispatches (does : Does may b e d d') (sound : Sound d) :
    d'.runs.map Run.ticket = d.runs.map Run.ticket ∨
      ∃ run s', d'.runs = d.runs ++ [run] ∧ d'.sessions.at? run.session = some s' ∧
        s'.closed = false ∧ (may run.document ∧ s'.uri = (b.find run.document).uri ∨
          ∃ s, d.sessions.at? run.session = some s ∧ s'.uri = s.uri ∧ s.debounce ≠ none) := by
  cases does with
  | rests sessions runs sink => exact .inl runs
  | publishes n run session verdict run_eq session_eq conclusive newest desk =>
      subst desk
      exact .inl (Reviewer.tickets_modify d.runs n fun _ => rfl)
  | diagnoses document allowed shell desk =>
      subst desk
      obtain ⟨run, s', hruns, hs', huri, hopen, hdocument⟩ :=
        sound.diagnose_dispatches (b.find document).uri document
      subst hdocument
      exact .inr ⟨run, s', hruns, hs', hopen, .inl ⟨allowed, huri⟩⟩
  | elapses number session debounce event session_eq pending desk =>
      subst desk
      obtain ⟨source, hs'⟩ := Desk.at?_elapse session_eq debounce.document
      refine .inr ⟨_, _, Desk.elapse_runs session_eq debounce.document, hs', ?_, .inr
        ⟨session, session_eq, rfl, ?_⟩⟩
      · cases hclosed : session.closed with
        | false => rfl
        | true =>
            rw [sound.quiet number session session_eq hclosed] at pending
            cases pending
      · rw [pending]
        exact nofun
  | arms document debounce event own desk =>
      subst desk
      exact .inl rfl
  | closes document event desk =>
      subst desk
      exact .inl rfl
  | shuts n event desk =>
      subst desk
      exact .inl rfl

/-- While an address is idle, a run of it that is live was live before or is dispatched now, for a
document that may be checked. -/
theorem Does.live (does : Does may b e d d') (sound : Sound d) (idle : d.Idle uri) {k : Nat}
    {run' : Run} (live : d'.Live uri k run') :
    (∃ run, d.Live uri k run ∧ run.ticket = run'.ticket) ∨
      d.runs[k]? = none ∧ may run'.document ∧ (b.find run'.document).uri = uri := by
  have hlater := does.later
  obtain ⟨hrun', s', hs', huri, hopen⟩ := live
  cases hrun : d.runs[k]? with
  -- A session that is open now was open before.
  | some run =>
      obtain ⟨run₁, hrun₁, hticket⟩ := hlater.runs k run hrun
      obtain rfl := Option.some.inj (hrun₁.symm.trans hrun')
      obtain ⟨s, hs, _⟩ := sound.runs k run hrun
      obtain ⟨s₁, hs₁, hgrows⟩ := hlater.sessions _ s hs
      rw [(Run.eq_of_ticket hticket).1] at hs'
      obtain rfl := Option.some.inj (hs₁.symm.trans hs')
      refine .inl ⟨run, ⟨hrun, s, hs, hgrows.uri.symm.trans huri, ?_⟩, hticket.symm⟩
      cases hclosed : s.closed with
      | false => rfl
      | true =>
          rw [hgrows.closed hclosed] at hopen
          cases hopen
  | none =>
      have hlt := (List.getElem?_eq_some_iff.1 hrun').1
      have hge := List.getElem?_eq_none_iff.1 hrun
      rcases does.dispatches sound with hsame | ⟨run, s₁, hruns, hs₁, _, hcause⟩
      · have hlength := congrArg List.length hsame
        rw [List.length_map, List.length_map] at hlength
        omega
      · rw [hruns, List.getElem?_append_right hge] at hrun'
        rw [hruns, List.length_append, List.length_singleton] at hlt
        have hzero : k - d.runs.length = 0 := by omega
        rw [hzero] at hrun'
        obtain rfl := Option.some.inj hrun'
        obtain rfl := Option.some.inj (hs₁.symm.trans hs')
        -- A timer is no cause, since the address is idle.
        rcases hcause with ⟨hmay, hown⟩ | ⟨s, hs, hown, hpending⟩
        · exact .inr ⟨rfl, hmay, hown.symm.trans huri⟩
        · exact absurd (idle _ s hs (hown.symm.trans huri)) hpending

end Does

end Shellwright.Review

namespace Shellwright

open Review

theorem DiagnosticSink.publications_publish (s : DiagnosticSink) (uri other : String)
    (diagnostics : List Diagnostic) :
    (s.publish uri diagnostics).publications other =
      s.publications other + if uri = other then 1 else 0 := by
  unfold publish publications
  rw [List.countP_append, List.countP_singleton]
  simp only [beq_iff_eq]

namespace Reviewer

variable {r r' : Reviewer} {may : String → Prop} {b : Buffers} {e : Event} {uri : String}

/-- An address without diagnostics stays without them, unless a run of it publishes. -/
theorem clear_or_publishes (sound : Sound r.desk) (does : Does may b e r.desk r'.desk)
    (clear : r.sink.published.get? uri = none) :
    (r'.sink.published.get? uri = none ∧ r'.sink.publications uri = r.sink.publications uri) ∨
      ∃ n run session verdict, Publishes r r' n run session verdict ∧ session.uri = uri := by
  rcases sink_of_does sound does with hsink | ⟨other, hsink⟩ | ⟨n, run, session, verdict, hpublishes⟩
  · rw [hsink]
    exact .inl ⟨clear, rfl⟩
  · rw [hsink]
    refine .inl ⟨?_, rfl⟩
    change (r.sink.published.drop other).get? uri = none
    rw [Keyed.get?_drop, clear]
    split <;> rfl
  · by_cases huri : session.uri = uri
    · exact .inr ⟨n, run, session, verdict, hpublishes, huri⟩
    · rw [hpublishes.sink, DiagnosticSink.publications_publish, if_neg huri]
      refine .inl ⟨?_, rfl⟩
      change (r.sink.published.put session.uri _).get? uri = none
      rw [Keyed.get?_put, if_neg (Ne.symm huri)]
      exact clear

end Reviewer

end Shellwright
