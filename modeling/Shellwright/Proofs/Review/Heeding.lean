import Shellwright.Proofs.Review.Addresses
/-!
# Runs that still count

A run that has not been called off is the newest of an open session. A document that is checked anew
therefore leaves one run of its address that counts, and nothing that waits for the address to be quiet.
-/

namespace Shellwright.Review

/-- Every run has been called off that is not the newest of an open session. -/
def Heeded (d : Desk) : Prop :=
  ∀ (k : Nat) run s, d.runs[k]? = some run → d.sessions.at? run.session = some s →
    d.sessions.cancelled[k]? = some false → s.source = some k ∧ s.closed = false

/-- Run `k` is the newest of the address, whose other runs have all been called off; nothing waits for
the address to be quiet. -/
structure Desk.Heads (d : Desk) (uri : String) (k : Nat) : Prop where
  newest : ∃ n s, d.sessions.get? uri = some n ∧ d.sessions.at? n = some s ∧ s.source = some k ∧
    s.debounce = none
  current : d.sessions.cancelled[k]? = some false
  others : ∀ (j : Nat) run s, j ≠ k → d.runs[j]? = some run → d.sessions.at? run.session = some s →
    s.uri = uri → d.sessions.cancelled[j]? = some true

variable {d d' : Desk}

theorem Heeded.start {sink : DiagnosticSink} : Heeded ⟨{}, [], sink⟩ := by
  intro k run s hrun
  cases hrun

/-! ## Flags that are not raised -/

/-- The flag of the newest run is raised, and no flag is taken back. -/
theorem Sessions.cancelled_cancelNewest {s : Sessions} {n k : Nat}
    (h : (s.cancelNewest n).cancelled[k]? = some false) :
    s.cancelled[k]? = some false ∧ (s.at? n).bind (·.source) ≠ some k := by
  unfold cancelNewest at h
  split at h
  · rename_i run hsource
    change (s.cancelled.set run true)[k]? = some false at h
    rw [List.getElem?_set] at h
    split at h
    · split at h <;> cases h
    · rename_i hne
      exact ⟨h, fun heq => hne (Option.some.inj (hsource.symm.trans heq))⟩
  · rename_i hnone
    rw [hnone]
    exact ⟨h, nofun⟩

theorem Heeded.same (h : Heeded d) (tickets : d'.runs.map Run.ticket = d.runs.map Run.ticket)
    (cancelled : d'.sessions.cancelled = d.sessions.cancelled)
    (sessions : ∀ n s', (∃ s, d.sessions.at? n = some s) → d'.sessions.at? n = some s' →
      ∃ s, d.sessions.at? n = some s ∧ s'.source = s.source ∧ s'.closed = s.closed)
    (sound : Sound d) : Heeded d' := by
  intro k run' s' hrun' hs' hflag
  have hlater : Later { d with runs := d'.runs } d := .of_tickets (.refl _) tickets.symm
  obtain ⟨run, hrun, hticket⟩ := hlater.runs k run' hrun'
  rw [← (Run.eq_of_ticket hticket).1] at hs'
  obtain ⟨s₀, hs₀, -⟩ := sound.runs k run hrun
  obtain ⟨s, hs, hsource, hclosed⟩ := sessions _ s' ⟨s₀, hs₀⟩ hs'
  rw [hsource, hclosed]
  rw [cancelled] at hflag
  exact h k run s hrun hs hflag

/-- One session has changed in what says nothing about its runs. -/
theorem Heeded.at? (h : Heeded d) (sound : Sound d)
    (tickets : d'.runs.map Run.ticket = d.runs.map Run.ticket)
    (cancelled : d'.sessions.cancelled = d.sessions.cancelled) {n : Nat} {f : Session → Session}
    (at_eq : ∀ m, d'.sessions.at? m =
      if n = m then (d.sessions.at? m).map f else d.sessions.at? m)
    (kept : ∀ s, (f s).source = s.source ∧ (f s).closed = s.closed) : Heeded d' := by
  refine h.same tickets cancelled (fun m s' _ hs' => ?_) sound
  rw [at_eq] at hs'
  split at hs'
  · obtain ⟨s, hs, rfl⟩ := Option.map_eq_some_iff.1 hs'
    exact ⟨s, hs, kept s⟩
  · exact ⟨s', hs', rfl, rfl⟩

theorem Heeded.debounce (h : Heeded d) (sound : Sound d) (n : Nat) (debounce : Option Debounce) :
    Heeded { d with
      sessions := d.sessions.modify n fun s => { s with debounce := debounce } } :=
  h.at? sound rfl rfl (fun m => Sessions.at?_modify d.sessions n m _) fun _ => ⟨rfl, rfl⟩

theorem Heeded.obtain (h : Heeded d) (sound : Sound d) (uri : String) :
    Heeded { d with sessions := (d.sessions.obtain uri).1 } := by
  cases hget : d.sessions.get? uri with
  | some n =>
      rw [Sessions.obtain_of_some hget]
      exact h
  | none =>
      have hcancelled : (d.sessions.obtain uri).1.cancelled = d.sessions.cancelled := by
        unfold Sessions.obtain
        rw [hget]
      refine h.same rfl hcancelled (fun m s' hold hs' => ?_) sound
      obtain ⟨s, hs⟩ := hold
      change (d.sessions.obtain uri).1.at? m = some s' at hs'
      rw [Sessions.at?_obtain_none hget, if_neg (Nat.ne_of_lt (Sessions.lt_of_at? hs))] at hs'
      exact ⟨s', hs', rfl, rfl⟩

/-! ## Steps -/

/-- The run that is dispatched takes the place of the one before. -/
theorem Heeded.dispatch (h : Heeded d) (flagged : Flagged d) {n : Nat} {s : Session}
    (hs : d.sessions.at? n = some s) (opened : s.closed = false) (document : String) :
    Heeded (d.dispatch n document) := by
  have hlength : (d.sessions.cancelNewest n).cancelled.length = d.runs.length :=
    (d.sessions.length_cancelNewest n).trans flagged.flags
  intro k run s' hrun hs' hflag
  rw [Desk.dispatch_runs hs] at hrun
  change (d.sessions.supersede n).at? run.session = some s' at hs'
  change ((d.sessions.cancelNewest n).cancelled ++ [false])[k]? = some false at hflag
  rw [Sessions.at?_supersede] at hs'
  rcases Nat.lt_or_ge k d.runs.length with hlt | hge
  -- A run of the session that counted so far is called off.
  · rw [List.getElem?_append_left hlt] at hrun
    rw [List.getElem?_append_left (hlength ▸ hlt)] at hflag
    obtain ⟨hbefore, hother⟩ := Sessions.cancelled_cancelNewest hflag
    split at hs'
    · rename_i hn
      obtain ⟨s₀, hs₀, rfl⟩ := Option.map_eq_some_iff.1 hs'
      refine absurd ?_ hother
      rw [hn, hs₀]
      exact (h k run s₀ hrun hs₀ hbefore).1
    · exact h k run s' hrun hs' hbefore
  · rw [List.getElem?_append_right hge, List.getElem?_singleton] at hrun
    obtain ⟨hk, ⟨⟩⟩ := Option.ite_none_right_eq_some.1 hrun
    rw [if_pos rfl, hs] at hs'
    cases hs'
    exact ⟨congrArg some (by omega), opened⟩

theorem Heeded.elapse (h : Heeded d) (sound : Sound d) (flagged : Flagged d) {n : Nat} {s : Session}
    (hs : d.sessions.at? n = some s) (opened : s.closed = false) (document : String) :
    Heeded (d.elapse n document) := by
  refine (h.debounce sound n none).dispatch (flagged.debounce n none)
    (s := { s with debounce := none }) ?_ opened document
  exact (Sessions.at?_modify d.sessions n n _).trans (by rw [if_pos rfl, hs]; rfl)

theorem Heeded.diagnose (h : Heeded d) (sound : Sound d) (flagged : Flagged d)
    (uri document : String) : Heeded (d.diagnose uri document) := by
  obtain ⟨hsound, s, hs, -, hopened⟩ := sound.obtain uri
  exact (h.obtain sound uri).elapse hsound (flagged.obtain uri) hs hopened document

/-- The run of a session that is closed is called off. -/
theorem Heeded.closeSession (h : Heeded d) (n : Nat) :
    Heeded { d with sessions := d.sessions.closeSession n } := by
  intro k run s' hrun hs' hflag
  change (d.sessions.closeSession n).at? run.session = some s' at hs'
  obtain ⟨hbefore, hother⟩ := Sessions.cancelled_cancelNewest hflag
  rw [Sessions.at?_closeSession] at hs'
  split at hs'
  · rename_i hn
    obtain ⟨s, hs, rfl⟩ := Option.map_eq_some_iff.1 hs'
    refine absurd ?_ hother
    rw [Sessions.at?_modify, if_pos rfl, hn, hs]
    exact (h k run s hrun hs hbefore).1
  · exact h k run s' hrun hs' hbefore

theorem Heeded.foldl_closeSession (h : Heeded d) (numbers : List Nat) :
    Heeded { d with sessions := numbers.foldl Sessions.closeSession d.sessions } := by
  induction numbers generalizing d with
  | nil => exact h
  | cons n rest ih => exact ih (h.closeSession n)

/-- Every step leaves only runs in force that are the newest of an open session. -/
theorem Does.heeded {may : String → Prop} {b : Buffers} {e : Event} (does : Does may b e d d')
    (sound : Sound d) (flagged : Flagged d) (h : Heeded d) : Heeded d' := by
  cases does with
  | rests sessions runs sink =>
      refine h.same runs (by rw [sessions]) (fun n s' _ hs' => ⟨s', ?_, rfl, rfl⟩) sound
      rw [← sessions]
      exact hs'
  | publishes n run session verdict run_eq session_eq conclusive newest desk =>
      subst desk
      exact h.at? sound (Reviewer.tickets_modify d.runs n fun _ => rfl) rfl
        (fun m => Sessions.at?_modify d.sessions run.session m _) fun _ => ⟨rfl, rfl⟩
  | diagnoses document allowed shell desk =>
      subst desk
      exact h.diagnose sound flagged _ document
  | elapses number session debounce event session_eq pending desk =>
      subst desk
      refine h.elapse sound flagged session_eq ?_ _
      cases hclosed : session.closed with
      | false => rfl
      | true =>
          rw [sound.quiet number session session_eq hclosed] at pending
          cases pending
  | arms document debounce event own desk =>
      subst desk
      exact (h.obtain sound _).debounce (sound.obtain _).1 _ debounce
  | closes document event desk =>
      subst desk
      change Heeded { d with
        sessions := d.sessions.close (b.find document).uri
        sink := d.sink.clear (b.find document).uri }
      unfold Sessions.close
      split
      · rename_i n _
        have hforgotten : Heeded { d with sessions := { d.sessions with
            registered := d.sessions.registered.drop (b.find document).uri } } := h
        exact hforgotten.closeSession n
      · exact h
  | shuts n event desk =>
      subst desk
      have hforgotten : Heeded { d with sessions := { d.sessions with registered := [] } } := h
      exact hforgotten.foldl_closeSession _

/-! ## Checks -/

/-- A run takes the place of all others of its address. -/
theorem Desk.dispatch_heads (sound : Sound d) (flagged : Flagged d) (heeded : Heeded d) {n : Nat}
    {s : Session} (hs : d.sessions.at? n = some s) (opened : s.closed = false)
    (quiet : s.debounce = none) (document : String) :
    (d.dispatch n document).Heads s.uri d.runs.length := by
  have hlength : (d.sessions.cancelNewest n).cancelled.length = d.runs.length :=
    (d.sessions.length_cancelNewest n).trans flagged.flags
  have hat : (d.dispatch n document).sessions.at? n =
      some { s with dispatched := s.dispatched + 1, source := some d.runs.length } := by
    rw [← hlength]
    exact (Sessions.at?_supersede _ n n).trans (by rw [if_pos rfl, hs]; rfl)
  have hsound := sound.dispatch hs document
  have hget : (d.dispatch n document).sessions.get? s.uri = some n :=
    hsound.listed n
      { s with dispatched := s.dispatched + 1, source := some d.runs.length } hat opened
  refine ⟨⟨n, _, hget, hat, rfl, quiet⟩, ?_, fun j run s' hne hrun hs' huri => ?_⟩
  · rw [← hlength]
    exact List.getElem?_concat_length
  · have hlt : j < (d.dispatch n document).sessions.cancelled.length := by
      rw [(flagged.dispatch hs document).flags]
      exact (List.getElem?_eq_some_iff.1 hrun).1
    have hflag := List.getElem?_eq_getElem hlt
    cases hraised : (d.dispatch n document).sessions.cancelled[j] with
    | true => rw [hflag, hraised]
    | false =>
        rw [hraised] at hflag
        obtain ⟨hsource, hopen⟩ :=
          heeded.dispatch flagged hs opened document j run s' hrun hs' hflag
        have hlisted := hsound.listed _ s' hs' hopen
        rw [huri, hget] at hlisted
        rw [← Option.some.inj hlisted, hat] at hs'
        cases hs'
        exact absurd (Option.some.inj hsource).symm hne

/-- A check takes the place of all runs of its address and of what waits for it to be quiet. -/
theorem Desk.diagnose_heads (sound : Sound d) (flagged : Flagged d) (heeded : Heeded d)
    (uri document : String) : (d.diagnose uri document).Heads uri d.runs.length := by
  obtain ⟨hsound, s, hs, rfl, hopened⟩ := sound.obtain uri
  have hquiet : ((d.sessions.obtain s.uri).1.cancelPending (d.sessions.obtain s.uri).2).at?
      (d.sessions.obtain s.uri).2 = some { s with debounce := none } :=
    (Sessions.at?_modify _ _ _ _).trans (by rw [if_pos rfl, hs]; rfl)
  exact Desk.dispatch_heads (hsound.debounce _ none (.inl rfl))
    ((flagged.obtain s.uri).debounce _ none) ((heeded.obtain sound s.uri).debounce hsound _ none)
    hquiet hopened rfl document

end Shellwright.Review
