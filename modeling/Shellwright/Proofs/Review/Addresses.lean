import Shellwright.Proofs.Review.Deeds
import Shellwright.Proofs.Review.Publication
/-!
# One address at a time

What is done for the documents of one address leaves the sessions of every other address as they are,
with their timers, numbers and runs, and so does it what is published for it.
-/

namespace Shellwright.Review

/-- Every run has a flag, and the newest run of a session belongs to it. -/
structure Flagged (d : Desk) : Prop where
  flags : d.sessions.cancelled.length = d.runs.length
  source : ∀ n s k, d.sessions.at? n = some s → s.source = some k →
    ∃ run, d.runs[k]? = some run ∧ run.session = n

/-- What concerns the address `uri` stays as it is; runs of other addresses may have been dispatched. -/
structure Desk.Spares (uri : String) (d d' : Desk) : Prop where
  registered : d'.sessions.get? uri = d.sessions.get? uri
  sessions : ∀ n s, s.uri = uri → (d'.sessions.at? n = some s ↔ d.sessions.at? n = some s)
  cancelled : ∀ (k : Nat) run s, d.runs[k]? = some run → d.sessions.at? run.session = some s →
    s.uri = uri → d'.sessions.cancelled[k]? = d.sessions.cancelled[k]?
  runs : ∃ runs : List Run, d'.runs.map Run.ticket = d.runs.map Run.ticket ++ runs.map Run.ticket ∧
    ∀ run ∈ runs, ∀ s, d'.sessions.at? run.session = some s → s.uri ≠ uri
  shown : d'.sink.published.get? uri = d.sink.published.get? uri
  history : d'.sink.history.filter (·.1 = uri) = d.sink.history.filter (·.1 = uri)

variable {d d' d'' : Desk} {uri other : String}

theorem Desk.Spares.refl (uri : String) (d : Desk) : d.Spares uri d where
  registered := rfl
  sessions _ _ _ := .rfl
  cancelled _ _ _ _ _ _ := rfl
  runs := ⟨[], by simp, nofun⟩
  shown := rfl
  history := rfl

theorem Desk.Spares.trans (h : d.Spares uri d') (h' : d'.Spares uri d'') : d.Spares uri d'' where
  registered := h'.registered.trans h.registered
  sessions n s huri := (h'.sessions n s huri).trans (h.sessions n s huri)
  cancelled k run s hrun hs huri := by
    obtain ⟨runs, hruns, _⟩ := h.runs
    obtain ⟨run', hrun', hticket⟩ : ∃ run', d'.runs[k]? = some run' ∧ run'.ticket = run.ticket := by
      have hlt := (List.getElem?_eq_some_iff.1 hrun).1
      have hk : (d'.runs.map Run.ticket)[k]? = some run.ticket := by
        rw [hruns, List.getElem?_append_left (by simpa using hlt), List.getElem?_map, hrun]
        rfl
      rw [List.getElem?_map] at hk
      exact Option.map_eq_some_iff.1 hk
    have hs' : d'.sessions.at? run'.session = some s := by
      rw [(Run.eq_of_ticket hticket).1]
      exact (h.sessions _ s huri).2 hs
    exact (h'.cancelled k run' s hrun' hs' huri).trans (h.cancelled k run s hrun hs huri)
  runs := by
    obtain ⟨runs, hruns, hothers⟩ := h.runs
    obtain ⟨runs', hruns', hothers'⟩ := h'.runs
    refine ⟨runs ++ runs', by rw [hruns', hruns, List.map_append, List.append_assoc], ?_⟩
    intro run hrun s hs huri
    rcases List.mem_append.1 hrun with hrun | hrun
    · exact hothers run hrun s ((h'.sessions _ s huri).1 hs) huri
    · exact hothers' run hrun s hs huri
  shown := h'.shown.trans h.shown
  history := h'.history.trans h.history

/-! ## Flags of runs -/

theorem Flagged.start (sink : DiagnosticSink) : Flagged ⟨{}, [], sink⟩ := by
  refine ⟨rfl, ?_⟩
  rintro n s k ⟨⟩

/-- The sessions have changed in what says nothing about their runs. -/
theorem Flagged.of_sources (h : Flagged d)
    (flags : d'.sessions.cancelled.length = d.sessions.cancelled.length)
    (tickets : d'.runs.map Run.ticket = d.runs.map Run.ticket)
    (sources : ∀ n s', d'.sessions.at? n = some s' →
      s'.source = none ∨ ∃ s, d.sessions.at? n = some s ∧ s'.source = s.source) : Flagged d' where
  flags := by
    have hlength := congrArg List.length tickets
    rw [List.length_map, List.length_map] at hlength
    rw [flags, h.flags, hlength]
  source n s' k hs' hk := by
    rcases sources n s' hs' with hnone | ⟨s, hs, hsame⟩
    · rw [hnone] at hk
      cases hk
    · obtain ⟨run, hrun, hown⟩ := h.source n s k hs (hsame.symm.trans hk)
      have hlater : Later d { d' with sessions := d.sessions } :=
        .of_tickets (.refl d.sessions) tickets
      obtain ⟨run', hrun', hticket⟩ := hlater.runs k run hrun
      exact ⟨run', hrun', (Run.eq_of_ticket hticket).1.trans hown⟩

theorem Flagged.of_at? (h : Flagged d) (sessions : Sessions) {p : Nat → Prop} [DecidablePred p]
    {f : Session → Session} (flags : sessions.cancelled.length = d.sessions.cancelled.length)
    (at_eq : ∀ m, sessions.at? m = if p m then (d.sessions.at? m).map f else d.sessions.at? m)
    (source : ∀ s, (f s).source = s.source) : Flagged { d with sessions := sessions } := by
  refine h.of_sources flags rfl fun m s' hs' => .inr ?_
  change sessions.at? m = some s' at hs'
  rw [at_eq] at hs'
  split at hs'
  · obtain ⟨s, hs, rfl⟩ := Option.map_eq_some_iff.1 hs'
    exact ⟨s, hs, source s⟩
  · exact ⟨s', hs', rfl⟩

theorem Flagged.obtain (h : Flagged d) (uri : String) :
    Flagged { d with sessions := (d.sessions.obtain uri).1 } := by
  cases hget : d.sessions.get? uri with
  | some n =>
      rw [Sessions.obtain_of_some hget]
      exact h
  | none =>
      refine h.of_sources ?_ rfl fun m s' hs' => ?_
      · unfold Sessions.obtain
        rw [hget]
      · change (d.sessions.obtain uri).1.at? m = some s' at hs'
        rw [Sessions.at?_obtain_none hget] at hs'
        split at hs'
        · cases hs'
          exact .inl rfl
        · exact .inr ⟨s', hs', rfl⟩

theorem Flagged.debounce (h : Flagged d) (n : Nat) (debounce : Option Debounce) :
    Flagged { d with
      sessions := d.sessions.modify n fun s => { s with debounce := debounce } } :=
  h.of_at? _ rfl (fun m => Sessions.at?_modify d.sessions n m _) fun _ => rfl

theorem Sessions.length_cancelNewest (s : Sessions) (n : Nat) :
    (s.cancelNewest n).cancelled.length = s.cancelled.length := by
  unfold cancelNewest
  split
  · exact List.length_set
  · rfl

/-- A run that is dispatched gets the flag that belongs to it. -/
theorem Flagged.dispatch (h : Flagged d) {n : Nat} {s : Session} (hs : d.sessions.at? n = some s)
    (document : String) : Flagged (d.dispatch n document) := by
  have hcancelled := d.sessions.length_cancelNewest n
  have hruns := Desk.dispatch_runs hs document
  refine ⟨?_, fun m s' k hs' hk => ?_⟩
  · rw [hruns, List.length_append, List.length_singleton, ← h.flags, ← hcancelled]
    exact List.length_append
  · change (d.sessions.supersede n).at? m = some s' at hs'
    rw [Sessions.at?_supersede] at hs'
    rw [hruns]
    split at hs'
    · rename_i hn
      subst hn
      rw [hs] at hs'
      cases hs'
      obtain rfl : (d.sessions.cancelNewest n).cancelled.length = k := Option.some.inj hk
      rw [hcancelled, h.flags, List.getElem?_concat_length]
      exact ⟨_, rfl, rfl⟩
    · obtain ⟨run, hrun, hown⟩ := h.source m s' k hs' hk
      refine ⟨run, ?_, hown⟩
      rw [List.getElem?_append_left (List.getElem?_eq_some_iff.1 hrun).1]
      exact hrun

theorem Sessions.length_closeSession (s : Sessions) (n : Nat) :
    (s.closeSession n).cancelled.length = s.cancelled.length :=
  length_cancelNewest _ n

theorem Sessions.length_foldl_closeSession (s : Sessions) (numbers : List Nat) :
    (numbers.foldl closeSession s).cancelled.length = s.cancelled.length := by
  induction numbers generalizing s with
  | nil => rfl
  | cons n rest ih => rw [List.foldl_cons, ih, length_closeSession]

theorem Flagged.elapse (h : Flagged d) {n : Nat} {s : Session} (hs : d.sessions.at? n = some s)
    (document : String) : Flagged (d.elapse n document) := by
  refine (h.debounce n none).dispatch (s := { s with debounce := none }) ?_ document
  exact (Sessions.at?_modify d.sessions n n _).trans (by rw [if_pos rfl, hs]; rfl)

theorem Does.flagged {may : String → Prop} {b : Buffers} {e : Event} (does : Does may b e d d')
    (sound : Sound d) (h : Flagged d) : Flagged d' := by
  cases does with
  | rests sessions runs sink =>
      refine h.of_sources (by rw [sessions]) runs fun n s hs => .inr ⟨s, ?_, rfl⟩
      rw [← sessions]
      exact hs
  | publishes n run session verdict run_eq session_eq conclusive newest desk =>
      subst desk
      have hmarked := h.of_at? (d.sessions.markPublished run.session run.sequence) rfl
        (fun m => Sessions.at?_modify d.sessions run.session m _) fun _ => rfl
      exact hmarked.of_sources rfl (Reviewer.tickets_modify d.runs n fun _ => rfl)
        fun m s hs => .inr ⟨s, hs, rfl⟩
  | diagnoses document allowed shell desk =>
      subst desk
      obtain ⟨_, s, hs, _⟩ := sound.obtain (b.find document).uri
      exact (h.obtain _).elapse hs document
  | elapses number session debounce event session_eq pending desk =>
      subst desk
      exact h.elapse session_eq debounce.document
  | arms document debounce event own desk =>
      subst desk
      exact (h.obtain _).debounce _ debounce
  | closes document event desk =>
      subst desk
      have hsessions := h.of_at? (d.sessions.close (b.find document).uri) ?_
        (fun m => Sessions.at?_close d.sessions _ m) fun _ => rfl
      · exact hsessions.of_sources rfl rfl fun m s hs => .inr ⟨s, hs, rfl⟩
      · unfold Sessions.close
        split
        · exact Sessions.length_closeSession _ _
        · rfl
  | shuts n event desk =>
      subst desk
      exact h.of_at? _ (Sessions.length_foldl_closeSession _ _)
        (fun m => Sessions.at?_foldl_closeSession _ m _) fun _ => rfl

/-! ## Sessions of other addresses -/

/-- Only session `n` has changed, which is of another address. -/
theorem Desk.Spares.of_at? {sessions : Sessions} {n : Nat} {f : Session → Session}
    (registered : sessions.get? uri = d.sessions.get? uri)
    (at_eq : ∀ m, sessions.at? m = if n = m then (d.sessions.at? m).map f else d.sessions.at? m)
    (foreign : ∀ s, d.sessions.at? n = some s → s.uri ≠ uri ∧ (f s).uri = s.uri)
    (cancelled : ∀ (k : Nat) run s, d.runs[k]? = some run → d.sessions.at? run.session = some s →
      s.uri = uri → sessions.cancelled[k]? = d.sessions.cancelled[k]?) :
    d.Spares uri { d with sessions := sessions } where
  registered := registered
  sessions m s huri := by
    change sessions.at? m = some s ↔ _
    rw [at_eq]
    split
    · rename_i hn
      subst hn
      constructor
      · intro hs
        obtain ⟨s₀, hs₀, rfl⟩ := Option.map_eq_some_iff.1 hs
        obtain ⟨hforeign, hkept⟩ := foreign s₀ hs₀
        exact absurd (hkept.symm.trans huri) hforeign
      · intro hs
        exact absurd huri (foreign s hs).1
    · rfl
  cancelled := cancelled
  runs := ⟨[], by simp, nofun⟩
  shown := rfl
  history := rfl

theorem Desk.Spares.obtain (d : Desk) (h : other ≠ uri) :
    d.Spares uri { d with sessions := (d.sessions.obtain other).1 } := by
  cases hget : d.sessions.get? other with
  | some n =>
      rw [Sessions.obtain_of_some hget]
      exact .refl uri d
  | none =>
      have hat := Sessions.at?_obtain_none hget
      have hcancelled : (d.sessions.obtain other).1.cancelled = d.sessions.cancelled := by
        unfold Sessions.obtain
        rw [hget]
      refine ⟨?_, fun m s huri => ?_, fun k run s _ _ _ => ?_, ⟨[], by simp, nofun⟩, rfl, rfl⟩
      · exact (Sessions.get?_obtain_none hget uri).trans (if_neg (Ne.symm h))
      · change (d.sessions.obtain other).1.at? m = some s ↔ _
        rw [hat]
        split
        · rename_i hm
          have hfresh : d.sessions.at? m = none := hm ▸ List.getElem?_eq_none (Nat.le_refl _)
          rw [hfresh]
          constructor
          · rintro ⟨⟩
            exact absurd huri h
          · nofun
        · rfl
      · exact congrArg (·[k]?) hcancelled

theorem Desk.Spares.debounce (d : Desk) {n : Nat} (debounce : Option Debounce)
    (foreign : ∀ s, d.sessions.at? n = some s → s.uri ≠ uri) :
    d.Spares uri { d with
      sessions := d.sessions.modify n fun s => { s with debounce := debounce } } :=
  .of_at? rfl (fun m => Sessions.at?_modify d.sessions n m _) (fun s hs => ⟨foreign s hs, rfl⟩)
    fun _ _ _ _ _ _ => rfl

/-- The flag of a run is raised with that of the newest run of its session only. -/
theorem Flagged.cancelNewest (h : Flagged d) {sessions : Sessions} {n : Nat}
    (flags : sessions.cancelled = d.sessions.cancelled)
    (source : (sessions.at? n).bind (·.source) = (d.sessions.at? n).bind (·.source))
    (foreign : ∀ s, d.sessions.at? n = some s → s.uri ≠ uri) {k : Nat} {run : Run} {s : Session}
    (hrun : d.runs[k]? = some run) (hs : d.sessions.at? run.session = some s) (huri : s.uri = uri) :
    (sessions.cancelNewest n).cancelled[k]? = d.sessions.cancelled[k]? := by
  unfold Sessions.cancelNewest
  rw [source, ← flags]
  cases hsource : (d.sessions.at? n).bind (·.source) with
  | none => rfl
  | some j =>
      obtain ⟨s', hs', hj⟩ := Option.bind_eq_some_iff.1 hsource
      obtain ⟨run', hrun', hown⟩ := h.source n s' j hs' hj
      refine List.getElem?_set_ne fun hjk => ?_
      subst hjk
      obtain rfl := Option.some.inj (hrun'.symm.trans hrun)
      rw [hown, hs'] at hs
      cases hs
      exact foreign _ hs' huri

theorem Flagged.closeSession (h : Flagged d) {registered : Keyed String Nat} {n : Nat}
    (foreign : ∀ s, d.sessions.at? n = some s → s.uri ≠ uri) {k : Nat} {run : Run} {s : Session}
    (hrun : d.runs[k]? = some run) (hs : d.sessions.at? run.session = some s) (huri : s.uri = uri) :
    (Sessions.closeSession { d.sessions with registered := registered } n).cancelled[k]? =
      d.sessions.cancelled[k]? := by
  unfold Sessions.closeSession
  refine h.cancelNewest ?_ ?_ foreign hrun hs huri
  · rfl
  · rw [Sessions.at?_modify, if_pos rfl]
    change ((d.sessions.at? n).map _).bind _ = _
    cases d.sessions.at? n <;> rfl

theorem Desk.Spares.dispatch (h : Flagged d) {n : Nat} {s : Session}
    (hs : d.sessions.at? n = some s) (foreign : s.uri ≠ uri) (document : String) :
    d.Spares uri (d.dispatch n document) := by
  have hforeign : ∀ s', d.sessions.at? n = some s' → s'.uri ≠ uri := by
    intro s' hs'
    obtain rfl := Option.some.inj (hs.symm.trans hs')
    exact foreign
  have hsessions : d.Spares uri { d with sessions := d.sessions.supersede n } := by
    refine .of_at? (Sessions.get?_supersede d.sessions n uri) (Sessions.at?_supersede d.sessions n)
      (fun s' hs' => ⟨hforeign s' hs', rfl⟩) fun k run s' hrun hs' huri => ?_
    have hlt : k < (d.sessions.cancelNewest n).cancelled.length := by
      rw [Sessions.length_cancelNewest, h.flags]
      exact (List.getElem?_eq_some_iff.1 hrun).1
    exact (List.getElem?_append_left hlt).trans (h.cancelNewest rfl rfl hforeign hrun hs' huri)
  refine ⟨hsessions.registered, hsessions.sessions, hsessions.cancelled, ?_, rfl, rfl⟩
  refine ⟨[{ session := n, sequence := s.dispatched + 1, document := document }], ?_, ?_⟩
  · rw [Desk.dispatch_runs hs, List.map_append]
  · intro run hrun s' hs' huri
    obtain rfl := List.mem_singleton.1 hrun
    exact hforeign s' ((hsessions.sessions n s' huri).1 hs') huri

/-- Runs may end meanwhile. -/
theorem Desk.Spares.agrees (h : d.Spares uri d') (agrees : d'.Agrees d'') : d.Spares uri d'' := by
  obtain ⟨hsessions, hruns, hsink⟩ := agrees
  refine ⟨?_, ?_, ?_, ?_, ?_, ?_⟩
  · exact hsessions ▸ h.registered
  · exact hsessions ▸ h.sessions
  · exact hsessions ▸ h.cancelled
  · obtain ⟨runs, hbefore, hothers⟩ := h.runs
    exact ⟨runs, hruns.trans hbefore, hsessions ▸ hothers⟩
  · exact hsink ▸ h.shown
  · exact hsink ▸ h.history

theorem Desk.Spares.elapse (h : Flagged d) {n : Nat} {s : Session}
    (hs : d.sessions.at? n = some s) (foreign : s.uri ≠ uri) (document : String) :
    d.Spares uri (d.elapse n document) := by
  have hforeign : ∀ s', d.sessions.at? n = some s' → s'.uri ≠ uri := by
    intro s' hs'
    obtain rfl := Option.some.inj (hs.symm.trans hs')
    exact foreign
  have hquiet : d.Spares uri { d with sessions := d.sessions.cancelPending n } :=
    .debounce d none hforeign
  refine hquiet.trans (.dispatch (h.debounce n none) (s := { s with debounce := none }) ?_ foreign
    document)
  exact (Sessions.at?_modify d.sessions n n _).trans (by rw [if_pos rfl, hs]; rfl)

theorem Desk.Spares.diagnose (sound : Sound d) (h : Flagged d) (foreign : other ≠ uri)
    (document : String) : d.Spares uri (d.diagnose other document) := by
  obtain ⟨_, s, hs, huri, _⟩ := sound.obtain other
  exact (Desk.Spares.obtain d foreign).trans
    (.elapse (h.obtain other) hs (fun heq => foreign (huri.symm.trans heq)) document)

theorem Desk.Spares.arm (sound : Sound d) (foreign : other ≠ uri) (debounce : Option Debounce) :
    d.Spares uri (d.arm other debounce) := by
  obtain ⟨_, s, hs, huri, _⟩ := sound.obtain other
  refine (Desk.Spares.obtain d foreign).trans (.debounce _ debounce fun s' hs' => ?_)
  obtain rfl := Option.some.inj (hs.symm.trans hs')
  exact fun heq => foreign (huri.symm.trans heq)

theorem Desk.Spares.publish (d : Desk) (n : Nat) {run : Run} {s : Session}
    (hs : d.sessions.at? run.session = some s) (foreign : s.uri ≠ uri) (verdict : Verdict) :
    d.Spares uri (d.publish n run s verdict) := by
  have hmarked : d.Spares uri
      { d with sessions := d.sessions.markPublished run.session run.sequence } := by
    refine .of_at? rfl (fun m => Sessions.at?_modify d.sessions run.session m _) (fun s' hs' => ?_)
      fun _ _ _ _ _ _ => rfl
    obtain rfl := Option.some.inj (hs.symm.trans hs')
    exact ⟨foreign, rfl⟩
  refine ⟨hmarked.registered, hmarked.sessions, hmarked.cancelled, ⟨[], ?_, nofun⟩, ?_, ?_⟩
  · rw [List.map_nil, List.append_nil]
    exact Reviewer.tickets_modify d.runs n fun _ => rfl
  · exact (Keyed.get?_put d.sink.published s.uri uri _).trans (if_neg (Ne.symm foreign))
  · change (d.sink.history ++ [_]).filter _ = _
    rw [List.filter_append, List.filter_cons_of_neg (by simpa using foreign), List.filter_nil,
      List.append_nil]

theorem Desk.Spares.close (sound : Sound d) (h : Flagged d) (foreign : other ≠ uri) :
    d.Spares uri (d.close other) := by
  have hforeign : ∀ n s, d.sessions.get? other = some n → d.sessions.at? n = some s →
      s.uri ≠ uri := by
    intro n s hget hs
    obtain ⟨s', hs', huri, _⟩ := sound.registered other n hget
    obtain rfl := Option.some.inj (hs.symm.trans hs')
    exact fun heq => foreign (huri.symm.trans heq)
  refine ⟨?_, fun m s huri => ?_, fun k run s hrun hs huri => ?_, ⟨[], by simp [Desk.close], nofun⟩,
    ?_, rfl⟩
  · exact (Sessions.get?_close d.sessions other uri).trans (if_neg (Ne.symm foreign))
  · change (d.sessions.close other).at? m = some s ↔ _
    rw [Sessions.at?_close]
    split
    · rename_i hget
      constructor
      · intro hs
        obtain ⟨s₀, hs₀, rfl⟩ := Option.map_eq_some_iff.1 hs
        exact absurd huri (hforeign m s₀ hget hs₀)
      · intro hs
        exact absurd huri (hforeign m s hget hs)
    · rfl
  · change (d.sessions.close other).cancelled[k]? = _
    unfold Sessions.close
    split
    · rename_i n hget
      exact h.closeSession (hforeign n · hget) hrun hs huri
    · rfl
  · exact (Keyed.get?_drop d.sink.published other uri).trans (if_neg (Ne.symm foreign))

end Shellwright.Review

namespace Shellwright.Reviewer

open Review

variable {r : Reviewer} {uri : String}

/-- The deed is about a document of the address. -/
def Regards (r : Reviewer) (uri : String) : Deed → Prop
  | .checks document | .edits document | .closes document => (r.document document).uri = uri
  | .elapses timer => ∃ n debounce s, r.pending? timer = some (n, debounce) ∧
      r.sessions.at? n = some s ∧ s.uri = uri
  | .shuts => True
  | .judges k _ => ∃ run s, r.runs[k]? = some run ∧ r.sessions.at? run.session = some s ∧ s.uri = uri
  | .rests => False

theorem pending?_spec {timer n : Nat} {debounce : Debounce}
    (h : r.pending? timer = some (n, debounce)) :
    ∃ s, r.sessions.at? n = some s ∧ s.debounce = some debounce ∧ debounce.timer = timer := by
  obtain ⟨number, hfind, hpending⟩ := Option.bind_eq_some_iff.1 h
  obtain ⟨debounce', hdebounce, heq⟩ := Option.map_eq_some_iff.1 hpending
  cases heq
  obtain ⟨s, hs, hwaits⟩ := Option.bind_eq_some_iff.1 hdebounce
  obtain ⟨hlt, htimer, _⟩ := List.findIdx?_eq_some_iff_getElem.1 hfind
  have hall : r.sessions.all[n] = s := (List.getElem?_eq_some_iff.1 hs).2
  rw [hall, hwaits] at htimer
  exact ⟨s, hs, hwaits, by simpa using htimer⟩

/-- A deed leaves alone every address that it is not about. -/
theorem deskAfter_spares (sound : Sound r.desk) (flagged : Flagged r.desk) {deed : Deed}
    (foreign : ¬ r.Regards uri deed) : r.desk.Spares uri (r.deskAfter deed) := by
  cases deed with
  | checks document =>
      simp only [deskAfter]
      split
      · exact .diagnose sound flagged foreign document
      · exact .refl uri r.desk
  | edits document =>
      simp only [deskAfter]
      split
      · exact .arm sound foreign _
      · exact .refl uri r.desk
  | elapses timer =>
      simp only [deskAfter]
      split
      · rename_i n debounce hpending
        obtain ⟨s, hs, _⟩ := pending?_spec hpending
        exact .elapse flagged hs (fun huri => foreign ⟨n, debounce, s, hpending, hs, huri⟩) _
      · exact .refl uri r.desk
  | closes document => exact .close sound flagged foreign
  | shuts => exact absurd trivial foreign
  | judges k outcome =>
      simp only [deskAfter, judged]
      split
      · split
        · rename_i run hrun
          split
          · rename_i s hs
            split
            · exact .publish r.desk k hs (fun huri => foreign ⟨run, s, hrun, hs, huri⟩) _
            · exact .refl uri r.desk
          · exact .refl uri r.desk
        · exact .refl uri r.desk
      · exact .refl uri r.desk
  | rests => exact .refl uri r.desk

end Shellwright.Reviewer
