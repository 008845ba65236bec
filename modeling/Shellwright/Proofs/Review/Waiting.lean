import Shellwright.Proofs.Review.Addresses
import Shellwright.Proofs.Review.Alarms
import Shellwright.Proofs.Review.Closed
/-!
# What an address waits for

The open session of an address may wait for a timer, after which a run is dispatched for it. What a deed
changes of that, and which runs it dispatches for the address.
-/

namespace Shellwright.Review

namespace Desk

/-- What the open session of the address waits for. -/
def waits (d : Desk) (uri : String) : Option Debounce :=
  ((d.sessions.get? uri).bind d.sessions.at?).bind (·.debounce)

/-- The run is one of a session of the address. -/
def isOf (d : Desk) (uri : String) (run : Run) : Bool :=
  (d.sessions.at? run.session).any (·.uri == uri)

/-- The address waits for something else, and runs have been dispatched for it, for these documents. -/
structure Stirs (uri : String) (d d' : Desk) (debounce : Option Debounce)
    (documents : List String) : Prop where
  waits : d'.waits uri = debounce
  runs : ∃ runs : List Run, d'.runs.map Run.ticket = d.runs.map Run.ticket ++ runs.map Run.ticket ∧
    (runs.filter (d'.isOf uri)).map Run.document = documents

end Desk

variable {d d' d'' : Desk} {uri other : String}

theorem Desk.waits_eq {n : Nat} {s : Session} (hget : d.sessions.get? uri = some n)
    (hs : d.sessions.at? n = some s) : d.waits uri = s.debounce := by
  unfold Desk.waits
  rw [hget, Option.bind_some, hs, Option.bind_some]

theorem Desk.waits_none (hget : d.sessions.get? uri = none) : d.waits uri = none := by
  unfold Desk.waits
  rw [hget]
  rfl

/-- A session that waits is the open one of its address. -/
theorem Sound.waits (h : Sound d) {n : Nat} {s : Session} {debounce : Debounce}
    (hs : d.sessions.at? n = some s) (hpending : s.debounce = some debounce) :
    d.sessions.get? s.uri = some n ∧ d.waits s.uri = some debounce := by
  have hopen : s.closed = false := by
    cases hclosed : s.closed with
    | false => rfl
    | true =>
        rw [h.quiet n s hs hclosed] at hpending
        cases hpending
  have hget := h.listed n s hs hopen
  exact ⟨hget, (Desk.waits_eq hget hs).trans hpending⟩

theorem Desk.Stirs.of_tickets (tickets : d'.runs.map Run.ticket = d.runs.map Run.ticket) :
    d.Stirs uri d' (d'.waits uri) [] where
  waits := rfl
  runs := ⟨[], by rw [tickets, List.map_nil, List.append_nil], rfl⟩

theorem Desk.Spares.stirs (h : d.Spares uri d') (sound : Sound d) :
    d.Stirs uri d' (d.waits uri) [] where
  waits := by
    cases hget : d.sessions.get? uri with
    | none => rw [Desk.waits_none hget, Desk.waits_none (h.registered.trans hget)]
    | some n =>
        obtain ⟨s, hs, huri, _⟩ := sound.registered uri n hget
        rw [Desk.waits_eq hget hs,
          Desk.waits_eq (h.registered.trans hget) ((h.sessions n s huri).2 hs)]
  runs := by
    obtain ⟨runs, hruns, hothers⟩ := h.runs
    refine ⟨runs, hruns, ?_⟩
    rw [List.filter_eq_nil_iff.2, List.map_nil]
    intro run hrun hof
    obtain ⟨s, hs, huri⟩ := (Option.any_eq_true _ _).1 hof
    exact hothers run hrun s hs (by simpa using huri)

/-- The timer of a session has run out, or no longer matters: a run is dispatched. -/
theorem Desk.Stirs.elapse {n : Nat} {s : Session}
    (hs : d.sessions.at? n = some s) (hget : d.sessions.get? s.uri = some n) (document : String) :
    d.Stirs s.uri (d.elapse n document) none [document] := by
  obtain ⟨source, hs'⟩ := Desk.at?_elapse hs document
  have hget' : (d.elapse n document).sessions.get? s.uri = some n :=
    (Sessions.get?_supersede _ n s.uri).trans hget
  refine ⟨Desk.waits_eq hget' hs',
    [{ session := n, sequence := s.dispatched + 1, document := document }], ?_, ?_⟩
  · rw [Desk.elapse_runs hs, List.map_append]
  · have hof : (d.elapse n document).isOf s.uri
        { session := n, sequence := s.dispatched + 1, document := document } = true := by
      unfold Desk.isOf
      rw [hs', Option.any_some, beq_self_eq_true]
    rw [List.filter_cons_of_pos hof]
    rfl

theorem Sound.get?_obtain (h : Sound d) (uri : String) :
    (d.sessions.obtain uri).1.get? uri = some (d.sessions.obtain uri).2 := by
  obtain ⟨hsound, s, hs, huri, hopen⟩ := h.obtain uri
  rw [← huri]
  exact huri ▸ hsound.listed _ s hs hopen

theorem Desk.Stirs.diagnose (sound : Sound d) (uri document : String) :
    d.Stirs uri (d.diagnose uri document) none [document] := by
  obtain ⟨hsound, s, hs, huri, _⟩ := sound.obtain uri
  have hstirs := Desk.Stirs.elapse (d := { d with sessions := (d.sessions.obtain uri).1 }) hs
    (by rw [huri]; exact sound.get?_obtain uri) document
  rw [huri] at hstirs
  exact ⟨hstirs.waits, hstirs.runs⟩

theorem Sound.waits_arm (sound : Sound d) (uri : String) (debounce : Option Debounce) :
    (d.arm uri debounce).waits uri = debounce := by
  obtain ⟨_, s, hs, _⟩ := sound.obtain uri
  refine Desk.waits_eq (s := { s with debounce := debounce }) (sound.get?_obtain uri) ?_
  exact (Sessions.at?_modify _ _ _ _).trans (by rw [if_pos rfl, hs]; rfl)

theorem Desk.waits_close (d : Desk) (uri : String) : (d.close uri).waits uri = none :=
  Desk.waits_none ((Sessions.get?_close d.sessions uri uri).trans (if_pos rfl))

theorem Desk.waits_shut (d : Desk) (uri : String) : d.shut.waits uri = none :=
  Desk.waits_none (Sessions.get?_closeAll d.sessions uri)

theorem Desk.waits_publish (d : Desk) (n : Nat) (run : Run) (session : Session) (verdict : Verdict)
    (uri : String) : (d.publish n run session verdict).waits uri = d.waits uri := by
  unfold Desk.waits
  change ((d.sessions.get? uri).bind _).bind _ = _
  cases d.sessions.get? uri with
  | none => rfl
  | some m =>
      simp only [Option.bind_some, Desk.publish, Sessions.markPublished, Sessions.at?_modify]
      split
      · cases d.sessions.at? m <;> rfl
      · rfl

theorem Desk.Stirs.agrees {debounce : Option Debounce} {documents : List String}
    (h : d.Stirs uri d' debounce documents) (agrees : d'.Agrees d'') :
    d.Stirs uri d'' debounce documents := by
  obtain ⟨hsessions, hruns, _⟩ := agrees
  obtain ⟨hwaits, runs, htickets, hdocuments⟩ := h
  refine ⟨?_, runs, hruns.trans htickets, ?_⟩
  · unfold Desk.waits
    rw [hsessions]
    exact hwaits
  · unfold Desk.isOf
    rw [hsessions]
    exact hdocuments

/-! ## Timers of sessions -/

/-- Sessions wait for different timers, all of which have been set. -/
structure Sessions.Numbered (s : Sessions) (timers : Nat) : Prop where
  set : ∀ n session debounce, s.at? n = some session → session.debounce = some debounce →
    debounce.timer < timers
  apart : ∀ m n session session' debounce debounce', s.at? m = some session →
    s.at? n = some session' → session.debounce = some debounce → session'.debounce = some debounce' →
    debounce.timer = debounce'.timer → m = n

theorem Sessions.Numbered.quiets {s s' : Sessions} {timers : Nat} (h : s.Numbered timers)
    (quiets : s.Quiets s') : s'.Numbered timers where
  set n session debounce hsession hpending := by
    obtain ⟨before, hbefore, hwaited⟩ := quiets n session debounce hsession hpending
    exact h.set n before debounce hbefore hwaited
  apart m n session session' debounce debounce' hsession hsession' hpending hpending' := by
    obtain ⟨before, hbefore, hwaited⟩ := quiets m session debounce hsession hpending
    obtain ⟨before', hbefore', hwaited'⟩ := quiets n session' debounce' hsession' hpending'
    exact h.apart m n before before' debounce debounce' hbefore hbefore' hwaited hwaited'

/-- A session waits for a timer that is new. -/
theorem Sessions.Numbered.modify {s : Sessions} {timers : Nat} (h : s.Numbered timers) (n : Nat)
    (document : String) :
    (s.modify n fun session => { session with debounce := some ⟨timers, document⟩ }).Numbered
      (timers + 1) := by
  have hsplit : ∀ m session debounce,
      (s.modify n fun session => { session with debounce := some ⟨timers, document⟩ }).at? m =
        some session → session.debounce = some debounce →
      m = n ∧ debounce.timer = timers ∨ debounce.timer < timers ∧
        ∃ before, s.at? m = some before ∧ before.debounce = some debounce := by
    intro m session debounce hsession hpending
    rw [Sessions.at?_modify] at hsession
    split at hsession
    · rename_i hn
      obtain ⟨before, _, rfl⟩ := Option.map_eq_some_iff.1 hsession
      cases hpending
      exact .inl ⟨hn.symm, rfl⟩
    · exact .inr ⟨h.set m session debounce hsession hpending, session, hsession, hpending⟩
  constructor
  · intro m session debounce hsession hpending
    rcases hsplit m session debounce hsession hpending with ⟨_, hnew⟩ | ⟨hold, _⟩
    · omega
    · omega
  · intro m k session session' debounce debounce' hsession hsession' hpending hpending' hsame
    rcases hsplit m session debounce hsession hpending with ⟨hm, hnew⟩ | ⟨hold, before, hb, hw⟩
    · rcases hsplit k session' debounce' hsession' hpending' with ⟨hk, _⟩ | ⟨hold', _⟩
      · rw [hm, hk]
      · omega
    · rcases hsplit k session' debounce' hsession' hpending' with ⟨_, hnew'⟩ | ⟨_, before', hb', hw'⟩
      · omega
      · exact h.apart m k before before' debounce debounce' hb hb' hw hw' hsame

theorem Sessions.Numbered.arm {timers : Nat} (h : d.sessions.Numbered timers)
    (uri document : String) : (d.arm uri (some ⟨timers, document⟩)).sessions.Numbered (timers + 1) :=
  (h.quiets (obtain_quiets d.sessions uri)).modify _ document

theorem Sessions.Numbered.disarm {timers : Nat} (h : d.sessions.Numbered timers) (uri : String) :
    (d.arm uri none).sessions.Numbered timers :=
  h.quiets ((obtain_quiets d.sessions uri).trans (cancelPending_quiets _ _))

/-- Only an edit sets a timer. -/
theorem Does.quiets {may : String → Prop} {b : Buffers} {e : Event} (does : Does may b e d d')
    (unedited : ∀ document, e ≠ .change document) : d.sessions.Quiets d'.sessions := by
  cases does with
  | rests sessions runs sink =>
      rw [sessions]
      exact .refl _
  | publishes n run session verdict run_eq session_eq conclusive newest desk =>
      subst desk
      exact Sessions.quiets_of_at? (fun m => Sessions.at?_modify d.sessions run.session m _)
        fun _ _ h => h
  | diagnoses document allowed shell desk =>
      subst desk
      exact (Sessions.obtain_quiets d.sessions _).trans (Desk.elapse_quiets _ _ _)
  | elapses number session debounce event session_eq pending desk =>
      subst desk
      exact Desk.elapse_quiets d number _
  | arms document debounce event own desk => exact absurd event (unedited document)
  | closes document event desk =>
      subst desk
      exact Sessions.closed_quiets fun m => Sessions.at?_close d.sessions _ m
  | shuts n event desk =>
      subst desk
      exact Sessions.closed_quiets fun m => Sessions.at?_foldl_closeSession _ m _

end Shellwright.Review

namespace Shellwright.Reviewer

open Review

variable {r : Reviewer} {uri : String}

/-- The session of an address is the only one that waits for its timer. -/
theorem pending?_of_waits (sound : Sound r.desk) {timers : Nat} (numbered : r.sessions.Numbered timers)
    {debounce : Debounce} (waits : r.desk.waits uri = some debounce) :
    ∃ n s, r.pending? debounce.timer = some (n, debounce) ∧ r.sessions.at? n = some s ∧
      s.uri = uri ∧ r.sessions.get? uri = some n := by
  obtain ⟨s, hfound, hpending⟩ := Option.bind_eq_some_iff.1 waits
  obtain ⟨n, hget, hs⟩ := Option.bind_eq_some_iff.1 hfound
  have hs : r.sessions.at? n = some s := hs
  obtain ⟨s', hs', huri, _⟩ := sound.registered uri n hget
  obtain rfl := Option.some.inj (hs.symm.trans hs')
  refine ⟨n, s, ?_, hs, huri, hget⟩
  have hsome : (r.sessions.all.findIdx? fun session =>
      session.debounce.any (·.timer == debounce.timer)).isSome := by
    rw [List.findIdx?_isSome, List.any_eq_true]
    refine ⟨s, List.mem_of_getElem? hs, ?_⟩
    rw [hpending, Option.any_some, beq_self_eq_true]
  obtain ⟨m, hm⟩ := Option.isSome_iff_exists.1 hsome
  obtain ⟨hlt, htimer, _⟩ := List.findIdx?_eq_some_iff_getElem.1 hm
  obtain ⟨debounce', hdebounce', hsame⟩ := (Option.any_eq_true _ _).1 htimer
  have hat : r.sessions.at? m = some r.sessions.all[m] := List.getElem?_eq_getElem hlt
  obtain rfl := numbered.apart m n _ s debounce' debounce hat hs hdebounce' hpending
    (by simpa using hsame)
  unfold pending?
  rw [hm, Option.bind_some, hs, Option.bind_some, hpending]
  rfl

theorem change_numbered (numbered : r.sessions.Numbered r.timers) (document : String) :
    (r.change document).sessions.Numbered (r.change document).timers := by
  have hsessions := (change_keeps r document).sessions
  change (r.change document).sessions = (r.deskAfter (.edits document)).sessions at hsessions
  rw [hsessions]
  cases hedits : r.onChange && (r.document document).isShell with
  | true =>
      obtain ⟨hon, hshell⟩ := Bool.and_eq_true_iff.1 hedits
      simp only [deskAfter, hedits, if_true]
      rw [(change_alarms hon hshell).1, armed]
      cases r.debounce.filter Execution.isMeasurable with
      | none => exact numbered.disarm _
      | some delay => exact numbered.arm _ document
  | false =>
      simp only [deskAfter, hedits, Bool.false_eq_true, if_false]
      rw [change_ignored hedits]
      exact numbered

/-- The timers of sessions stay apart, whatever the time is that edited documents have to be quiet. -/
theorem step_numbered (calm : r.registry.outbox = []) (numbered : r.sessions.Numbered r.timers)
    (e : Event) : (r.step e).sessions.Numbered (r.step e).timers := by
  cases htimes : Times e with
  | false =>
      rw [(step_untimed htimes).timers]
      refine numbered.quiets ((step_acts calm e).desk.quiets fun document heq => ?_)
      subst heq
      cases htimes
  | true =>
      cases e with
      | configure debounce timeout onChange => exact numbered
      | change document => exact change_numbered numbered document
      | _ => cases htimes

end Shellwright.Reviewer
