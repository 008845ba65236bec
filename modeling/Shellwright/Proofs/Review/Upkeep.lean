import Shellwright.Proofs.Review.Debounce
import Shellwright.Proofs.Review.Heeding
/-!
# Sessions and their timers

What holds of every session that there has been, whatever happens to a review: all its runs have been
called off but the newest one of an open session, a session that is closed has left the registry and
dispatches nothing any more, and a timer that has been set is the one for which the open session of its
address waits, until it runs out or is called off.
-/

namespace Shellwright.Review

variable {d d' : Desk} {uri : String}

/-! ## Flags stay raised -/

/-- Runs that have been called off stay so. -/
def Sessions.Raises (s s' : Sessions) : Prop :=
  ∀ k : Nat, s.cancelled[k]? = some true → s'.cancelled[k]? = some true

namespace Sessions

theorem Raises.refl (s : Sessions) : s.Raises s := fun _ h => h

theorem Raises.trans {s s' s'' : Sessions} (h : s.Raises s') (h' : s'.Raises s'') : s.Raises s'' :=
  fun k hk => h' k (h k hk)

theorem Raises.of_eq {s s' : Sessions} (h : s'.cancelled = s.cancelled) : s.Raises s' := by
  intro k hk
  rw [h]
  exact hk

theorem obtain_raises (s : Sessions) (uri : String) : s.Raises (s.obtain uri).1 := by
  refine .of_eq ?_
  unfold obtain
  split <;> rfl

theorem cancelNewest_raises (s : Sessions) (n : Nat) : s.Raises (s.cancelNewest n) := by
  unfold cancelNewest
  split
  · intro k hk
    change (s.cancelled.set _ true)[k]? = some true
    rw [List.getElem?_set]
    split
    · rw [if_pos]
      rename_i hrun
      exact hrun ▸ (List.getElem?_eq_some_iff.1 hk).1
    · exact hk
  · exact .refl s

theorem supersede_raises (s : Sessions) (n : Nat) : s.Raises (s.supersede n) := by
  intro k hk
  have hraised := cancelNewest_raises s n k hk
  exact (List.getElem?_append_left (List.getElem?_eq_some_iff.1 hraised).1).trans hraised

theorem closeSession_raises (s : Sessions) (n : Nat) : s.Raises (s.closeSession n) := by
  intro k hk
  exact cancelNewest_raises _ n k hk

theorem foldl_closeSession_raises (s : Sessions) (numbers : List Nat) :
    s.Raises (numbers.foldl closeSession s) := by
  induction numbers generalizing s with
  | nil => exact .refl s
  | cons n rest ih => exact (closeSession_raises s n).trans (ih _)

end Sessions

theorem Desk.elapse_raises (d : Desk) (n : Nat) (document : String) :
    d.sessions.Raises (d.elapse n document).sessions :=
  Sessions.supersede_raises (d.sessions.cancelPending n) n

section Does

variable {may : String → Prop} {b : Buffers} {e : Event}

theorem Does.raises (does : Does may b e d d') : d.sessions.Raises d'.sessions := by
  cases does with
  | rests sessions runs sink => exact .of_eq (by rw [sessions])
  | publishes n run session verdict run_eq session_eq conclusive newest desk =>
      subst desk
      exact .of_eq rfl
  | diagnoses document allowed shell desk =>
      subst desk
      intro k hk
      exact Desk.elapse_raises _ _ document k (Sessions.obtain_raises d.sessions _ k hk)
  | elapses number session debounce event session_eq pending desk =>
      subst desk
      exact d.elapse_raises number _
  | arms document debounce event own desk =>
      subst desk
      exact Sessions.obtain_raises d.sessions _
  | closes document event desk =>
      subst desk
      change d.sessions.Raises (d.sessions.close _)
      unfold Sessions.close
      split
      · intro k hk
        exact Sessions.closeSession_raises _ _ k hk
      · exact .refl _
  | shuts n event desk =>
      subst desk
      intro k hk
      exact Sessions.foldl_closeSession_raises _ _ k hk

/-- A run that is dispatched takes the place of all other runs of its address, and what the address
waits for is dropped. -/
theorem Does.heads (does : Does may b e d d') (sound : Sound d) (flagged : Flagged d)
    (heeded : Heeded d) {run : Run} (dispatched : d'.runs[d.runs.length]? = some run) :
    ∃ s, d'.sessions.at? run.session = some s ∧ d'.Heads s.uri d.runs.length := by
  have hnew := (List.getElem?_eq_some_iff.1 dispatched).1
  have hnone (tickets : d'.runs.map Run.ticket = d.runs.map Run.ticket) : False := by
    have hlength := congrArg List.length tickets
    rw [List.length_map, List.length_map] at hlength
    omega
  cases does with
  | rests sessions runs sink => exact (hnone runs).elim
  | publishes n run session verdict run_eq session_eq conclusive newest desk =>
      subst desk
      exact (hnone (Reviewer.tickets_modify d.runs n fun _ => rfl)).elim
  | diagnoses document allowed shell desk =>
      subst desk
      obtain ⟨run', s, hruns, hs, huri, _⟩ :=
        sound.diagnose_dispatches (b.find document).uri document
      rw [hruns, List.getElem?_concat_length] at dispatched
      cases dispatched
      refine ⟨s, hs, ?_⟩
      rw [huri]
      exact Desk.diagnose_heads sound flagged heeded _ document
  | elapses number session debounce event session_eq pending desk =>
      subst desk
      obtain ⟨source, hs'⟩ := Desk.at?_elapse session_eq debounce.document
      rw [Desk.elapse_runs session_eq, List.getElem?_concat_length] at dispatched
      cases dispatched
      refine ⟨_, hs', ?_⟩
      have hopen : session.closed = false := by
        cases hclosed : session.closed with
        | false => rfl
        | true =>
            rw [sound.quiet number session session_eq hclosed] at pending
            cases pending
      refine Desk.dispatch_heads (s := { session with debounce := none })
        (sound.debounce number none (.inl rfl)) (flagged.debounce number none)
        (heeded.debounce sound number none) ?_ hopen rfl debounce.document
      exact (Sessions.at?_modify d.sessions number number _).trans
        (by rw [if_pos rfl, session_eq]; rfl)
  | arms document debounce event own desk =>
      subst desk
      exact (hnone rfl).elim
  | closes document event desk =>
      subst desk
      exact (hnone rfl).elim
  | shuts n event desk =>
      subst desk
      exact (hnone rfl).elim

end Does

end Shellwright.Review

namespace Shellwright.Reviewer

open Review

variable {r : Reviewer} {uri : String} {e : Event} {n timer : Nat}

/-! ## Between two events -/

/-- What holds of the sessions of a review. -/
structure Upholds (r : Reviewer) : Prop where
  published : ∀ n s, r.sessions.at? n = some s → s.published ≤ s.dispatched
  superseded : ∀ (j k : Nat) run run', j < k → r.runs[j]? = some run → r.runs[k]? = some run' →
    run.session = run'.session → r.sessions.cancelled[j]? = some true
  closed : ∀ n s, r.sessions.at? n = some s → s.closed = true →
    s.debounce = none ∧ (∀ uri, r.sessions.get? uri ≠ some n) ∧
      ∀ (k : Nat) run, r.runs[k]? = some run → run.session = n → r.sessions.cancelled[k]? = some true
  registered : ∀ uri n, r.sessions.get? uri = some n →
    ∃ s, r.sessions.at? n = some s ∧ s.uri = uri ∧ s.closed = false

/-- From this what holds of the sessions follows, and it is kept by every step. -/
structure Regulated (r : Reviewer) : Prop where
  orderly : r.Orderly
  flagged : Flagged r.desk
  heeded : Heeded r.desk
  superseded : ∀ (j k : Nat) run run', j < k → r.runs[j]? = some run → r.runs[k]? = some run' →
    run.session = run'.session → r.sessions.cancelled[j]? = some true
  numbered : r.sessions.Numbered r.timers
  outbox : r.outbox = []

theorem Regulated.upholds (h : r.Regulated) : r.Upholds where
  published := h.orderly.sound.published
  superseded := h.superseded
  closed n s hs hclosed := by
    refine ⟨h.orderly.sound.quiet n s hs hclosed, fun uri hget => ?_, fun k run hrun hown => ?_⟩
    · obtain ⟨s', hs', _, hopen⟩ := h.orderly.sound.registered uri n hget
      obtain rfl := Option.some.inj (hs.symm.trans hs')
      rw [hclosed] at hopen
      cases hopen
    · have hlt : k < r.desk.sessions.cancelled.length := by
        rw [h.flagged.flags]
        exact (List.getElem?_eq_some_iff.1 hrun).1
      have hflag := List.getElem?_eq_getElem hlt
      cases hraised : r.desk.sessions.cancelled[k] with
      | true =>
          rw [hraised] at hflag
          exact hflag
      | false =>
          rw [hraised] at hflag
          subst hown
          have hopen := (h.heeded k run s hrun hs hflag).2
          rw [hclosed] at hopen
          cases hopen
  registered := h.orderly.sound.registered

theorem Regulated.step (h : r.Regulated) (e : Event) :
    Regulated { r.step e with outbox := [] } where
  orderly := ⟨(h.orderly.step e).sound, (h.orderly.step e).calm⟩
  flagged := (step_acts h.orderly.calm e).desk.flagged h.orderly.sound h.flagged
  heeded := (step_acts h.orderly.calm e).desk.heeded h.orderly.sound h.flagged h.heeded
  superseded j k run run' hjk hrun hrun' hsame := by
    have hdoes := (step_acts h.orderly.calm e).desk
    have hold : ∀ i : Nat, i < r.runs.length → ∀ run, (r.step e).runs[i]? = some run →
        ∃ before, r.runs[i]? = some before ∧ before.session = run.session := by
      intro i hi run hrun
      obtain ⟨run₁, hrun₁, hticket⟩ := hdoes.later.runs i _ (List.getElem?_eq_getElem hi)
      obtain rfl := Option.some.inj (hrun₁.symm.trans hrun)
      exact ⟨_, List.getElem?_eq_getElem hi, (Run.eq_of_ticket hticket).1.symm⟩
    rcases Nat.lt_or_ge k r.runs.length with hlt | hge
    · obtain ⟨before, hbefore, hsession⟩ := hold j (Nat.lt_trans hjk hlt) run hrun
      obtain ⟨before', hbefore', hsession'⟩ := hold k hlt run' hrun'
      exact hdoes.raises j (h.superseded j k before before' hjk hbefore hbefore'
        (hsession.trans (hsame.trans hsession'.symm)))
    -- A run that is new takes the place of all others of its address.
    · obtain rfl : k = r.runs.length := by
        have hlt := (List.getElem?_eq_some_iff.1 hrun').1
        change k < (r.step e).runs.length at hlt
        rcases hdoes.dispatches h.orderly.sound with htickets | ⟨run, _, hruns, _⟩
        · have hlength := congrArg List.length htickets
          rw [List.length_map, List.length_map] at hlength
          change (r.step e).runs.length = r.runs.length at hlength
          omega
        · have hlength := congrArg List.length hruns
          rw [List.length_append, List.length_singleton] at hlength
          change (r.step e).runs.length = r.runs.length + 1 at hlength
          omega
      obtain ⟨s, hs, hheads⟩ := hdoes.heads h.orderly.sound h.flagged h.heeded hrun'
      exact hheads.others j run s (Nat.ne_of_lt hjk) hrun (hsame ▸ hs) rfl
  numbered := step_numbered h.orderly.calm h.numbered e
  outbox := rfl

/-! ## Timers -/

/-- Session `n` is the open one of the address and waits for the timer. -/
def WaitsFor (r : Reviewer) (uri : String) (n timer : Nat) : Prop :=
  r.sessions.get? uri = some n ∧ ∃ s document, r.sessions.at? n = some s ∧ s.closed = false ∧
    s.uri = uri ∧ s.debounce = some ⟨timer, document⟩

/-- A run is dispatched when the timer runs out. -/
def Fires (r : Reviewer) (timer : Nat) : Prop :=
  r.runs.length < (r.step (.elapsed timer)).runs.length

/-- With the event an edit of a document of the address sets the timer. -/
structure Sets (r : Reviewer) (e : Event) (uri : String) (timer : Nat) : Prop where
  event : ∃ document, e = .change document ∧ (r.document document).uri = uri
  effect : ∃ delay, .timer timer delay ∈ (r.step e).outbox

/-- With the event a timer of the address is over: it runs out, or it is called off since the document is
edited anew, checked or closed. -/
inductive Stops (r : Reviewer) (e : Event) (uri : String) (timer : Nat) : Prop
  | runsOut (event : e = .elapsed timer)
  | edited (document : String) (event : e = .change document)
      (own : (r.document document).uri = uri) (shell : (r.document document).isShell = true)
      (on : r.onChange = true)
  | checked (run : Run) (s : Session) (dispatched : (r.step e).runs[r.runs.length]? = some run)
      (session : (r.step e).sessions.at? run.session = some s) (own : s.uri = uri)
  | closed (unregistered : (r.step e).sessions.get? uri = none)

theorem waitsFor_iff (sound : Sound r.desk) : r.WaitsFor uri n timer ↔
    r.sessions.get? uri = some n ∧ ∃ document, r.desk.waits uri = some ⟨timer, document⟩ := by
  constructor
  · rintro ⟨hget, s, document, hs, _, _, hpending⟩
    exact ⟨hget, document, (Desk.waits_eq (d := r.desk) hget hs).trans hpending⟩
  · rintro ⟨hget, document, hwaits⟩
    obtain ⟨s, hs, huri, hopen⟩ := sound.registered uri n hget
    exact ⟨hget, s, document, hs, hopen, huri, (Desk.waits_eq hget hs).symm.trans hwaits⟩

theorem get?_of_waits {debounce : Debounce} (waits : r.desk.waits uri = some debounce) :
    ∃ n, r.sessions.get? uri = some n := by
  cases hget : r.sessions.get? uri with
  | some n => exact ⟨n, rfl⟩
  | none =>
      rw [Desk.waits_none hget] at waits
      cases waits

theorem length_runs_of_agrees {d d' : Desk} (h : d.Agrees d') : d'.runs.length = d.runs.length := by
  have hlength := congrArg List.length h.runs
  rwa [List.length_map, List.length_map] at hlength

/-- Only a timer that is held has a run dispatched. -/
theorem Regulated.fires_iff (h : r.Regulated) : r.Fires timer ↔ ∃ uri n, r.WaitsFor uri n timer := by
  have hsound := h.orderly.sound
  have hlength : (r.step (.elapsed timer)).runs.length = (r.deskAfter (.elapses timer)).runs.length :=
    length_runs_of_agrees (step_agrees h.orderly.calm (.elapsed timer))
  unfold Fires
  rw [hlength]
  constructor
  · intro hfires
    cases hpending : r.pending? timer with
    | none =>
        simp only [deskAfter, hpending] at hfires
        exact absurd hfires (Nat.lt_irrefl _)
    | some found =>
        obtain ⟨n, debounce⟩ := found
        obtain ⟨s, hs, hwaits, rfl⟩ := pending?_spec hpending
        obtain ⟨hget, hheld⟩ := hsound.waits hs hwaits
        exact ⟨s.uri, n, (waitsFor_iff hsound).2 ⟨hget, debounce.document, hheld⟩⟩
  · rintro ⟨uri, n, hwaitsFor⟩
    obtain ⟨_, document, hwaits⟩ := (waitsFor_iff hsound).1 hwaitsFor
    obtain ⟨m, s, hpending, hs, _⟩ := pending?_of_waits hsound h.numbered hwaits
    simp only [deskAfter, hpending]
    rw [Desk.elapse_runs (d := r.desk) hs, List.length_append]
    exact Nat.lt_succ_self _

/-- An edit that does not count for the address leaves it alone. -/
theorem change_spares (sound : Sound r.desk) {document : String}
    (foreign : ¬ (r.onChange = true ∧ (r.document document).isShell = true ∧
      (r.document document).uri = uri)) : r.desk.Spares uri (r.change document).desk := by
  cases hedits : r.onChange && (r.document document).isShell with
  | false =>
      rw [change_ignored hedits]
      exact .refl uri r.desk
  | true =>
      obtain ⟨hon, hshell⟩ := Bool.and_eq_true_iff.1 hedits
      have hkeeps := (change_keeps r document).toAgrees
      simp only [deskAfter, hedits, if_true] at hkeeps
      exact (Desk.Spares.arm sound (fun huri => foreign ⟨hon, hshell, huri⟩) _).agrees hkeeps

/-- What an address waits for after an edit of a document. -/
theorem waits_change (sound : Sound r.desk) (document : String) :
    (r.change document).desk.waits uri =
      if r.onChange = true ∧ (r.document document).isShell = true ∧ (r.document document).uri = uri then
        r.armed document
      else r.desk.waits uri := by
  split
  · rename_i hedits
    obtain ⟨hon, hshell, rfl⟩ := hedits
    have hsessions := (change_keeps r document).sessions
    simp only [deskAfter, hon, hshell, Bool.and_self, if_true] at hsessions
    have hwaits := sound.waits_arm (r.document document).uri (r.armed document)
    unfold Desk.waits at hwaits ⊢
    rw [hsessions]
    exact hwaits
  · rename_i hforeign
    exact ((change_spares sound hforeign).stirs sound).waits

theorem mem_alarms {delay : Int} : (timer, delay) ∈ r.alarms ↔ .timer timer delay ∈ r.outbox := by
  unfold alarms
  rw [List.mem_filterMap]
  constructor
  · rintro ⟨effect, hmem, heffect⟩
    cases effect with
    | timer number delay' =>
        cases heffect
        exact hmem
    | _ => cases heffect
  · exact fun hmem => ⟨_, hmem, rfl⟩

/-- The timer that is set is the one for which the address waits from then on. -/
theorem sets_iff (outbox : r.outbox = []) : r.Sets e uri timer ↔
    ∃ document, e = .change document ∧ (r.onChange = true ∧ (r.document document).isShell = true ∧
      (r.document document).uri = uri) ∧ r.armed document = some ⟨timer, document⟩ := by
  have hnone : r.alarms = [] := by
    unfold alarms
    rw [outbox]
    rfl
  constructor
  · rintro ⟨⟨document, rfl, huri⟩, delay, heffect⟩
    have halarm : (timer, delay) ∈ (r.change document).alarms := mem_alarms.2 heffect
    cases hedits : r.onChange && (r.document document).isShell with
    | false =>
        rw [change_ignored hedits, hnone] at halarm
        cases halarm
    | true =>
        obtain ⟨hon, hshell⟩ := Bool.and_eq_true_iff.1 hedits
        refine ⟨document, rfl, ⟨hon, hshell, huri⟩, ?_⟩
        rw [(change_alarms hon hshell).2, hnone, List.nil_append] at halarm
        obtain ⟨delay', hdelay, ⟨⟩⟩ := List.mem_map.1 halarm
        unfold armed
        rw [Option.mem_toList.1 hdelay]
        rfl
  · rintro ⟨document, rfl, ⟨hon, hshell, huri⟩, harmed⟩
    obtain ⟨delay, hdelay, hdebounce⟩ := Option.map_eq_some_iff.1 harmed
    cases hdebounce
    refine ⟨⟨document, rfl, huri⟩, delay, mem_alarms.1 ?_⟩
    change _ ∈ (r.change document).alarms
    rw [(change_alarms hon hshell).2, hnone, hdelay]
    exact List.mem_singleton_self _

/-- What sets a timer comes from an edit; otherwise the address has waited before. -/
theorem Regulated.waits_before (h : r.Regulated) {document : String}
    (waits : (r.step e).desk.waits uri = some ⟨timer, document⟩) :
    r.Sets e uri timer ∨ r.desk.waits uri = some ⟨timer, document⟩ := by
  have hsound := h.orderly.sound
  by_cases hedit : ∃ name, e = .change name
  · obtain ⟨name, rfl⟩ := hedit
    change (r.change name).desk.waits uri = _ at waits
    rw [waits_change hsound] at waits
    split at waits
    · rename_i hedits
      obtain ⟨_, _, hdebounce⟩ := Option.map_eq_some_iff.1 waits
      cases hdebounce
      exact .inl ((sets_iff h.outbox).2 ⟨document, rfl, hedits, waits⟩)
    · exact .inr waits
  · have hdoes := (step_acts h.orderly.calm e).desk
    have hafter := hdoes.sound hsound
    obtain ⟨s', hfound, hpending⟩ := Option.bind_eq_some_iff.1 waits
    obtain ⟨n, hget, hs'⟩ := Option.bind_eq_some_iff.1 hfound
    obtain ⟨s, hs, hbefore⟩ :=
      hdoes.quiets (fun name heq => hedit ⟨name, heq⟩) n s' _ hs' hpending
    obtain ⟨s₁, hs₁, hgrows⟩ := hdoes.later.sessions n s hs
    obtain rfl := Option.some.inj (hs₁.symm.trans hs')
    obtain ⟨s₂, hs₂, huri, _⟩ := hafter.registered uri n hget
    obtain rfl := Option.some.inj (hs₂.symm.trans hs₁)
    have hown : s.uri = uri := hgrows.uri.symm.trans huri
    rw [← hown]
    exact .inr (hsound.waits hs hbefore).2

/-- A timer that is over is not waited for any more. -/
theorem Stops.waits_ne (h : r.Regulated) (stops : r.Stops e uri timer) (old : timer < r.timers)
    (document : String) : (r.step e).desk.waits uri ≠ some ⟨timer, document⟩ := by
  have hsound := h.orderly.sound
  have hafter := (step_acts h.orderly.calm e).desk.sound hsound
  cases stops with
  | runsOut event =>
      subst event
      intro hwaits
      have hagrees := step_agrees h.orderly.calm (.elapsed timer)
      rcases h.waits_before hwaits with ⟨⟨name, heq, _⟩, _⟩ | hbefore
      · cases heq
      · have hstirs := (deskAfter_stirs_elapsed hsound h.numbered hbefore).agrees hagrees
        rw [hstirs.waits] at hwaits
        cases hwaits
  | edited name event own shell on =>
      subst event
      change (r.change name).desk.waits uri ≠ _
      rw [waits_change hsound, if_pos ⟨on, shell, own⟩]
      intro harmed
      obtain ⟨_, _, hdebounce⟩ := Option.map_eq_some_iff.1 harmed
      cases hdebounce
      exact Nat.lt_irrefl _ old
  | checked run s dispatched session own =>
      obtain ⟨s', hs', hheads⟩ :=
        (step_acts h.orderly.calm e).desk.heads hsound h.flagged h.heeded dispatched
      obtain rfl := Option.some.inj (hs'.symm.trans session)
      obtain ⟨n, s₁, hget, hs₁, _, hquiet⟩ := hheads.newest
      rw [own] at hget
      rw [Desk.waits_eq hget hs₁, hquiet]
      exact nofun
  | closed unregistered =>
      rw [Desk.waits_none unregistered]
      exact nofun

/-- An address waits for its timer until it is over. -/
theorem Regulated.waits_on (h : r.Regulated) {document : String}
    (waits : r.desk.waits uri = some ⟨timer, document⟩) (unstopped : ¬ r.Stops e uri timer) :
    (r.step e).desk.waits uri = some ⟨timer, document⟩ ∧
      (r.step e).desk.sessions.get? uri = r.desk.sessions.get? uri := by
  have hsound := h.orderly.sound
  have hspares {d : Desk} (spares : r.desk.Spares uri d) :
      d.waits uri = some ⟨timer, document⟩ ∧ d.sessions.get? uri = r.desk.sessions.get? uri :=
    ⟨(spares.stirs hsound).waits.trans waits, spares.registered⟩
  have hunregistered (unregistered : (r.step e).desk.sessions.get? uri = none) : False :=
    unstopped (.closed unregistered)
  cases (step_acts h.orderly.calm e).desk with
  | rests sessions runs sink =>
      unfold Desk.waits at waits ⊢
      rw [sessions]
      exact ⟨waits, rfl⟩
  | publishes n run session verdict run_eq session_eq conclusive newest desk =>
      rw [desk]
      exact ⟨(Desk.waits_publish r.desk n run session verdict uri).trans waits, rfl⟩
  | diagnoses name allowed shell desk =>
      by_cases huri : (r.buffers.find name).uri = uri
      · obtain ⟨run, s, hruns, hs, hown, _⟩ :=
          hsound.diagnose_dispatches (r.buffers.find name).uri name
        rw [← desk] at hruns hs
        refine absurd (.checked run s ?_ hs (hown.trans huri)) unstopped
        change (r.step e).desk.runs[r.desk.runs.length]? = some run
        rw [hruns, List.getElem?_concat_length]
      · rw [desk]
        exact hspares (.diagnose hsound h.flagged huri name)
  | elapses number session debounce event session_eq pending desk =>
      by_cases huri : session.uri = uri
      · subst huri
        cases (hsound.waits session_eq pending).2.symm.trans waits
        exact absurd (.runsOut event) unstopped
      · rw [desk]
        exact hspares (.elapse h.flagged session_eq huri _)
  | arms name debounce event own desk =>
      subst event
      exact hspares (change_spares hsound fun ⟨hon, hshell, huri⟩ =>
        unstopped (.edited name rfl huri hshell hon))
  | closes name event desk =>
      by_cases huri : (r.buffers.find name).uri = uri
      · refine (hunregistered ?_).elim
        rw [desk, ← huri]
        exact (Sessions.get?_close _ _ _).trans (if_pos rfl)
      · rw [desk]
        exact hspares (.close hsound h.flagged huri)
  | shuts n event desk =>
      refine (hunregistered ?_).elim
      rw [desk]
      exact Sessions.get?_closeAll _ _

end Shellwright.Reviewer

namespace Shellwright.Review.Course

open Reviewer

variable {c : Course} {s s' t u timer timer' : Nat} {uri : String}

/-- The timer was set for the address with event `s`, and by time `t` it is not over. -/
structure Pends (c : Course) (s t : Nat) (uri : String) (timer : Nat) : Prop where
  past : s < t
  set : (c.reviewer s).Sets (c.event s) uri timer
  unstopped : ∀ u, s < u → u < t → ¬ (c.reviewer u).Stops (c.event u) uri timer

theorem regulated (c : Course) (t : Nat) : (c.reviewer t).Regulated := by
  induction t with
  | zero =>
      refine ⟨c.orderly 0, Flagged.start c.sink, Heeded.start, ?_, ?_, rfl⟩
      · intro j k run run' _ hrun
        cases hrun
      · constructor
        · intro n session debounce hsession
          cases hsession
        · intro m n session session' debounce debounce' hsession
          cases hsession
  | succ t ih => exact ih.step (c.event t)

/-- A session that has been closed dispatches nothing any more. -/
theorem closed_rests (c : Course) {n : Nat} {session : Session} (le : t ≤ u)
    (found : (c.reviewer t).sessions.at? n = some session) (closed : session.closed = true) {k : Nat}
    {run : Run} (run_eq : (c.reviewer u).runs[k]? = some run) (own : run.session = n) :
    k < (c.reviewer t).runs.length := by
  induction le generalizing k run with
  | refl => exact (List.getElem?_eq_some_iff.1 run_eq).1
  | @step u le ih =>
      have hdoes := (step_acts (c.orderly u).calm (c.event u)).desk
      obtain ⟨session', hsession', hgrows⟩ := (c.later (Nat.le_succ_of_le le)).sessions n session found
      cases hbefore : (c.reviewer u).runs[k]? with
      | some before =>
          obtain ⟨run', hrun', hticket⟩ := hdoes.later.runs k before hbefore
          obtain rfl := Option.some.inj (hrun'.symm.trans run_eq)
          exact ih hbefore ((Run.eq_of_ticket hticket).1.symm.trans own)
      | none =>
          have hge := List.getElem?_eq_none_iff.1 hbefore
          have hlt := (List.getElem?_eq_some_iff.1 run_eq).1
          change k < ((c.reviewer u).step (c.event u)).runs.length at hlt
          rcases hdoes.dispatches (c.orderly u).sound with htickets | ⟨run', s', hruns, hs', hopen, _⟩
          · have hlength := congrArg List.length htickets
            rw [List.length_map, List.length_map] at hlength
            change ((c.reviewer u).step (c.event u)).runs.length = (c.reviewer u).runs.length at hlength
            omega
          -- The run is of an open session, and closed sessions stay closed.
          · have hruns : (c.reviewer (u + 1)).runs = (c.reviewer u).runs ++ [run'] := hruns
            rw [hruns, List.getElem?_append_right hge, List.getElem?_singleton] at run_eq
            obtain ⟨_, ⟨⟩⟩ := Option.ite_none_right_eq_some.1 run_eq
            rw [own] at hs'
            obtain rfl := Option.some.inj (hs'.symm.trans hsession')
            rw [hgrows.closed closed] at hopen
            cases hopen

/-- A timer is held by one session from when it is set until it is over. -/
theorem Pends.waitsFor (h : c.Pends s t uri timer) :
    ∃ n, ∀ u, s < u → u ≤ t → (c.reviewer u).WaitsFor uri n timer := by
  have hregulated := c.regulated s
  obtain ⟨document, hevent, hedits, harmed⟩ := (sets_iff hregulated.outbox).1 h.set
  have hset : (c.reviewer (s + 1)).desk.waits uri = some ⟨timer, document⟩ := by
    change ((c.reviewer s).step (c.event s)).desk.waits uri = _
    rw [hevent]
    change ((c.reviewer s).change document).desk.waits uri = _
    rw [waits_change hregulated.orderly.sound, if_pos hedits, harmed]
  obtain ⟨n, hn⟩ := get?_of_waits hset
  have hwaits : ∀ u, s + 1 ≤ u → u ≤ t → (c.reviewer u).desk.sessions.get? uri = some n ∧
      (c.reviewer u).desk.waits uri = some ⟨timer, document⟩ := by
    intro u hu
    induction hu with
    | refl => exact fun _ => ⟨hn, hset⟩
    | @step u hu ih =>
        intro hle
        obtain ⟨hget, hbefore⟩ := ih (Nat.le_of_succ_le hle)
        obtain ⟨hafter, hsame⟩ := (c.regulated u).waits_on hbefore (h.unstopped u hu hle)
        exact ⟨hsame.trans hget, hafter⟩
  refine ⟨n, fun u hu hle => (waitsFor_iff (c.orderly u).sound).2 ?_⟩
  obtain ⟨hget, hheld⟩ := hwaits u hu hle
  exact ⟨hget, document, hheld⟩

/-- A timer that is held has been set for the address, and is not over. -/
theorem pends_of_waits {document : String}
    (waits : (c.reviewer t).desk.waits uri = some ⟨timer, document⟩) :
    ∃ s, c.Pends s t uri timer := by
  induction t with
  | zero => cases waits
  | succ t ih =>
      have hregulated := c.regulated t
      rcases hregulated.waits_before waits with hsets | hbefore
      · exact ⟨t, Nat.lt_succ_self t, hsets, fun u hu hlt => absurd hlt (by omega)⟩
      · obtain ⟨s, hpast, hsets, hunstopped⟩ := ih hbefore
        refine ⟨s, Nat.lt_succ_of_lt hpast, hsets, fun u hu hlt => ?_⟩
        rcases Nat.lt_succ_iff_lt_or_eq.1 hlt with hlt | rfl
        · exact hunstopped u hu hlt
        · intro hstops
          obtain ⟨session, hfound, hpending⟩ := Option.bind_eq_some_iff.1 hbefore
          obtain ⟨n, _, hsession⟩ := Option.bind_eq_some_iff.1 hfound
          exact hstops.waits_ne hregulated (hregulated.numbered.set n session _ hsession hpending)
            document waits

/-- The number of a timer is that of the timers set before. -/
theorem timer_of_sets (h : (c.reviewer s).Sets (c.event s) uri timer) :
    timer = (c.reviewer s).timers := by
  obtain ⟨document, _, _, harmed⟩ := (sets_iff (c.regulated s).outbox).1 h
  obtain ⟨_, _, hdebounce⟩ := Option.map_eq_some_iff.1 harmed
  cases hdebounce
  rfl

theorem WaitsFor.lt_timers {n : Nat} (h : (c.reviewer t).WaitsFor uri n timer) :
    timer < (c.reviewer t).timers := by
  obtain ⟨_, session, document, hsession, _, _, hpending⟩ := h
  exact (c.regulated t).numbered.set n session _ hsession hpending

/-- No two timers of an address are waited for at a time. -/
theorem Pends.unique (h : c.Pends s t uri timer) (h' : c.Pends s' t uri timer') :
    s = s' ∧ timer = timer' := by
  obtain ⟨n, hwaitsFor⟩ := h.waitsFor
  obtain ⟨n', hwaitsFor'⟩ := h'.waitsFor
  have htimer : timer = timer' := by
    obtain ⟨hget, session, document, hsession, _, _, hpending⟩ := hwaitsFor t h.past (Nat.le_refl t)
    obtain ⟨hget', session', document', hsession', _, _, hpending'⟩ :=
      hwaitsFor' t h'.past (Nat.le_refl t)
    obtain rfl := Option.some.inj (hget.symm.trans hget')
    obtain rfl := Option.some.inj (hsession.symm.trans hsession')
    cases hpending.symm.trans hpending'
    rfl
  refine ⟨?_, htimer⟩
  subst htimer
  -- A timer that is held already is not the one that is set next.
  rcases Nat.lt_trichotomy s s' with hlt | heq | hgt
  · have hless := WaitsFor.lt_timers (hwaitsFor s' hlt (Nat.le_of_lt h'.past))
    rw [← timer_of_sets h'.set] at hless
    exact absurd hless (Nat.lt_irrefl _)
  · exact heq
  · have hless := WaitsFor.lt_timers (hwaitsFor' s hgt (Nat.le_of_lt h.past))
    rw [← timer_of_sets h.set] at hless
    exact absurd hless (Nat.lt_irrefl _)

theorem fires_iff_pends (c : Course) (t timer : Nat) :
    (c.reviewer t).Fires timer ↔ ∃ s uri, c.Pends s t uri timer := by
  rw [(c.regulated t).fires_iff]
  constructor
  · rintro ⟨uri, n, hwaitsFor⟩
    obtain ⟨_, document, hwaits⟩ := (waitsFor_iff (c.orderly t).sound).1 hwaitsFor
    obtain ⟨s, hpends⟩ := pends_of_waits hwaits
    exact ⟨s, uri, hpends⟩
  · rintro ⟨s, uri, hpends⟩
    obtain ⟨n, hwaitsFor⟩ := hpends.waitsFor
    exact ⟨uri, n, hwaitsFor t hpends.past (Nat.le_refl t)⟩

/-- Whatever happens to a review: its sessions are upheld at any time, a session that has been closed
dispatches nothing any more, a timer that has been set and is not over is held by the open session of its
address all the time, no other timers have a run dispatched when they run out, and an address has one at
most. -/
theorem sessions_upheld (c : Course) :
    (∀ t, (c.reviewer t).Upholds) ∧
    (∀ t u n session, t ≤ u → (c.reviewer t).sessions.at? n = some session → session.closed = true →
      ∀ (k : Nat) run, (c.reviewer u).runs[k]? = some run → run.session = n →
        k < (c.reviewer t).runs.length) ∧
    (∀ s t uri timer, c.Pends s t uri timer →
      ∃ n, ∀ u, s < u → u ≤ t → (c.reviewer u).WaitsFor uri n timer) ∧
    (∀ t timer, (c.reviewer t).Fires timer ↔ ∃ s uri, c.Pends s t uri timer) ∧
    ∀ s s' t uri timer timer', c.Pends s t uri timer → c.Pends s' t uri timer' →
      s = s' ∧ timer = timer' := by
  refine ⟨fun t => (c.regulated t).upholds, ?_, fun _ _ _ _ h => h.waitsFor, c.fires_iff_pends,
    fun _ _ _ _ _ _ h h' => h.unique h'⟩
  intro t u n session le found closed k run hrun own
  exact c.closed_rests le found closed hrun own

end Shellwright.Review.Course
