import Mathlib.Data.List.Nodup
import Shellwright.Proofs.Review.Clock
/-!
# Checks after a quiet time

When the runs of an address are dispatched: at once when a document is to be checked, and after a quiet
time when it has been edited and nothing has happened to it since.
-/

namespace Shellwright.Review

/-- What happens to the documents of an address, as far as it tells when they are to be checked. -/
inductive Sign
  | checked (document : String)
  | edited (document : String)
  /-- The session of the address is closed. -/
  | ended

/-- The run that is due by `now` for what has happened at `time`, with what has happened since. -/
def Sign.run? (delay now time : Nat) (since : List (Nat × Sign)) : Sign → Option (Nat × String)
  | .checked document => some (time, document)
  | .edited document =>
    if (∀ later ∈ since, time + delay ≤ later.1) ∧ time + delay ≤ now then
      some (time + delay, document)
    else none
  | .ended => none

/-- The document that is checked at once. -/
def Sign.prompt : Sign → Option String
  | .checked document => some document
  | _ => none

/-- The runs that are due by `now`, each with its time and its document. -/
def due (delay now : Nat) : List (Nat × Sign) → List (Nat × String)
  | [] => []
  | (time, sign) :: rest => (sign.run? delay now time rest).toList ++ due delay now rest

/-- By `now` some edit has not been followed by anything for the quiet time. -/
def Ripe (delay now : Nat) (signs : List (Nat × Sign)) : Prop :=
  ∃ before time document rest, signs = before ++ (time, .edited document) :: rest ∧
    (∀ later ∈ rest, time + delay ≤ later.1) ∧ time + delay ≤ now

/-- Nothing happens when the quiet time after an edit is just over. -/
def Clear (delay : Nat) (signs : List (Nat × Sign)) : Prop :=
  signs.Pairwise fun sign later => ∀ document, sign.2 = .edited document → later.1 ≠ sign.1 + delay

variable {delay now time : Nat} {signs : List (Nat × Sign)}

theorem due_cons (delay now time : Nat) (sign : Sign) (rest : List (Nat × Sign)) :
    due delay now ((time, sign) :: rest) =
      (sign.run? delay now time rest).toList ++ due delay now rest := rfl

/-- What has happened so far is judged when the next thing happens. -/
theorem due_concat (le : time ≤ now) (signs : List (Nat × Sign)) (sign : Sign) :
    due delay now (signs ++ [(time, sign)]) =
      due delay time signs ++ due delay now [(time, sign)] := by
  induction signs with
  | nil => rfl
  | cons first rest ih =>
      obtain ⟨t, s⟩ := first
      have hsame : s.run? delay now t (rest ++ [(time, sign)]) = s.run? delay time t rest := by
        cases s with
        | edited document =>
            unfold Sign.run?
            simp only [List.forall_mem_append, List.forall_mem_singleton]
            congr 1
            apply propext
            constructor
            · intro h
              exact h.1
            · intro h
              exact ⟨h, by omega⟩
        | _ => rfl
      rw [List.cons_append, due_cons, due_cons, hsame, ih, List.append_assoc]

/-- The runs that are dispatched at once. -/
def prompt (signs : List (Nat × Sign)) : List (Nat × String) :=
  signs.flatMap fun entry => entry.2.prompt.toList.map (entry.1, ·)

theorem prompt_cons (time : Nat) (sign : Sign) (rest : List (Nat × Sign)) :
    prompt ((time, sign) :: rest) = sign.prompt.toList.map (time, ·) ++ prompt rest := rfl

theorem ripe_cons (sign : Sign) (rest : List (Nat × Sign)) :
    Ripe delay now ((time, sign) :: rest) ↔
      (∃ document, sign = .edited document ∧ (∀ later ∈ rest, time + delay ≤ later.1) ∧
        time + delay ≤ now) ∨ Ripe delay now rest := by
  constructor
  · rintro ⟨before, t, document, after, hsigns, hquiet, hpast⟩
    cases before with
    | nil =>
        cases hsigns
        exact .inl ⟨document, rfl, hquiet, hpast⟩
    | cons first before =>
        cases hsigns
        exact .inr ⟨before, t, document, after, rfl, hquiet, hpast⟩
  · rintro (⟨document, rfl, hquiet, hpast⟩ | ⟨before, t, document, after, rfl, hquiet, hpast⟩)
    · exact ⟨[], time, document, rest, rfl, hquiet, hpast⟩
    · exact ⟨(time, sign) :: before, t, document, after, rfl, hquiet, hpast⟩

theorem length_prompt_le (delay now : Nat) (signs : List (Nat × Sign)) :
    (prompt signs).length ≤ (due delay now signs).length := by
  induction signs with
  | nil => exact Nat.le_refl 0
  | cons first rest ih =>
      obtain ⟨time, sign⟩ := first
      rw [prompt_cons, due_cons, List.length_append, List.length_append]
      refine Nat.add_le_add ?_ ih
      cases sign with
      | edited document => exact Nat.zero_le _
      | _ => exact Nat.le_refl _

/-- Nothing but checks at once is due exactly when no edit is. -/
theorem prompt_eq_due_iff (delay now : Nat) (signs : List (Nat × Sign)) :
    prompt signs = due delay now signs ↔ ¬ Ripe delay now signs := by
  induction signs with
  | nil =>
      refine ⟨fun _ => ?_, fun _ => rfl⟩
      rintro ⟨before, time, document, rest, hsigns, _⟩
      simp at hsigns
  | cons first rest ih =>
      obtain ⟨time, sign⟩ := first
      rw [prompt_cons, due_cons, ripe_cons, not_or, ← ih]
      cases sign with
      | edited document =>
          by_cases hquiet : (∀ later ∈ rest, time + delay ≤ later.1) ∧ time + delay ≤ now
          · -- The run for the edit is one more than all that are prompt.
            have hle := length_prompt_le delay now rest
            simp only [Sign.run?, if_pos hquiet, Sign.prompt]
            constructor
            · intro heq
              have hlength := congrArg List.length heq
              simp only [Option.toList_none, Option.toList_some, List.map_nil, List.nil_append,
                List.length_append, List.length_singleton] at hlength
              omega
            · intro h
              exact absurd ⟨document, rfl, hquiet⟩ h.1
          · simp only [Sign.run?, if_neg hquiet, Sign.prompt]
            constructor
            · intro heq
              refine ⟨?_, heq⟩
              rintro ⟨_, ⟨⟩, hripe⟩
              exact hquiet hripe
            · exact fun h => h.2
      | _ => simp [Sign.run?, Sign.prompt]

end Shellwright.Review

namespace Shellwright.Reviewer

open Review

/-- What a deed is to the documents of an address. -/
def sign (r : Reviewer) (uri : String) : Deed → Option Sign
  | .checks document =>
    if (r.document document).isShell ∧ (r.document document).uri = uri then some (.checked document)
    else none
  | .edits document =>
    if (r.document document).isShell ∧ (r.document document).uri = uri then some (.edited document)
    else none
  | .closes document => if (r.document document).uri = uri then some .ended else none
  | .shuts => some .ended
  | _ => none

end Shellwright.Reviewer

namespace Shellwright.Review

namespace Clocked

/-- What a move is to the documents of an address. -/
def sign (c : Clocked) (uri : String) : Move → Option Sign
  | .happens e => c.reviewer.sign uri (c.reviewer.deed e)
  | _ => none

/-- When runs were dispatched for an address, and for which documents. -/
def dispatches (c : Clocked) (uri : String) : List (Nat × String) :=
  ((c.times.zip c.reviewer.runs).filter fun entry => c.reviewer.desk.isOf uri entry.2).map
    fun entry => (entry.1, entry.2.document)

end Clocked

/-- All that has happened to an address, with the times, and the review thereafter. -/
inductive Opening.Reaches (o : Opening) (uri : String) : List (Nat × Sign) → Clocked → Prop
  | start : o.Reaches uri [] o.start
  | move {signs : List (Nat × Sign)} {c : Clocked} {m : Clocked.Move} (before : o.Reaches uri signs c)
      (admits : c.Admits o.delay m) :
      o.Reaches uri (signs ++ (c.sign uri m).toList.map (c.now, ·)) (c.move m)

end Shellwright.Review

namespace Shellwright.Reviewer

open Review

variable {r : Reviewer} {uri : String}

/-! ## What an address waits for after a step -/

/-- What an address waits for after something has happened to it. -/
def waitsAfter (r : Reviewer) : Sign → Option Debounce
  | .edited document => r.armed document
  | _ => none

theorem deskAfter_stirs_sign (sound : Sound r.desk) (on : r.onChange = true) {deed : Deed} {s : Sign}
    (sign : r.sign uri deed = some s) :
    r.desk.Stirs uri (r.deskAfter deed) (r.waitsAfter s) s.prompt.toList := by
  cases deed with
  | checks document =>
      obtain ⟨⟨hshell, rfl⟩, ⟨⟩⟩ := Option.ite_none_right_eq_some.1 sign
      simp only [deskAfter, hshell, if_true]
      exact .diagnose sound _ document
  | edits document =>
      obtain ⟨⟨hshell, rfl⟩, ⟨⟩⟩ := Option.ite_none_right_eq_some.1 sign
      simp only [deskAfter, on, hshell, Bool.and_self, if_true]
      have hstirs : r.desk.Stirs (r.document document).uri
          (r.desk.arm (r.document document).uri (r.armed document)) _ [] := .of_tickets rfl
      rw [sound.waits_arm] at hstirs
      exact hstirs
  | closes document =>
      obtain ⟨rfl, ⟨⟩⟩ := Option.ite_none_right_eq_some.1 sign
      have hstirs : r.desk.Stirs (r.document document).uri
          (r.desk.close (r.document document).uri) _ [] := .of_tickets rfl
      rw [Desk.waits_close] at hstirs
      exact hstirs
  | shuts =>
      cases sign
      have hstirs : r.desk.Stirs uri r.desk.shut _ [] := .of_tickets rfl
      rw [Desk.waits_shut] at hstirs
      exact hstirs
  | _ => cases sign

theorem judged_stirs (r : Reviewer) (uri : String) (n : Nat) (outcome : Outcome Registry.Reply) :
    r.desk.Stirs uri (r.judged n outcome) (r.desk.waits uri) [] := by
  have hsame : r.desk.Stirs uri r.desk (r.desk.waits uri) [] := .of_tickets rfl
  unfold judged
  split
  · split
    · rename_i verdict _ run _
      split
      · rename_i session _
        split
        · rw [← Desk.waits_publish r.desk n run session verdict uri]
          exact .of_tickets (tickets_modify _ n fun _ => rfl)
        · exact hsame
      · exact hsame
    · exact hsame
  · exact hsame

/-- The address waits for the timer that runs out. -/
def Runs (r : Reviewer) (uri : String) (deed : Deed) : Prop :=
  ∃ debounce, r.desk.waits uri = some debounce ∧ deed = .elapses debounce.timer

theorem deskAfter_stirs_none (sound : Sound r.desk) (flagged : Flagged r.desk) {deed : Deed}
    (sign : r.sign uri deed = none) (apart : ¬ r.Runs uri deed) :
    r.desk.Stirs uri (r.deskAfter deed) (r.desk.waits uri) [] := by
  have hsame : r.desk.Stirs uri r.desk (r.desk.waits uri) [] := .of_tickets rfl
  by_cases hregards : r.Regards uri deed
  · cases deed with
    | checks document =>
        have hshell : ¬ (r.document document).isShell = true := fun hshell => by
          rw [Reviewer.sign, if_pos ⟨hshell, hregards⟩] at sign
          cases sign
        rw [deskAfter, if_neg hshell]
        exact hsame
    | edits document =>
        have hshell : ¬ (r.document document).isShell = true := fun hshell => by
          rw [Reviewer.sign, if_pos ⟨hshell, hregards⟩] at sign
          cases sign
        rw [deskAfter, if_neg (by simp [hshell])]
        exact hsame
    | elapses timer =>
        obtain ⟨n, debounce, s, hpending, hs, rfl⟩ := hregards
        obtain ⟨s', hs', hwaits, rfl⟩ := pending?_spec hpending
        obtain rfl := Option.some.inj (hs.symm.trans hs')
        exact absurd ⟨debounce, (sound.waits hs hwaits).2, rfl⟩ apart
    | closes document =>
        have huri : (r.document document).uri = uri := hregards
        rw [Reviewer.sign, if_pos huri] at sign
        cases sign
    | shuts => cases sign
    | judges k outcome => exact judged_stirs r uri k outcome
    | rests => exact hsame
  · exact (deskAfter_spares sound flagged hregards).stirs sound

theorem deskAfter_stirs_elapsed (sound : Sound r.desk) {timers : Nat}
    (numbered : r.sessions.Numbered timers) {debounce : Debounce}
    (waits : r.desk.waits uri = some debounce) :
    r.desk.Stirs uri (r.deskAfter (.elapses debounce.timer)) none [debounce.document] := by
  obtain ⟨n, s, hpending, hs, rfl, hget⟩ := pending?_of_waits sound numbered waits
  simp only [deskAfter, hpending]
  exact .elapse hs hget debounce.document

theorem heard_ne_elapses (r : Reviewer) (event : Registry.Event) (timer : Nat) :
    r.heard event ≠ .elapses timer := by
  have hending : ∀ ended, r.ending ended ≠ .elapses timer := by
    rintro ⟨key, outcome⟩ heq
    unfold ending at heq
    split at heq
    · cases heq
    · split at heq
      · split at heq <;> cases heq
      · cases heq
  unfold heard
  cases (r.registry.step r.buffers event).finishes.head? with
  | none => exact nofun
  | some ended => exact hending ended

/-- Only the timer itself makes a session go on that waits for it. -/
theorem deed_elapses {e : Event} {timer : Nat} (h : r.deed e = .elapses timer) :
    e = .elapsed timer := by
  cases e with
  | registry event => exact absurd h (heard_ne_elapses r event timer)
  | call n request =>
      cases request with
      | format document token => exact absurd h (heard_ne_elapses _ _ timer)
      | fixAll document token editable =>
          simp only [deed] at h
          split at h
          · exact absurd h (heard_ne_elapses _ _ timer)
          · cases h
      | _ => cases h
  | elapsed other =>
      cases h
      rfl
  | member n i =>
      simp only [deed] at h
      cases hmember : r.memberAt n i <;> rw [hmember] at h <;> cases h
  | begin n =>
      simp only [deed] at h
      split at h
      · split at h
        · cases h
        · exact absurd h (heard_ne_elapses r _ timer)
      · cases h
  | _ => cases h

end Shellwright.Reviewer

namespace Shellwright.Review.Clocked

variable {delay : Nat} {c c' : Clocked} {uri : String} {m : Move}

/-! ## Runs by the clock -/

theorem dispatches_eq (c : Clocked) (uri : String) :
    c.dispatches uri = ((c.times.zip (c.reviewer.runs.map Run.ticket)).filter fun entry =>
      (c.reviewer.sessions.at? entry.2.1).any (·.uri == uri)).map
        fun entry => (entry.1, entry.2.2.2) := by
  unfold dispatches
  rw [List.zip_map_right, List.filter_map, List.map_map]
  rfl

/-- The runs that a step dispatches for an address are dispatched now. -/
theorem Regular.dispatches_react (h : Regular delay c) (e : Event) {debounce : Option Debounce}
    {documents : List String}
    (stirs : c.reviewer.desk.Stirs uri (c.reviewer.step e).desk debounce documents) :
    (c.react e).dispatches uri = c.dispatches uri ++ documents.map (c.now, ·) := by
  obtain ⟨_, runs, htickets, hdocuments⟩ := stirs
  have hlater := (Reviewer.step_acts h.orderly.calm e).desk.later
  have htickets : (c.reviewer.step e).runs.map Run.ticket =
      c.reviewer.runs.map Run.ticket ++ runs.map Run.ticket := htickets
  have hlength : (c.reviewer.step e).runs.length - c.reviewer.runs.length = runs.length := by
    have hsum := congrArg List.length htickets
    rw [List.length_append, List.length_map, List.length_map, List.length_map] at hsum
    omega
  have hzip : (c.react e).times.zip ((c.reviewer.step e).runs.map Run.ticket) =
      c.times.zip (c.reviewer.runs.map Run.ticket) ++ runs.map fun run => (c.now, run.ticket) := by
    change (c.times ++ List.replicate _ c.now).zip _ = _
    rw [hlength, htickets, List.zip_append (by rw [List.length_map, h.times]), ← List.map_const',
      List.zip_map']
  -- The runs so far are of the same addresses as before.
  have hold : ∀ entry ∈ c.times.zip (c.reviewer.runs.map Run.ticket),
      ((c.reviewer.step e).sessions.at? entry.2.1).any (·.uri == uri) =
        (c.reviewer.sessions.at? entry.2.1).any (·.uri == uri) := by
    rintro ⟨time, ticket⟩ hentry
    obtain ⟨run, hrun, rfl⟩ := List.mem_map.1 (List.of_mem_zip hentry).2
    obtain ⟨k, hk⟩ := List.mem_iff_getElem?.1 hrun
    obtain ⟨s, hs, _⟩ := h.orderly.sound.runs k run hk
    obtain ⟨s', hs', hgrows⟩ := hlater.sessions run.session s hs
    have hs : c.reviewer.sessions.at? run.session = some s := hs
    have hs' : (c.reviewer.step e).sessions.at? run.session = some s' := hs'
    change ((c.reviewer.step e).sessions.at? run.session).any _ =
      (c.reviewer.sessions.at? run.session).any _
    rw [hs, hs', Option.any_some, Option.any_some, hgrows.uri]
  rw [dispatches_eq, dispatches_eq]
  change (((c.react e).times.zip ((c.reviewer.step e).runs.map Run.ticket)).filter fun entry =>
    ((c.reviewer.step e).sessions.at? entry.2.1).any (·.uri == uri)).map _ = _
  rw [hzip, List.filter_append, List.filter_congr hold, List.map_append, ← hdocuments]
  congr 1
  rw [List.filter_map, List.map_map, List.map_map]
  rfl

/-- What a session waits for a timer rings for. -/
theorem Regular.set_of_waits (h : Regular delay c) {e : Event} (keeps : e.Keeps delay)
    {document : String}
    (waits : (c.react e).reviewer.desk.waits uri = some ⟨c.reviewer.timers, document⟩) :
    (c.reviewer.timers, c.now + delay) ∈ (c.react e).timers := by
  have hnumbered := Reviewer.step_numbered h.orderly.calm h.numbered e
  obtain ⟨s, hfound, hpending⟩ := Option.bind_eq_some_iff.1 waits
  obtain ⟨n, _, hs⟩ := Option.bind_eq_some_iff.1 hfound
  have hset : c.reviewer.timers < (c.reviewer.step e).timers := hnumbered.set n s _ hs hpending
  rcases (h.timekeeping keeps).alarms with ⟨_, hsame⟩ | ⟨_, hone, _⟩
  · omega
  · change _ ∈ c.timers ++ (c.reviewer.step e).alarms.map _
    rw [hone]
    exact List.mem_append_right _ (List.mem_singleton_self _)

/-- What is known of an address: it waits for the timer of its last edit, or all that will ever be due
for what has happened has been dispatched. -/
inductive Tracks (delay : Nat) (uri : String) : List (Nat × Sign) → Clocked → Prop
  | waiting {signs : List (Nat × Sign)} {c : Clocked} {time timer : Nat} {document : String}
      (waits : c.reviewer.desk.waits uri = some ⟨timer, document⟩)
      (set : (timer, time + delay) ∈ c.timers) (past : time ≤ c.now)
      (dispatches : c.dispatches uri = due delay time signs) :
      Tracks delay uri (signs ++ [(time, .edited document)]) c
  | resting {signs : List (Nat × Sign)} {c : Clocked} (waits : c.reviewer.desk.waits uri = none)
      (dispatches : c.dispatches uri = due delay c.now signs)
      (stable : ∀ now, c.now ≤ now → due delay now signs = due delay c.now signs) :
      Tracks delay uri signs c

variable {signs : List (Nat × Sign)}

theorem due_edited (delay now time : Nat) (document : String) :
    due delay now [(time, .edited document)] =
      if time + delay ≤ now then [(time + delay, document)] else [] := by
  unfold due Sign.run?
  simp only [List.not_mem_nil, false_implies, implies_true, true_and]
  split
  · rfl
  · rfl

/-- All that is due has been dispatched, unless a timer is to ring right now. -/
theorem Tracks.due_now (tracks : Tracks delay uri signs c)
    (rested : ∀ before time document, signs = before ++ [(time, .edited document)] →
      (∃ timer, (timer, time + delay) ∈ c.timers) → c.now < time + delay) :
    c.dispatches uri = due delay c.now signs := by
  cases tracks with
  | @waiting before _ time timer document waits set past dispatches =>
      have hahead := rested before time document rfl ⟨timer, set⟩
      rw [due_concat past, due_edited, if_neg (by omega), List.append_nil]
      exact dispatches
  | resting waits dispatches stable => exact dispatches

/-- Something happens to the address. -/
theorem Tracks.signed (regular : Regular delay c) (measurable : Execution.isMeasurable delay = true)
    (dispatches : c.dispatches uri = due delay c.now signs) {e : Event} (keeps : e.Keeps delay)
    {s : Sign} (sign : c.reviewer.sign uri (c.reviewer.deed e) = some s) :
    Tracks delay uri (signs ++ [(c.now, s)]) (c.react e) := by
  have hstirs := (Reviewer.deskAfter_stirs_sign regular.orderly.sound regular.onChange sign).agrees
    (Reviewer.step_agrees regular.orderly.calm e)
  have hafter := regular.dispatches_react e hstirs
  have hwaits : (c.react e).reviewer.desk.waits uri = c.reviewer.waitsAfter s := hstirs.waits
  -- Unless it is an edit, what is due for it is due now.
  have hrests : c.reviewer.waitsAfter s = none →
      (∀ now, due delay now [(c.now, s)] = s.prompt.toList.map (c.now, ·)) →
      Tracks delay uri (signs ++ [(c.now, s)]) (c.react e) := by
    intro hnone hprompt
    have hdue : ∀ now, c.now ≤ now →
        (c.react e).dispatches uri = due delay now (signs ++ [(c.now, s)]) := by
      intro now le
      rw [hafter, dispatches, due_concat le, hprompt]
    exact .resting (hwaits.trans hnone) (hdue c.now (Nat.le_refl _)) fun now le =>
      (hdue now le).symm.trans (hdue c.now (Nat.le_refl _))
  cases s with
  | edited document =>
      have harmed : c.reviewer.armed document = some ⟨c.reviewer.timers, document⟩ := by
        unfold Reviewer.armed
        rw [regular.debounce, Option.filter_some, if_pos measurable]
        rfl
      have hwaits := hwaits.trans harmed
      refine .waiting hwaits (regular.set_of_waits keeps hwaits) (Nat.le_refl c.now) ?_
      rw [hafter, dispatches]
      exact List.append_nil _
  | checked document => exact hrests rfl fun _ => rfl
  | ended => exact hrests rfl fun _ => rfl

/-- A step that is nothing to the address. -/
theorem Tracks.unsigned {timers : List (Nat × Nat)} (regular : Regular delay { c with timers := timers })
    (tracks : Tracks delay uri signs c) {e : Event}
    (sign : c.reviewer.sign uri (c.reviewer.deed e) = none)
    (apart : ¬ c.reviewer.Runs uri (c.reviewer.deed e))
    (set : ∀ timer document time, c.reviewer.desk.waits uri = some ⟨timer, document⟩ →
      (timer, time) ∈ c.timers → (timer, time) ∈ timers) :
    Tracks delay uri signs ({ c with timers := timers }.react e) := by
  have hstirs := (Reviewer.deskAfter_stirs_none regular.orderly.sound regular.flagged sign apart).agrees
    (Reviewer.step_agrees regular.orderly.calm e)
  have hafter := regular.dispatches_react e hstirs
  rw [List.map_nil, List.append_nil] at hafter
  cases tracks with
  | @waiting before _ time timer document waits alarm past dispatches =>
      exact .waiting (hstirs.waits.trans waits)
        (List.mem_append_left _ (set timer document _ waits alarm)) past (hafter.trans dispatches)
  | resting waits dispatches stable =>
      exact .resting (hstirs.waits.trans waits) (hafter.trans dispatches) stable

/-- The timer rings that the address waits for. -/
theorem Tracks.rung (regular : Regular delay c) (tracks : Tracks delay uri signs c) {timer : Nat}
    {document : String} (waits : c.reviewer.desk.waits uri = some ⟨timer, document⟩)
    (admits : c.Admits delay (.rings timer)) :
    Tracks delay uri signs (c.move (.rings timer)) := by
  have hstirs := (Reviewer.deskAfter_stirs_elapsed regular.orderly.sound regular.numbered waits).agrees
    (Reviewer.step_agrees regular.orderly.calm (.elapsed timer))
  have hafter := (regular.ring timer).dispatches_react (.elapsed timer) hstirs
  obtain ⟨time', hmem, hle⟩ := admits
  cases tracks with
  | @waiting before _ time timer' document' waits' set past dispatches =>
      cases waits.symm.trans waits'
      have hahead := regular.ahead _ set
      obtain rfl : time' = time + delay := by
        have hsame := List.inj_on_of_nodup_map regular.once hmem set rfl
        exact congrArg Prod.snd hsame
      obtain hnow : c.now = time + delay := Nat.le_antisymm hahead hle
      have hdue : ∀ now, c.now ≤ now →
          (c.move (.rings timer)).dispatches uri = due delay now (before ++ [(time, .edited document)]) := by
        intro now le
        rw [due_concat (by omega), due_edited, if_pos (by omega), ← hnow, ← dispatches]
        exact hafter
      exact .resting hstirs.waits (hdue c.now (Nat.le_refl _)) fun now le =>
        (hdue now le).symm.trans (hdue c.now (Nat.le_refl _))
  | resting waits' dispatches stable =>
      rw [waits'] at waits
      cases waits

theorem Tracks.move (regular : Regular delay c) (measurable : Execution.isMeasurable delay = true)
    (tracks : Tracks delay uri signs c) (admits : c.Admits delay m)
    (clear : Clear delay (signs ++ (c.sign uri m).toList.map (c.now, ·))) :
    Tracks delay uri (signs ++ (c.sign uri m).toList.map (c.now, ·)) (c.move m) := by
  cases m with
  | happens e =>
      obtain ⟨hkeeps, hevent⟩ := admits
      cases hsign : c.sign uri (.happens e) with
      | some s =>
          rw [hsign] at clear
          refine .signed regular measurable (tracks.due_now ?_) hkeeps hsign
          -- The timer of the last edit has not rung, and is not to ring right now.
          rintro before time document rfl ⟨timer, halarm⟩
          have hahead := regular.ahead _ halarm
          have hapart := (List.pairwise_append.1 clear).2.2 (time, .edited document) (by simp)
            (c.now, s) (List.mem_singleton_self _) document rfl
          simp only at hahead hapart
          omega
      | none =>
          rw [Option.toList_none, List.map_nil, List.append_nil]
          refine tracks.unsigned regular hsign ?_ fun _ _ _ _ halarm => halarm
          rintro ⟨debounce, _, hdeed⟩
          exact hevent debounce.timer (Reviewer.deed_elapses hdeed)
  | rings timer =>
      rw [show c.sign uri _ = none from rfl, Option.toList_none, List.map_nil, List.append_nil]
      by_cases hown : ∃ document, c.reviewer.desk.waits uri = some ⟨timer, document⟩
      · obtain ⟨document, hwaits⟩ := hown
        exact tracks.rung regular hwaits admits
      · refine tracks.unsigned (regular.ring timer) rfl ?_ fun other document time hwaits halarm => ?_
        · rintro ⟨⟨other, document⟩, hwaits, hdeed⟩
          cases hdeed
          exact hown ⟨document, hwaits⟩
        · refine List.mem_filter.2 ⟨halarm, ?_⟩
          rw [bne_iff_ne]
          rintro rfl
          exact hown ⟨document, hwaits⟩
  | passes time =>
      rw [show c.sign uri _ = none from rfl, Option.toList_none, List.map_nil, List.append_nil]
      cases tracks with
      | waiting waits set past dispatches =>
          exact .waiting waits set (Nat.le_trans past admits.1) dispatches
      | resting waits dispatches stable =>
          exact .resting waits (dispatches.trans (stable time admits.1).symm) fun now le =>
            (stable now (Nat.le_trans admits.1 le)).trans (stable time admits.1).symm

end Shellwright.Review.Clocked

namespace Shellwright.Review.Opening.Reaches

open Clocked

variable {o : Opening} {uri : String} {signs : List (Nat × Sign)} {c : Clocked}

theorem regular (reached : o.Reaches uri signs c) : Regular o.delay c := by
  induction reached with
  | start => exact .start o
  | move before admits ih => exact ih.move admits

theorem tracks (measurable : Execution.isMeasurable o.delay = true) (reached : o.Reaches uri signs c)
    (clear : Clear o.delay signs) : Tracks o.delay uri signs c := by
  induction reached with
  | start => exact .resting rfl rfl fun _ _ => rfl
  | move before admits ih =>
      exact (ih (List.pairwise_append.1 clear).1).move before.regular measurable admits clear

/-- No timer is set for a time that the clock cannot measure. -/
theorem timers_react (regular : Regular o.delay c) (immeasurable : Execution.isMeasurable o.delay = false)
    {e : Event} (keeps : e.Keeps o.delay) : (c.react e).timers = c.timers := by
  change c.timers ++ _ = c.timers
  rcases (regular.timekeeping keeps).alarms with ⟨hnone, _⟩ | ⟨hmeasurable, _⟩
  · rw [hnone, List.map_nil, List.append_nil]
  · rw [immeasurable] at hmeasurable
    cases hmeasurable

theorem prompt (immeasurable : Execution.isMeasurable o.delay = false)
    (reached : o.Reaches uri signs c) :
    c.reviewer.desk.waits uri = none ∧ c.timers = [] ∧ c.dispatches uri = Review.prompt signs := by
  induction reached with
  | start => exact ⟨rfl, rfl, rfl⟩
  | @move signs c m before admits ih =>
      obtain ⟨hwaits, htimers, hdispatches⟩ := ih
      have hregular := before.regular
      cases m with
      | happens e =>
          have hagrees := Reviewer.step_agrees hregular.orderly.calm e
          have hsame := (timers_react hregular immeasurable admits.1).trans htimers
          cases hsign : c.sign uri (.happens e) with
          | some s =>
              have hstirs := (Reviewer.deskAfter_stirs_sign hregular.orderly.sound hregular.onChange
                hsign).agrees hagrees
              have hunarmed : c.reviewer.waitsAfter s = none := by
                cases s with
                | edited document =>
                    rw [Reviewer.waitsAfter, Reviewer.armed, hregular.debounce, Option.filter_some,
                      immeasurable]
                    rfl
                | _ => rfl
              refine ⟨hstirs.waits.trans hunarmed, hsame, ?_⟩
              rw [Clocked.move, hregular.dispatches_react e hstirs, hdispatches, Review.prompt,
                Review.prompt, List.flatMap_append]
              exact congrArg (_ ++ ·) (List.append_nil _).symm
          | none =>
              have hapart : ¬ c.reviewer.Runs uri (c.reviewer.deed e) := by
                rintro ⟨debounce, hdebounce, _⟩
                rw [hwaits] at hdebounce
                cases hdebounce
              have hstirs := (Reviewer.deskAfter_stirs_none hregular.orderly.sound hregular.flagged
                hsign hapart).agrees hagrees
              refine ⟨hstirs.waits.trans hwaits, hsame, ?_⟩
              rw [Clocked.move, hregular.dispatches_react e hstirs, hdispatches]
              simp only [Option.toList_none, List.map_nil, List.append_nil]
      | rings timer =>
          obtain ⟨time, halarm, _⟩ := admits
          rw [htimers] at halarm
          cases halarm
      | passes time =>
          refine ⟨hwaits, htimers, ?_⟩
          rw [show c.sign uri (.passes time) = none from rfl, Option.toList_none, List.map_nil,
            List.append_nil]
          exact hdispatches

/-- Plugins are asked about the document of a run, and not before the run is dispatched. -/
theorem asked (reached : o.Reaches uri signs c) {m : Clocked.Move} (admits : c.Admits o.delay m)
    {q : Registry.Inquiry} (asked : q ∈ c.asked m) {k : Nat} (key : q.key = .run k) :
    ∃ run time options, (c.move m).reviewer.runs[k]? = some run ∧ (c.move m).times[k]? = some time ∧
      time ≤ c.now ∧ q.question = .check run.document options := by
  have hregular := reached.regular
  have hafter := hregular.move admits
  have hstep : ∀ e, Reviewer.Hosted e = true → q ∈ (c.reviewer.step e).asked →
      ∃ run options, (c.reviewer.step e).runs[k]? = some run ∧
        q.question = .check run.document options := by
    intro e hosted hasked
    obtain ⟨document, options, hquestion, hsuits⟩ := (Reviewer.step_inspected hregular.orderly.calm
      hregular.outbox hosted hregular.inspects).2 q hasked k key
    obtain ⟨run, hrun, rfl⟩ := Option.map_eq_some_iff.1 hsuits.document
    exact ⟨run, options, hrun, hquestion⟩
  have hmove : (c.move m).now = c.now ∧ ∃ run options, (c.move m).reviewer.runs[k]? = some run ∧
      q.question = .check run.document options := by
    cases m with
    | happens e => exact ⟨rfl, hstep e admits.1.hosted asked⟩
    | rings timer => exact ⟨rfl, hstep (.elapsed timer) rfl asked⟩
    | passes time => cases asked
  obtain ⟨hnow, run, options, hrun, hquestion⟩ := hmove
  have hlt : k < (c.move m).times.length := by
    rw [hafter.times]
    exact (List.getElem?_eq_some_iff.1 hrun).1
  refine ⟨run, _, options, hrun, List.getElem?_eq_getElem hlt, ?_, hquestion⟩
  rw [← hnow]
  exact hafter.past _ (List.getElem_mem hlt)

/-- Of all that happens to an address every check is dispatched at once, and every edit after the quiet
time in which nothing else happens, in their order, exactly when the clock can measure that time or no
edit has been quiet for so long. Whatever is asked for a run is about its own document, which for a run
after an edit is the one that was edited last, and is asked when the run has been dispatched. -/
theorem dispatches_due_iff (reached : o.Reaches uri signs c) :
    ((∀ alarm ∈ c.timers, c.now < alarm.2) → Clear o.delay signs →
      (c.dispatches uri = due o.delay c.now signs ↔
        Execution.isMeasurable o.delay = true ∨ ¬ Ripe o.delay c.now signs)) ∧
    ∀ m, c.Admits o.delay m → ∀ q ∈ c.asked m, ∀ k, q.key = .run k →
      ∃ run time options, (c.move m).reviewer.runs[k]? = some run ∧
        (c.move m).times[k]? = some time ∧ time ≤ c.now ∧
        q.question = .check run.document options := by
  refine ⟨fun rested clear => ?_, fun m admits q asked k key => reached.asked admits asked key⟩
  cases hmeasurable : Execution.isMeasurable o.delay with
  | true =>
      have hdue : c.dispatches uri = due o.delay c.now signs :=
        (reached.tracks hmeasurable clear).due_now
          fun _ _ _ _ ⟨_, halarm⟩ => rested _ halarm
      exact ⟨fun _ => .inl rfl, fun _ => hdue⟩
  | false =>
      obtain ⟨_, _, hdispatches⟩ := reached.prompt hmeasurable
      rw [hdispatches, prompt_eq_due_iff]
      exact ⟨.inr, fun h => h.resolve_left nofun⟩

end Shellwright.Review.Opening.Reaches

namespace Shellwright.Review

open Clocked

/-- A script `d` that is to be quiet for `delay` milliseconds. -/
def scriptQuiet (delay : Nat) : Opening where
  buffers := [("d", { uri := "file:///a.sh", fileName := "a.sh" })]
  delay := delay

/-- The script has been edited at the beginning. -/
def edited (delay : Nat) : Clocked :=
  (scriptQuiet delay).start.move (.happens (.change "d"))

theorem now_edited (delay : Nat) : (edited delay).now = 0 := by
  rw [edited, move, now_react]
  rfl

theorem edited_reached (delay : Nat) :
    (scriptQuiet delay).Reaches "file:///a.sh" [(0, .edited "d")] (edited delay) := by
  have hsign : (scriptQuiet delay).start.sign "file:///a.sh" (.happens (.change "d")) =
      some (.edited "d") := by
    change (if FileKind.isShell "a.sh" shellLanguage shellExtensions = true ∧
      "file:///a.sh" = "file:///a.sh" then some (Sign.edited "d") else none) = _
    rw [if_pos]
    exact ⟨by decide, rfl⟩
  have hstart : (scriptQuiet delay).Reaches "file:///a.sh" [] (scriptQuiet delay).start := .start
  have hreached := hstart.move (m := .happens (.change "d")) ⟨rfl, nofun⟩
  rw [hsign] at hreached
  exact hreached

/-- After the quiet time the script is checked. -/
theorem edited_dispatches :
    (((edited 300).move (.passes 300)).move (.rings 0)).dispatches "file:///a.sh" = [(300, "d")] := by
  have htimers : (edited 300).timers = [(0, 300)] := by decide +kernel
  have hpassed : (scriptQuiet 300).Reaches "file:///a.sh" [(0, .edited "d")]
      ((edited 300).move (.passes 300)) := by
    refine (edited_reached 300).move (m := .passes 300) ⟨by decide, ?_⟩
    rw [htimers]
    decide
  have hreached : (scriptQuiet 300).Reaches "file:///a.sh" [(0, .edited "d")]
      (((edited 300).move (.passes 300)).move (.rings 0)) := by
    refine hpassed.move (m := .rings 0) ⟨300, ?_, Nat.le_refl _⟩
    rw [timers_passes, htimers]
    exact List.mem_singleton_self _
  have hnone : (((edited 300).move (.passes 300)).move (.rings 0)).timers = [] := by decide +kernel
  refine (((Opening.Reaches.dispatches_due_iff hreached).1 ?_ (List.pairwise_singleton _ _)).2
    (.inl (by decide +kernel))).trans ?_
  · rw [hnone]
    exact nofun
  · decide +kernel

theorem exists_immeasurable : ∃ delay : Nat, Execution.isMeasurable delay = false := by
  refine ⟨Execution.measureBound, ?_⟩
  unfold Execution.isMeasurable
  rw [Int.natAbs_natCast]
  exact decide_eq_false (Nat.lt_irrefl _)

/-- For a time that the clock cannot measure the script is never checked. -/
theorem exists_edit_unchecked :
    ¬ ∀ (o : Opening) (uri : String) (signs : List (Nat × Sign)) (c : Clocked),
      o.Reaches uri signs c → (∀ alarm ∈ c.timers, c.now < alarm.2) → Clear o.delay signs →
      c.dispatches uri = due o.delay c.now signs := by
  intro h
  obtain ⟨delay, himmeasurable⟩ : ∃ delay, Execution.isMeasurable (scriptQuiet delay).delay = false :=
    exists_immeasurable
  have hedited := edited_reached delay
  obtain ⟨_, htimers, _⟩ := hedited.prompt himmeasurable
  have hreached : (scriptQuiet delay).Reaches "file:///a.sh" [(0, .edited "d")]
      ((edited delay).move (.passes delay)) := by
    refine hedited.move (m := .passes delay) ⟨?_, ?_⟩
    · rw [now_edited]
      exact Nat.zero_le delay
    · rw [htimers]
      exact nofun
  obtain ⟨_, hquiet, hprompt⟩ := hreached.prompt himmeasurable
  have hdue := h _ _ _ _ hreached (by rw [hquiet]; exact nofun) (List.pairwise_singleton _ _)
  rw [hprompt, prompt_eq_due_iff] at hdue
  refine hdue ⟨[], 0, "d", [], rfl, nofun, ?_⟩
  exact Nat.le_of_eq (Nat.zero_add delay)

end Shellwright.Review
