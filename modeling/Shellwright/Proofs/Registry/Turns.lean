import Shellwright.Proofs.Registry.Isolation
/-!
# A check on its own

The check of a document goes its way by its own events only. How far it has got and how it ends is told
by the plugins that were active when it began, the answers, and the document.
-/

namespace Shellwright.Registry

/-- The check of a document as it stands: with the plugins that are asked, and what they have answered. -/
structure Check where
  document : String
  options : CallOptions
  parts : List (Plugin × Progress Verdict)
  aborting : Bool := false

/-- What happens to a check. -/
inductive Turn
  | begin (part : Nat)
  | answered (part : Nat) (answer : Answer)
  | stopped
  | gathered
  | abort
  /-- The lock has come to the call; a check waits for none. -/
  | granted

def Event.turn? (key : CallKey) : Event → Option Turn
  | .begin k i => if k = key then some (.begin i) else none
  | .answered k i answer => if k = key then some (.answered i answer) else none
  | .stopped k _ => if k = key then some .stopped else none
  | .gathered k => if k = key then some .gathered else none
  | .abort k => if k = key then some .abort else none
  | .granted k => if k = key then some .granted else none
  | _ => none

/-- A check goes on, or ends with an outcome. -/
inductive Turned
  | on (check : Check)
  | ends (outcome : Outcome Reply)

/-- The verdict that an answer about a document gives. -/
def verdictOf (p : Plugin) (d : TextDocument) : Answer → Verdict
  | .checked v => v
  | .formatted v => v.toVerdict
  | .available _ => {}
  | .raised text => p.failure "check" text d

namespace Check

def stage (c : Check) : Stage :=
  .checking c.document c.options c.parts

def call (c : Check) : Call :=
  ⟨c.stage, c.aborting⟩

def reply (c : Check) : Outcome Reply :=
  .done (.checked (Verdict.merge (c.parts.filterMap (·.2.result?))))

/-- The check of a document begins, with these plugins active. -/
def start (active : List Plugin) (d : TextDocument) (document : String) (options : CallOptions) :
    Turned :=
  match supporting d active with
  | .error text => .ends (.raised (.support text))
  | .ok [] => .ends (.done (.checked {}))
  | .ok plugins => .on ⟨document, options, plugins.map (·, .waiting), false⟩

/-- The check goes on. -/
def turn (d : TextDocument) (c : Check) : Turn → Turned
  | .begin i => if c.aborting then .ends .aborted else .on { c with parts := setPart c.parts i .asked }
  | .answered i answer =>
    match c.parts[i]? with
    | some (p, _) => .on { c with parts := setPart c.parts i (.settled (verdictOf p d answer)) }
    | none => .on c
  | .stopped => if c.aborting then .ends .aborted else .on c
  | .gathered => .ends (if c.aborting then .aborted else c.reply)
  | .abort => .on { c with aborting := true }
  | .granted => .on c

end Check

/-- The call `key` has become this check, or has ended so; only its own plugins are asked, about its own
document. -/
structure Becomes (key : CallKey) (question : Question) (turned : Turned) (r' : Registry) : Prop where
  call : r'.calls.get? key = match turned with
    | .on c => some c.call
    | .ends _ => none
  finishes : r'.finishes = match turned with
    | .on _ => []
    | .ends outcome => [(key, outcome)]
  asks : ∀ q ∈ r'.asks, q.key = key → q.question = question

variable {r r' core : Registry} {key : CallKey} {question : Question}

/-! ## Steps of a check -/

theorem Leaves.becomes_on {ls : List Event} {c : Check}
    (h : r'.Leaves (core.setCall key c.call) ls [] []) : Becomes key question (.on c) r' where
  call := by
    rw [h.calls]
    exact Keyed.get?_put_self core.calls key c.call
  finishes := h.finishes
  asks q hq := by
    rw [h.asks] at hq
    cases hq

theorem Leaves.becomes_ends {ls : List Event} {outcome : Outcome Reply}
    (h : r'.Leaves (core.without key) ls [] [(key, outcome)]) :
    Becomes key question (.ends outcome) r' where
  call := by
    rw [h.calls]
    exact (Keyed.get?_drop core.calls key key).trans (if_pos rfl)
  finishes := h.finishes
  asks q hq := by
    rw [h.asks] at hq
    cases hq

/-- The call stays as it is. -/
theorem Leaves.becomes_same {c : Check} (h : r'.Leaves r [] [] [])
    (call : r.calls.get? key = some c.call) : Becomes key question (.on c) r' where
  call := by
    rw [h.calls]
    exact call
  finishes := h.finishes
  asks q hq := by
    rw [h.asks] at hq
    cases hq

theorem startCheck_becomes (h : r.outbox = []) (buffers : Buffers) (document : String)
    (options : CallOptions) :
    Becomes key (.check document options)
      (Check.start r.activePlugins (buffers.find document) document options)
      (r.startCheck buffers key document options) := by
  have hstart := Leaves.start h
  unfold startCheck snapshot Check.start activePlugins
  cases supporting (buffers.find document) (r.plugins.values.filter fun p => r.isActive p.name) with
  | error text => exact (hstart.finish key _).becomes_ends
  | ok plugins =>
      cases plugins with
      | nil => exact (hstart.finish key _).becomes_ends
      | cons p rest =>
          let c : Check := ⟨document, options, (p :: rest).map (·, .waiting), false⟩
          exact ((hstart.setCall key c.call).begins key (List.range (p :: rest).length)).becomes_on

theorem setPart_none {parts : List (Plugin × Progress Verdict)} {i : Nat} (h : parts[i]? = none)
    (progress : Progress Verdict) : setPart parts i progress = parts := by
  unfold setPart
  exact List.modify_eq_self (List.getElem?_eq_none_iff.1 h)

theorem begin_becomes (h : r.outbox = []) (buffers : Buffers) {c : Check}
    (call : r.calls.get? key = some c.call) (i : Nat) :
    Becomes key (.check c.document c.options) (c.turn (buffers.find c.document) (.begin i))
      (r.begin key i c.call) := by
  have hstart := Leaves.start h
  obtain ⟨document, options, parts, aborting⟩ := c
  unfold Registry.begin Check.turn
  cases aborting with
  | true => exact (hstart.finish key .aborted).becomes_ends
  | false =>
      simp only [Check.call, Check.stage, Bool.false_eq_true, if_false]
      cases hpart : parts[i]? with
      | none =>
          simp only [setPart_none hpart]
          exact hstart.becomes_same call
      | some entry =>
          obtain ⟨p, progress⟩ := entry
          let c' : Check := ⟨document, options, setPart parts i .asked, false⟩
          have hasked := (hstart.setCall key c'.call).ask key i p (.check document options)
          refine ⟨?_, hasked.finishes, fun q hq _ => ?_⟩
          · exact (congrArg (·.get? key) hasked.calls).trans
              (Keyed.get?_put_self r.calls key c'.call)
          · have hmem : q ∈ ((r.setCall key c'.call).emit
                (.ask key i p (.check document options))).asks := hq
            rw [hasked.asks] at hmem
            obtain rfl := List.mem_singleton.1 hmem
            rfl

theorem answered_becomes (h : r.outbox = []) (buffers : Buffers) {c : Check}
    (call : r.calls.get? key = some c.call) (i : Nat) (answer : Answer) :
    Becomes key (.check c.document c.options) (c.turn (buffers.find c.document) (.answered i answer))
      (r.answered buffers key i c.call answer) := by
  have hstart := Leaves.start h
  obtain ⟨document, options, parts, aborting⟩ := c
  unfold Registry.answered Check.turn
  simp only [Check.call, Check.stage]
  cases hpart : parts[i]? with
  | none => exact hstart.becomes_same call
  | some entry =>
      obtain ⟨p, progress⟩ := entry
      have hverdict : (r.checkVerdict buffers p document answer).2 =
          verdictOf p (buffers.find document) answer := by
        cases answer <;> rfl
      let c' : Check := ⟨document, options,
        setPart parts i (.settled (verdictOf p (buffers.find document) answer)), aborting⟩
      have hset := (checkVerdict_leaves hstart buffers p document answer).setCall key c'.call
      simp only [hverdict]
      split
      · exact (hset.later (.gathered key)).becomes_on
      · exact hset.becomes_on

/-- What a step makes of a check. -/
theorem step_becomes (h : r.outbox = []) (buffers : Buffers) {c : Check}
    (call : r.calls.get? key = some c.call) {e : Event} {t : Turn} (turn : e.turn? key = some t) :
    Becomes key (.check c.document c.options) (c.turn (buffers.find c.document) t)
      (r.step buffers e) := by
  have hstart := Leaves.start h
  cases e with
  | begin k i =>
      obtain ⟨rfl, rfl⟩ : k = key ∧ Turn.begin i = t := by simpa [Event.turn?] using turn
      have hstep : r.step buffers (.begin k i) = r.begin k i c.call := by
        simp only [step, withCall, call]
      rw [hstep]
      exact begin_becomes h buffers call i
  | answered k i answer =>
      obtain ⟨rfl, rfl⟩ : k = key ∧ Turn.answered i answer = t := by simpa [Event.turn?] using turn
      have hstep : r.step buffers (.answered k i answer) = r.answered buffers k i c.call answer := by
        simp only [step, withCall, call]
      rw [hstep]
      exact answered_becomes h buffers call i answer
  | stopped k i =>
      obtain ⟨rfl, rfl⟩ : k = key ∧ Turn.stopped = t := by simpa [Event.turn?] using turn
      have hstep : r.step buffers (.stopped k i) =
          if c.aborting then r.finish k .aborted else r := by
        simp only [step, withCall, call]
        rfl
      rw [hstep, Check.turn]
      cases c.aborting with
      | true => exact (hstart.finish k .aborted).becomes_ends
      | false => exact hstart.becomes_same call
  | gathered k =>
      obtain ⟨rfl, rfl⟩ : k = key ∧ Turn.gathered = t := by simpa [Event.turn?] using turn
      have hstep : r.step buffers (.gathered k) =
          if c.aborting then r.finish k .aborted else r.completeCheck k c.parts := by
        simp only [step, withCall, call]
        rfl
      rw [hstep, Check.turn]
      cases c.aborting with
      | true => exact (hstart.finish k .aborted).becomes_ends
      | false => exact (hstart.finish k c.reply).becomes_ends
  | abort k =>
      obtain ⟨rfl, rfl⟩ : k = key ∧ Turn.abort = t := by simpa [Event.turn?] using turn
      have hstep : r.step buffers (.abort k) = (outstanding c.stage).foldl
          (fun r i => r.emit (.quit k i)) (r.setCall k { c with aborting := true }.call) := by
        simp only [step, withCall, call]
        rfl
      rw [hstep]
      exact ((hstart.setCall k { c with aborting := true }.call).quits k _).becomes_on
  | granted k =>
      obtain ⟨rfl, rfl⟩ : k = key ∧ Turn.granted = t := by simpa [Event.turn?] using turn
      have hstep : r.step buffers (.granted k) = r := by
        simp only [step, withCall, call]
        rfl
      rw [hstep]
      exact hstart.becomes_same call
  | _ => cases turn

/-- An event of a call is a turn of it, or begins it. -/
theorem exists_turn {e : Event} (about : e.key? = some key) (old : ∀ request, e ≠ .call key request) :
    ∃ t, e.turn? key = some t := by
  cases e with
  | call k request =>
      cases about
      exact absurd rfl (old request)
  | begin k i =>
      cases about
      exact ⟨_, if_pos rfl⟩
  | answered k i answer =>
      cases about
      exact ⟨_, if_pos rfl⟩
  | stopped k i =>
      cases about
      exact ⟨_, if_pos rfl⟩
  | gathered k =>
      cases about
      exact ⟨_, if_pos rfl⟩
  | abort k =>
      cases about
      exact ⟨_, if_pos rfl⟩
  | granted k =>
      cases about
      exact ⟨_, if_pos rfl⟩
  | _ => cases about

end Shellwright.Registry
