import Mathlib.Data.List.Nodup
import Shellwright.Proofs.Registry.Turns
import Shellwright.Proofs.Review.Waiting
/-!
# The scene of an address

What there is of one address in a review, with nothing in it that other addresses have a part in: its
runs are numbered by themselves, and its session has no number. What happens to the address changes its
scene, and the scene is all that it takes to tell how.
-/

namespace Shellwright.Registry

/-- A check without what it was called with. -/
def Check.bare (c : Check) : Check :=
  { c with options := {} }

def Call.check? : Call → Option Check
  | ⟨.checking document _ parts, aborting⟩ => some ⟨document, {}, parts, aborting⟩
  | _ => none

def Turned.bare : Turned → Turned
  | .on c => .on c.bare
  | .ends outcome => .ends outcome

/-- What a check was called with plays no part in how it goes on. -/
theorem Check.turn_bare (c : Check) (d : TextDocument) (t : Turn) :
    c.bare.turn d t = (c.turn d t).bare := by
  obtain ⟨document, options, parts, aborting⟩ := c
  cases t with
  | begin i => cases aborting <;> rfl
  | answered i answer =>
      simp only [turn, bare]
      cases parts[i]? <;> rfl
  | stopped => cases aborting <;> rfl
  | gathered => rfl
  | abort => rfl
  | granted => rfl

theorem Check.start_bare (active : List Plugin) (d : TextDocument) (document : String)
    (options : CallOptions) :
    Check.start active d document {} = (Check.start active d document options).bare := by
  unfold Check.start
  split <;> rfl

end Shellwright.Registry

namespace Shellwright.Review

open Registry (Check Turn Turned)

/-- A run of an address. -/
structure RunView where
  /-- It is a run of the session that is open. -/
  own : Bool
  sequence : Nat
  document : String
  dropped : Bool := false
  check : Option Check := none

/-- The open session of an address, with the document that it waits to have checked. -/
structure OpenView where
  pending : Option String := none
  dispatched : Nat := 0
  published : Int := 0

structure Scene where
  session : Option OpenView
  runs : List RunView
  shown : Option (List Diagnostic)
  history : List (List Diagnostic)

/-- What happens to an address; `run` counts its own runs. -/
inductive Act
  | check (document : String)
  | edit (document : String) (armed : Bool)
  | elapse
  | close
  | shut
  /-- A run begins, with these plugins active. -/
  | begin (run : Nat) (active : List Plugin) (d : TextDocument)
  | turn (run : Nat) (d : TextDocument) (turn : Turn)
  /-- Runs are called off. -/
  | stop (runs : List Nat)

namespace Scene

def opened (s : Scene) : Scene :=
  { s with session := some (s.session.getD {}) }

def wait (s : Scene) (pending : Option String) : Scene :=
  { s with session := s.session.map fun session => { session with pending := pending } }

def dispatch (s : Scene) (document : String) : Scene :=
  match s.session with
  | some session =>
    { s with
      session := some { session with pending := none, dispatched := session.dispatched + 1 }
      runs := s.runs ++ [{ own := true, sequence := session.dispatched + 1, document := document }] }
  | none => s

/-- The session is closed, and its runs are no longer those of an open one. -/
def ended (s : Scene) : Scene :=
  { s with session := none, runs := s.runs.map fun run => { run with own := false } }

def modify (s : Scene) (i : Nat) (f : RunView → RunView) : Scene :=
  { s with runs := s.runs.modify i f }

/-- The check of a run has ended, and its verdict is published if the run is the newest. -/
def judge (s : Scene) (i : Nat) : Outcome Registry.Reply → Scene
  | .done (.checked verdict) =>
    match s.runs[i]?, s.session with
    | some run, some session =>
      if !verdict.inconclusive && (run.own && (run.sequence : Int) == session.dispatched &&
          session.published < run.sequence) then
        { s with
          session := some { session with published := run.sequence }
          shown := some verdict.diagnostics
          history := s.history ++ [verdict.diagnostics] }
      else s
    | _, _ => s
  | _ => s

def settle (s : Scene) (i : Nat) : Turned → Scene
  | .on c => s.modify i fun run => { run with check := some c }
  | .ends outcome => (s.modify i fun run => { run with check := none }).judge i outcome

/-- A run is called off: its check is to stop, or it is not to begin. -/
def stop (s : Scene) (i : Nat) : Scene :=
  match s.runs[i]?.map RunView.check with
  | some (some c) => s.settle i (.on { c with aborting := true })
  | some none => s.modify i fun run => { run with dropped := true }
  | none => s

def act (s : Scene) : Act → Scene
  | .check document => s.opened.dispatch document
  | .edit document armed => s.opened.wait (if armed then some document else none)
  | .elapse =>
    match s.session.bind (·.pending) with
    | some document => s.dispatch document
    | none => s
  | .close => { s.ended with shown := none }
  | .shut => s.ended
  | .begin i active d =>
    match s.runs[i]? with
    | some run => if run.dropped then s else s.settle i (Check.start active d run.document {})
    | none => s
  | .turn i d t =>
    match s.runs[i]?.bind (·.check) with
    | some c => s.settle i (c.turn d t)
    | none => s
  | .stop runs => runs.foldl stop s

end Scene

/-- The scene after what may have happened to the address. -/
def Scene.after (s : Scene) : Option Act → Scene
  | some a => s.act a
  | none => s

/-! ## The scene at a desk -/

namespace Desk

/-- The runs of an address, each with its number. -/
def runsOf (d : Desk) (uri : String) : List ((Nat × Nat × String) × Nat) :=
  (d.runs.map Run.ticket).zipIdx.filter fun entry =>
    (d.sessions.at? entry.1.1).any (·.uri == uri)

/-- The place of run `k` among those of its address. -/
def place (d : Desk) (uri : String) (k : Nat) : Nat :=
  (d.runsOf uri).findIdx (·.2 == k)

def runView (d : Desk) (uri : String) (check : Nat → Option Check)
    (entry : (Nat × Nat × String) × Nat) : RunView where
  own := d.sessions.get? uri == some entry.1.1
  sequence := entry.1.2.1
  document := entry.1.2.2
  dropped := d.dropped entry.2
  check := check entry.2

def openView (d : Desk) (uri : String) : Option OpenView :=
  ((d.sessions.get? uri).bind d.sessions.at?).map fun s =>
    ⟨s.debounce.map (·.document), s.dispatched, s.published⟩

/-- The scene of an address, where the check of run `k` has come as far as `check k`. -/
def scene (d : Desk) (uri : String) (check : Nat → Option Check) : Scene where
  session := d.openView uri
  runs := (d.runsOf uri).map (d.runView uri check)
  shown := d.sink.published.get? uri
  history := (d.sink.history.filter (·.1 = uri)).map Prod.snd

end Desk

variable {d d' : Desk} {uri : String} {check check' : Nat → Option Check}

/-! ## Runs of an address -/

theorem Desk.Agrees.runsOf (h : d.Agrees d') (uri : String) : d'.runsOf uri = d.runsOf uri := by
  unfold Desk.runsOf
  rw [h.runs, h.sessions]

theorem Desk.Keeps.scene (h : d.Keeps d') (uri : String) (check : Nat → Option Check) :
    d'.scene uri check = d.scene uri check := by
  unfold Desk.scene Desk.runView Desk.openView
  rw [h.toAgrees.runsOf, h.sessions, h.dropped, h.sink]

theorem Desk.runsOf_spec {entry : (Nat × Nat × String) × Nat} (h : entry ∈ d.runsOf uri) :
    ∃ run s, d.runs[entry.2]? = some run ∧ entry.1 = run.ticket ∧
      d.sessions.at? run.session = some s ∧ s.uri = uri := by
  obtain ⟨hmem, huri⟩ := List.mem_filter.1 h
  obtain ⟨s, hs, hsame⟩ := (Option.any_eq_true _ _).1 huri
  have hget := List.mem_zipIdx_iff_getElem?.1 hmem
  rw [List.getElem?_map] at hget
  obtain ⟨run, hrun, hticket⟩ := Option.map_eq_some_iff.1 hget
  rw [← hticket] at hs
  exact ⟨run, s, hrun, hticket.symm, hs, by simpa using hsame⟩

theorem Desk.mem_runsOf {k : Nat} {run : Run} {s : Session} (hrun : d.runs[k]? = some run)
    (hs : d.sessions.at? run.session = some s) (huri : s.uri = uri) :
    (run.ticket, k) ∈ d.runsOf uri := by
  refine List.mem_filter.2 ⟨List.mem_zipIdx_iff_getElem?.2 ?_, ?_⟩
  · rw [List.getElem?_map, hrun]
    rfl
  · change (d.sessions.at? run.session).any _ = true
    rw [hs, Option.any_some, huri, beq_self_eq_true]

theorem Desk.nodup_runsOf (d : Desk) (uri : String) : ((d.runsOf uri).map Prod.snd).Nodup := by
  have hall : ((d.runs.map Run.ticket).zipIdx.map Prod.snd).Nodup := by
    rw [List.zipIdx_map_snd]
    exact List.nodup_range'
  exact hall.sublist (List.filter_sublist.map _)

/-- Runs are dispatched, and the others stay runs of the same addresses. -/
theorem Desk.runsOf_later (sound : Sound d) (later : Later d d') (tickets : List (Nat × Nat × String))
    (runs : d'.runs.map Run.ticket = d.runs.map Run.ticket ++ tickets) (uri : String) :
    d'.runsOf uri = d.runsOf uri ++ (tickets.zipIdx d.runs.length).filter fun entry =>
      (d'.sessions.at? entry.1.1).any (·.uri == uri) := by
  unfold Desk.runsOf
  rw [runs, List.zipIdx_append, List.filter_append, List.length_map, Nat.zero_add]
  congr 1
  refine List.filter_congr fun entry hentry => ?_
  have hget := List.mem_zipIdx_iff_getElem?.1 hentry
  rw [List.getElem?_map] at hget
  obtain ⟨run, hrun, hticket⟩ := Option.map_eq_some_iff.1 hget
  obtain ⟨s, hs, _⟩ := sound.runs _ run hrun
  obtain ⟨s', hs', hgrows⟩ := later.sessions run.session s hs
  rw [← hticket]
  change (d'.sessions.at? run.session).any _ = (d.sessions.at? run.session).any _
  rw [hs, hs', Option.any_some, Option.any_some, hgrows.uri]

theorem Desk.runsOf_grow (sound : Sound d) (d' : Desk) (grow : d.sessions.Grow d'.sessions)
    (tickets : d'.runs.map Run.ticket = d.runs.map Run.ticket) (uri : String) :
    d'.runsOf uri = d.runsOf uri := by
  have hsame := Desk.runsOf_later sound (.of_tickets grow tickets) []
    (tickets.trans (List.append_nil _).symm) uri
  rw [hsame]
  exact List.append_nil _

/-- The run in its place among those of its address. -/
theorem Desk.runs_place {k : Nat} {run : Run} {s : Session} (hrun : d.runs[k]? = some run)
    (hs : d.sessions.at? run.session = some s) (huri : s.uri = uri) :
    (d.scene uri check).runs[d.place uri k]? = some (d.runView uri check (run.ticket, k)) := by
  have hmem := Desk.mem_runsOf hrun hs huri
  have hlt : d.place uri k < (d.runsOf uri).length :=
    List.findIdx_lt_length_of_exists ⟨_, hmem, beq_self_eq_true k⟩
  have hfound : (d.runsOf uri)[d.place uri k].2 = k := beq_iff_eq.1 (List.findIdx_getElem (w := hlt))
  have hsame : (d.runsOf uri)[d.place uri k] = (run.ticket, k) :=
    List.inj_on_of_nodup_map (d.nodup_runsOf uri) (List.getElem_mem hlt) hmem hfound
  change ((d.runsOf uri).map _)[_]? = _
  rw [List.getElem?_map, List.getElem?_eq_getElem hlt, hsame]
  rfl

theorem map_modify_findIdx {α β : Type} {l : List α} (key : α → Nat) (nodup : (l.map key).Nodup)
    {k : Nat} {g g' : α → β} {f : β → β} (hit : ∀ x ∈ l, key x = k → g' x = f (g x))
    (miss : ∀ x ∈ l, key x ≠ k → g' x = g x) :
    l.map g' = (l.map g).modify (l.findIdx (key · == k)) f := by
  induction l with
  | nil => rfl
  | cons x rest ih =>
      rw [List.map_cons, List.nodup_cons] at nodup
      rw [List.findIdx_cons, List.map_cons, List.map_cons]
      by_cases hk : key x = k
      · have hrest : rest.map g' = rest.map g := by
          refine List.map_congr_left fun y hy => miss y (List.mem_cons_of_mem x hy) fun heq => ?_
          exact nodup.1 (List.mem_map.2 ⟨y, hy, heq.trans hk.symm⟩)
        rw [hit x List.mem_cons_self hk, hrest, beq_iff_eq.2 hk]
        rfl
      · rw [miss x List.mem_cons_self hk, beq_eq_false_iff_ne.2 hk,
          ih nodup.2 (fun y hy => hit y (List.mem_cons_of_mem x hy))
            (fun y hy => miss y (List.mem_cons_of_mem x hy))]
        rfl

/-- Only the check of run `k` has gone on. -/
theorem Desk.scene_modify (d : Desk) (uri : String) {k : Nat}
    (others : ∀ j, j ≠ k → check' j = check j) :
    d.scene uri check' = (d.scene uri check).modify (d.place uri k)
      fun run => { run with check := check' k } := by
  unfold Desk.scene Scene.modify
  congr 1
  refine map_modify_findIdx Prod.snd (d.nodup_runsOf uri) (fun entry _ hk => ?_)
    fun entry _ hk => ?_
  · unfold Desk.runView
    rw [hk]
  · unfold Desk.runView
    rw [others _ hk]

/-! ## What changes the scene -/

theorem Desk.Spares.runsOf (h : d.Spares uri d') :
    d'.runsOf uri = d.runsOf uri := by
  obtain ⟨runs, htickets, hothers⟩ := h.runs
  have hold : ∀ entry ∈ (d.runs.map Run.ticket).zipIdx,
      (d'.sessions.at? entry.1.1).any (·.uri == uri) =
        (d.sessions.at? entry.1.1).any (·.uri == uri) := by
    intro entry hentry
    rw [Bool.eq_iff_iff, Option.any_eq_true, Option.any_eq_true]
    constructor
    · rintro ⟨s, hs, huri⟩
      exact ⟨s, (h.sessions _ s (by simpa using huri)).1 hs, huri⟩
    · rintro ⟨s, hs, huri⟩
      exact ⟨s, (h.sessions _ s (by simpa using huri)).2 hs, huri⟩
  have hnew : ((runs.map Run.ticket).zipIdx (0 + (d.runs.map Run.ticket).length)).filter
      (fun entry => (d'.sessions.at? entry.1.1).any (·.uri == uri)) = [] := by
    refine List.filter_eq_nil_iff.2 fun entry hentry hof => ?_
    obtain ⟨s, hs, huri⟩ := (Option.any_eq_true _ _).1 hof
    obtain ⟨run, hrun, hticket⟩ := List.mem_map.1 (List.fst_mem_of_mem_zipIdx hentry)
    rw [← hticket] at hs
    exact hothers run hrun s hs (by simpa using huri)
  unfold Desk.runsOf
  rw [htickets, List.zipIdx_append, List.filter_append, hnew, List.append_nil]
  exact List.filter_congr hold

theorem Desk.Spares.scene (h : d.Spares uri d') (sound : Sound d)
    (dropped : ∀ entry ∈ d.runsOf uri, d'.dropped entry.2 = d.dropped entry.2)
    (checks : ∀ entry ∈ d.runsOf uri, check' entry.2 = check entry.2) :
    d'.scene uri check' = d.scene uri check := by
  have hopen : d'.openView uri = d.openView uri := by
    unfold Desk.openView
    rw [h.registered]
    cases hget : d.sessions.get? uri with
    | none => rfl
    | some n =>
        obtain ⟨s, hs, huri, _⟩ := sound.registered uri n hget
        rw [Option.bind_some, Option.bind_some, hs, (h.sessions n s huri).2 hs]
  have hruns : (d'.runsOf uri).map (d'.runView uri check') =
      (d.runsOf uri).map (d.runView uri check) := by
    rw [h.runsOf]
    refine List.map_congr_left fun entry hentry => ?_
    unfold Desk.runView
    rw [h.registered, dropped entry hentry, checks entry hentry]
  unfold Desk.scene
  rw [hopen, hruns, h.shown, h.history]

theorem Desk.openView_of_get? {n : Nat} {s : Session} (hget : d.sessions.get? uri = some n)
    (hs : d.sessions.at? n = some s) :
    d.openView uri = some ⟨s.debounce.map (·.document), s.dispatched, s.published⟩ := by
  unfold Desk.openView
  rw [hget, Option.bind_some, hs, Option.map_some]

theorem Desk.openView_none (hget : d.sessions.get? uri = none) : d.openView uri = none := by
  unfold Desk.openView
  rw [hget]
  rfl

/-- An address is given a session when it has none. -/
theorem Sound.scene_obtain (sound : Sound d) (uri : String) (check : Nat → Option Check) :
    Desk.scene { d with sessions := (d.sessions.obtain uri).1 } uri check =
      (d.scene uri check).opened := by
  cases hget : d.sessions.get? uri with
  | some n =>
      obtain ⟨s, hs, huri, _⟩ := sound.registered uri n hget
      have hopen : (d.scene uri check).session = some _ := Desk.openView_of_get? hget hs
      rw [Sessions.obtain_of_some hget]
      unfold Scene.opened
      rw [hopen, Option.getD_some, ← hopen]
  | none =>
      have hat := Sessions.at?_obtain_none hget
      have hnew := Sessions.get?_obtain_none hget uri
      rw [if_pos rfl] at hnew
      have hview : (d.scene uri check).session = none := Desk.openView_none hget
      have hopen : Desk.openView { d with sessions := (d.sessions.obtain uri).1 } uri = some {} :=
        Desk.openView_of_get? (s := { uri := uri }) hnew ((hat _).trans (if_pos rfl))
      have hruns := Desk.runsOf_grow sound { d with sessions := (d.sessions.obtain uri).1 }
        (Sessions.obtain_grow d.sessions uri) rfl uri
      unfold Scene.opened
      rw [hview, Option.getD_none]
      unfold Desk.scene
      rw [hopen, hruns]
      congr 1
      -- The runs so far belong to sessions that have been closed.
      refine List.map_congr_left fun entry hentry => ?_
      obtain ⟨run, s, hrun, hticket, hs, _⟩ := Desk.runsOf_spec hentry
      have hlt := Sessions.lt_of_at? hs
      have hsession : entry.1.1 = run.session := congrArg Prod.fst hticket
      have hother : ¬ some d.sessions.all.length = some run.session := by
        intro heq
        have hlength := Option.some.inj heq
        omega
      unfold Desk.runView
      rw [hnew, hget, hsession, beq_eq_false_iff_ne.2 hother]
      rfl

/-- The open session of an address waits for something else. -/
theorem Sound.scene_wait (sound : Sound d) {n : Nat} (hget : d.sessions.get? uri = some n)
    (debounce : Option Debounce) (check : Nat → Option Check) :
    Desk.scene { d with sessions := d.sessions.modify n fun s => { s with debounce := debounce } }
      uri check = (d.scene uri check).wait (debounce.map (·.document)) := by
  obtain ⟨s, hs, _⟩ := sound.registered uri n hget
  have hview : (d.scene uri check).session = some _ := Desk.openView_of_get? hget hs
  have hopen := Desk.openView_of_get? (s := { s with debounce := debounce })
    (d := { d with sessions := d.sessions.modify n fun s => { s with debounce := debounce } })
    hget (by rw [Sessions.at?_modify, if_pos rfl, hs]; rfl)
  have hruns := Desk.runsOf_grow sound
    { d with sessions := d.sessions.modify n fun s => { s with debounce := debounce } }
    (Sessions.debounce_grow d.sessions n debounce) rfl uri
  unfold Scene.wait
  rw [hview]
  unfold Desk.scene
  rw [hopen, hruns]
  rfl

/-- A run is dispatched for the open session of an address. -/
theorem Sound.scene_elapse (sound : Sound d) {n : Nat} {s : Session}
    (hget : d.sessions.get? uri = some n) (hs : d.sessions.at? n = some s)
    (fresh : check d.runs.length = none) (document : String) :
    (d.elapse n document).scene uri check = (d.scene uri check).dispatch document := by
  obtain ⟨s', hs', huri, _⟩ := sound.registered uri n hget
  obtain rfl := Option.some.inj (hs.symm.trans hs')
  have hview : (d.scene uri check).session = some _ := Desk.openView_of_get? hget hs
  obtain ⟨source, hat⟩ := Desk.at?_elapse hs document
  have hget' : (d.elapse n document).sessions.get? uri = some n :=
    (Sessions.get?_supersede _ n uri).trans hget
  have hopen := Desk.openView_of_get? hget' hat
  have hlater := Desk.elapse_later d n document
  have helapse := Desk.elapse_runs hs document
  have hruns := Desk.runsOf_later sound hlater
    [(n, s.dispatched + 1, document)] (by rw [helapse, List.map_append]; rfl) uri
  have hdropped : (d.elapse n document).dropped = d.dropped := by
    have hsame := Desk.dropped_append d
      { session := n, sequence := s.dispatched + 1, document := document } rfl
    rw [← hsame]
    unfold Desk.dropped
    rw [helapse]
  have hnew : ([(n, s.dispatched + 1, document)].zipIdx d.runs.length).filter
      (fun entry => ((d.elapse n document).sessions.at? entry.1.1).any (·.uri == uri)) =
        [((n, s.dispatched + 1, document), d.runs.length)] := by
    refine List.filter_cons_of_pos ?_
    rw [hat, Option.any_some, huri, beq_self_eq_true]
  have hview' : (d.elapse n document).runView uri check
      ((n, s.dispatched + 1, document), d.runs.length) =
        { own := true, sequence := s.dispatched + 1, document := document } := by
    have hundropped : d.dropped d.runs.length = false := by
      unfold Desk.dropped
      rw [List.getElem?_eq_none (Nat.le_refl _)]
      rfl
    unfold Desk.runView
    rw [hget', beq_self_eq_true, hdropped, hundropped, fresh]
  unfold Scene.dispatch
  rw [hview]
  unfold Desk.scene
  rw [hopen, hruns, hnew, List.map_append, List.map_singleton, hview']
  congr 2
  refine List.map_congr_left fun entry _ => ?_
  unfold Desk.runView
  rw [hget', hget, hdropped]

theorem Sound.scene_diagnose (sound : Sound d) (uri : String) (fresh : check d.runs.length = none)
    (document : String) :
    (d.diagnose uri document).scene uri check = (d.scene uri check).opened.dispatch document := by
  obtain ⟨hsound, s, hs, _⟩ := sound.obtain uri
  rw [← sound.scene_obtain uri check]
  exact hsound.scene_elapse (sound.get?_obtain uri) hs fresh document

theorem Sound.scene_arm (sound : Sound d) (uri : String) (debounce : Option Debounce)
    (check : Nat → Option Check) :
    (d.arm uri debounce).scene uri check =
      (d.scene uri check).opened.wait (debounce.map (·.document)) := by
  rw [← sound.scene_obtain uri check]
  exact (sound.obtain uri).1.scene_wait (sound.get?_obtain uri) debounce check

/-- The session of an address is closed. -/
theorem Sound.scene_ended (sound : Sound d) {sessions : Sessions} (hget : sessions.get? uri = none)
    (grow : d.sessions.Grow sessions) (check : Nat → Option Check) :
    Desk.scene { d with sessions := sessions } uri check = (d.scene uri check).ended := by
  have hopen : Desk.openView { d with sessions := sessions } uri = none := Desk.openView_none hget
  have hruns := Desk.runsOf_grow sound { d with sessions := sessions } grow rfl uri
  unfold Scene.ended Desk.scene
  rw [hopen, hruns, List.map_map]
  congr 1
  refine List.map_congr_left fun entry _ => ?_
  unfold Desk.runView
  rw [hget]
  rfl

theorem Sound.scene_close (sound : Sound d) (uri : String) (check : Nat → Option Check) :
    (d.close uri).scene uri check = { (d.scene uri check).ended with shown := none } := by
  have hget : (d.sessions.close uri).get? uri = none :=
    (Sessions.get?_close d.sessions uri uri).trans (if_pos rfl)
  have hgrow : d.sessions.Grow (d.sessions.close uri) :=
    Sessions.grow_of_at? (fun m => Sessions.at?_close d.sessions uri m) fun _ s _ _ => s.closed_grows
  have hshown : (d.sink.clear uri).published.get? uri = none :=
    (Keyed.get?_drop d.sink.published uri uri).trans (if_pos rfl)
  rw [← sound.scene_ended hget hgrow check]
  unfold Desk.close Desk.scene
  rw [hshown]
  rfl

theorem Sound.scene_shut (sound : Sound d) (uri : String) (check : Nat → Option Check) :
    d.shut.scene uri check = (d.scene uri check).ended := by
  refine sound.scene_ended (Sessions.get?_closeAll d.sessions uri) ?_ check
  exact Sessions.grow_of_at? (fun m => Sessions.at?_foldl_closeSession _ m _)
    fun _ s _ _ => s.closed_grows

end Shellwright.Review

namespace Shellwright.Review

open Registry (Check)

variable {d : Desk} {uri : String} {check : Nat → Option Check}

/-- A verdict is published for the open session of an address. -/
theorem Sound.scene_publish (sound : Sound d) {run : Run} {s : Session}
    (hget : d.sessions.get? uri = some run.session) (hs : d.sessions.at? run.session = some s)
    (newest : s.mayPublish run.sequence = true) (k : Nat) (verdict : Verdict)
    (check : Nat → Option Check) :
    (d.publish k run s verdict).scene uri check = { d.scene uri check with
      session := some ⟨s.debounce.map (·.document), s.dispatched, run.sequence⟩
      shown := some verdict.diagnostics
      history := (d.scene uri check).history ++ [verdict.diagnostics] } := by
  obtain ⟨s', hs', huri, _⟩ := sound.registered uri _ hget
  obtain rfl := Option.some.inj (hs.symm.trans hs')
  have hat := Sessions.at?_modify d.sessions run.session run.session
    fun session => { session with published := (run.sequence : Int) }
  rw [if_pos rfl, hs] at hat
  have hopen : (d.publish k run s verdict).openView uri = _ := Desk.openView_of_get? hget hat
  have hgrow : d.sessions.Grow (d.publish k run s verdict).sessions := by
    refine Sessions.grow_of_at? (fun m => Sessions.at?_modify d.sessions run.session m _) ?_
    rintro m session rfl hsession
    obtain rfl := Option.some.inj (hs.symm.trans hsession)
    obtain ⟨_, _, hlt⟩ := Session.newest newest
    exact ⟨rfl, Int.le_of_lt hlt, Nat.le_refl _, id⟩
  have hruns := Desk.runsOf_grow sound _ hgrow (Reviewer.tickets_modify d.runs k fun _ => rfl) uri
  have hdropped : (d.publish k run s verdict).dropped = d.dropped :=
    Desk.dropped_modify d k fun _ => rfl
  have hshown : (d.sink.publish s.uri verdict.diagnostics).published.get? uri =
      some verdict.diagnostics :=
    (Keyed.get?_put d.sink.published s.uri uri _).trans (if_pos huri.symm)
  have hhistory : ((d.sink.publish s.uri verdict.diagnostics).history.filter (·.1 = uri)).map
      Prod.snd = (d.scene uri check).history ++ [verdict.diagnostics] := by
    unfold DiagnosticSink.publish
    rw [List.filter_append, List.map_append, List.filter_cons_of_pos (by simpa using huri)]
    rfl
  have hviews : (d.publish k run s verdict).runView uri check = d.runView uri check := by
    funext entry
    unfold Desk.runView
    rw [hdropped]
    rfl
  rw [← hhistory, ← hshown]
  unfold Desk.scene
  rw [hopen, hruns, hviews]
  rfl

end Shellwright.Review

namespace Shellwright.Reviewer

open Review
open Registry (Check)

variable {r : Reviewer} {uri : String} {check : Nat → Option Check}

/-- Run `k`, if it is one of the address. -/
def run? (r : Reviewer) (uri : String) (k : Nat) : Option Run :=
  r.runs[k]?.filter fun run => (r.sessions.at? run.session).any (·.uri == uri)

theorem run?_eq_some {k : Nat} {run : Run} :
    r.run? uri k = some run ↔
      r.runs[k]? = some run ∧ ∃ s, r.sessions.at? run.session = some s ∧ s.uri = uri := by
  unfold run?
  rw [Option.filter_eq_some_iff, Option.any_eq_true]
  simp only [beq_iff_eq]

/-- The verdict of a run is published when its session is open and it is the newest of it. -/
theorem scene_judged (sound : Sound r.desk) {k : Nat} {run : Run} (of : r.run? uri k = some run)
    (outcome : Outcome Registry.Reply) (check : Nat → Option Check) :
    (r.judged k outcome).scene uri check =
      (r.desk.scene uri check).judge (r.desk.place uri k) outcome := by
  obtain ⟨hrun, s, hs, huri⟩ := run?_eq_some.1 of
  cases outcome with
  | raised trouble => rfl
  | aborted => rfl
  | done reply =>
      cases reply with
      | checked verdict =>
          have hplace : (r.desk.scene uri check).runs[_]? = some _ :=
            Desk.runs_place (d := r.desk) hrun hs huri
          simp only [judged, hrun, hs, Scene.judge, hplace]
          cases hclosed : s.closed with
          | true =>
              -- The session that is open, if there is one, is another.
              have hnot : s.mayPublish run.sequence = false := by
                unfold Session.mayPublish
                rw [hclosed]
                rfl
              have hother : (r.desk.sessions.get? uri == some run.session) = false := by
                rw [beq_eq_false_iff_ne]
                intro hget
                obtain ⟨s', hs', _, hopen⟩ := sound.registered uri _ hget
                obtain rfl := Option.some.inj (hs.symm.trans hs')
                rw [hclosed] at hopen
                cases hopen
              rw [hnot, Bool.and_false, if_neg Bool.false_ne_true]
              split
              · rename_i view session hview _
                cases hview
                rw [if_neg]
                simp only [Desk.runView, Run.ticket, hother, Bool.false_and, Bool.and_false]
                exact Bool.false_ne_true
              · rfl
          | false =>
              have hget : r.desk.sessions.get? uri = some run.session :=
                huri ▸ sound.listed _ s hs hclosed
              have hview : (r.desk.scene uri check).session = some _ := Desk.openView_of_get? hget hs
              have hsame : (!verdict.inconclusive && s.mayPublish run.sequence) =
                  (!verdict.inconclusive && ((r.desk.runView uri check (run.ticket, k)).own &&
                    ((r.desk.runView uri check (run.ticket, k)).sequence : Int) == s.dispatched &&
                    s.published < (r.desk.runView uri check (run.ticket, k)).sequence)) := by
                unfold Session.mayPublish Desk.runView
                rw [hclosed, hget]
                simp only [Run.ticket, beq_self_eq_true, Bool.not_false]
                rfl
              rw [hview]
              simp only
              rw [← hsame]
              split
              · rename_i hpublishes
                rw [Bool.and_eq_true] at hpublishes
                exact sound.scene_publish hget hs hpublishes.2 k verdict check
              · rfl
      | _ => rfl

end Shellwright.Reviewer
