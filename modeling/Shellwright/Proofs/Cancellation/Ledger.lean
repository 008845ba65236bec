import Shellwright.Cancellation.Tokens
import Shellwright.Proofs.Keyed
/-!
# What one turn does

Of all that is under way at a time only three things matter to those who use tokens: the sources, the
listeners that a telling has not got to yet, and the callbacks that have been told. What an action or
the next step does to them can be told before, with the names in the action looked up.
-/

namespace Shellwright.Cancellation

/-- What an action or a step comes to. -/
inductive Deed (σ ω : Type)
  | rests
  /-- A source is made, under a parent or not. -/
  | makes (id : σ) (parent : Option σ)
  | cancels (id : σ)
  | detaches (id : σ)
  | registers (id : σ) (callback : ω)
  | withdraws (id : σ) (callback : ω)
  /-- A callback that waited is told. -/
  | calls (callback : ω)
  deriving DecidableEq, Repr

structure Ledger (σ ω : Type) where
  source? : σ → Option (Source σ ω)
  /-- The listeners that are still to be told, the next one first. -/
  waiting : List (Listener σ ω)
  told : List ω

namespace Ledger

variable {σ ω : Type}

def isCancelled (l : Ledger σ ω) (id : σ) : Bool :=
  (l.source? id).any (·.cancelled)

def listeners (l : Ledger σ ω) (id : σ) : List (Listener σ ω) :=
  ((l.source? id).map (·.listeners)).getD []

def parent? (l : Ledger σ ω) (id : σ) : Option σ :=
  (l.source? id).bind (·.parent)

variable [DecidableEq σ]

/-- There is such a source. -/
def Knows (l : Ledger σ ω) (id : σ) : Prop :=
  ∃ s, l.source? id = some s

def put (l : Ledger σ ω) (id : σ) (s : Source σ ω) : Ledger σ ω :=
  { l with source? := fun x => if x = id then some s else l.source? x }

def change (l : Ledger σ ω) (id : σ) (f : Source σ ω → Source σ ω) : Ledger σ ω :=
  { l with source? := fun x => if x = id then (l.source? x).map f else l.source? x }

def addListener (l : Ledger σ ω) (id : σ) (listener : Listener σ ω) : Ledger σ ω :=
  l.change id fun s => { s with listeners := s.listeners ++ [listener] }

def call (l : Ledger σ ω) (callback : ω) : Ledger σ ω :=
  { l with told := l.told ++ [callback] }

theorem put_put (l : Ledger σ ω) (id : σ) (s s' : Source σ ω) : (l.put id s).put id s' = l.put id s' := by
  unfold put
  congr 1
  funext x
  simp only
  split
  · rfl
  · rfl

theorem knows_put {l : Ledger σ ω} {id x : σ} {s : Source σ ω} :
    (l.put id s).Knows x ↔ x = id ∨ l.Knows x := by
  unfold Knows put
  simp only
  split
  · rename_i h
    exact iff_of_true ⟨s, rfl⟩ (.inl h)
  · rename_i h
    exact (or_iff_right h).symm

theorem knows_change {l : Ledger σ ω} {id x : σ} {f : Source σ ω → Source σ ω} :
    (l.change id f).Knows x ↔ l.Knows x := by
  unfold Knows change
  simp only
  split
  · constructor
    · rintro ⟨s, hs⟩
      obtain ⟨before, hbefore, _⟩ := Option.map_eq_some_iff.1 hs
      exact ⟨before, hbefore⟩
    · rintro ⟨s, hs⟩
      exact ⟨f s, congrArg (Option.map f) hs⟩
  · exact .rfl

variable [DecidableEq ω]

def removeListener (l : Ledger σ ω) (id : σ) (listener : Listener σ ω) : Ledger σ ω :=
  l.change id fun s => { s with listeners := s.listeners.erase listener }

/-- What a deed does. A source under a cancelled token is cancelled before anyone can follow it, and a
callback under a cancelled token is told at once. -/
def after (l : Ledger σ ω) : Deed σ ω → Ledger σ ω
  | .rests => l
  | .makes id none => l.put id {}
  | .makes id (some p) =>
    if l.isCancelled p then l.put id { cancelled := true }
    else (l.put id { parent := some p }).addListener p (.source id)
  | .cancels id =>
    match l.source? id with
    | none => l
    | some s =>
      if s.cancelled then l
      else { l.put id { s with cancelled := true, listeners := [] } with
        waiting := s.listeners ++ l.waiting }
  | .detaches id =>
    match l.parent? id with
    | none => l
    | some p => (l.change id fun s => { s with parent := none }).removeListener p (.source id)
  | .registers id callback =>
    if l.isCancelled id then l.call callback else l.addListener id (.callback callback)
  | .withdraws id callback => l.removeListener id (.callback callback)
  | .calls callback => l.call callback

/-- Sources are there from when they are made. -/
theorem knows_after {l : Ledger σ ω} {d : Deed σ ω} {x : σ} :
    (l.after d).Knows x ↔ l.Knows x ∨ ∃ p, d = .makes x p := by
  have hmakes {id : σ} {p : Option σ} : x = id ∨ l.Knows x ↔
      l.Knows x ∨ ∃ q, (Deed.makes id p : Deed σ ω) = .makes x q := by
    simp only [Deed.makes.injEq, exists_and_left, exists_eq', and_true, or_comm, eq_comm]
  have hother (h : ∀ p, d ≠ .makes x p) : l.Knows x ↔ l.Knows x ∨ ∃ p, d = .makes x p :=
    ⟨.inl, fun hor => hor.elim id fun ⟨p, heq⟩ => absurd heq (h p)⟩
  cases d with
  | rests => exact hother nofun
  | makes id parent =>
      cases parent with
      | none => exact knows_put.trans hmakes
      | some p =>
          simp only [after]
          split
          · exact knows_put.trans hmakes
          · exact knows_change.trans (knows_put.trans hmakes)
  | cancels id =>
      refine Iff.trans ?_ (hother nofun)
      simp only [after]
      split
      · exact .rfl
      · rename_i s hs
        split
        · exact .rfl
        · refine knows_put.trans (or_iff_right_of_imp ?_)
          rintro rfl
          exact ⟨s, hs⟩
  | detaches id =>
      refine Iff.trans ?_ (hother nofun)
      simp only [after]
      split
      · exact .rfl
      · exact knows_change.trans knows_change
  | registers id callback =>
      refine Iff.trans ?_ (hother nofun)
      simp only [after]
      split
      · exact .rfl
      · exact knows_change
  | withdraws id callback => exact knows_change.trans (hother nofun)
  | calls callback => exact hother nofun

end Ledger

/-- The listeners that a telling has not got to yet. -/
def Frame.waiting {σ ω ρ : Type} : Frame σ ω ρ → List (Listener σ ω)
  | .telling rest => rest
  | _ => []

/-- What the next listener comes to. -/
def Listener.deed {σ ω : Type} : Listener σ ω → Deed σ ω
  | .source id => .cancels id
  | .callback c => .calls c

namespace Tokens

variable {σ ω ρ : Type}

/-! ## What comes next -/

/-- The listener that has its turn with the next step. -/
def due (t : Tokens σ ω ρ) : List (Listener σ ω) :=
  match t.stack with
  | .telling (listener :: _) :: _ => [listener]
  | _ => []

section Deeds

variable [DecidableEq ρ]

/-- What an action comes to, with the names in it looked up. -/
def deed (t : Tokens σ ω ρ) (users : Users σ ω ρ) : Action ω ρ → Deed σ ω
  | .create _ (some (.source name)) =>
    match t.names.get? name with
    | some p => .makes (users.source t.sources.length) (some p)
    | none => .rests
  | .create _ _ => .makes (users.source t.sources.length) none
  | .cancel name =>
    match t.names.get? name with
    | some id => .cancels id
    | none => .rests
  | .detach name =>
    match t.names.get? name with
    | some id => .detaches id
    | none => .rests
  | .subscribe (.source name) _ callback =>
    match t.names.get? name with
    | some id => .registers id (users.callback callback t.subscriptions)
    | none => .rests
  | .subscribeAgain (.source name) _ earlier =>
    match t.names.get? name with
    | some id =>
      match t.callbacks.get? earlier with
      | some callback => .registers id callback
      | none => .rests
    | none => .rests
  | .unsubscribe registration =>
    match t.registrations.get? registration with
    | some (some (id, callback)) => .withdraws id callback
    | _ => .rests
  | _ => .rests

/-- What an action can come to. -/
inductive ComesTo (t : Tokens σ ω ρ) (users : Users σ ω ρ) : Action ω ρ → Deed σ ω → Prop
  | nothing (a : Action ω ρ) : ComesTo t users a .rests
  | makes (name : ρ) (followed : Option (Followed ρ)) (parent : Option σ)
      (h : ∀ p, parent = some p → ∃ parentName, t.names.get? parentName = some p) :
      ComesTo t users (.create name followed) (.makes (users.source t.sources.length) parent)
  | cancels (name : ρ) (id : σ) (h : t.names.get? name = some id) :
      ComesTo t users (.cancel name) (.cancels id)
  | detaches (name : ρ) (id : σ) (h : t.names.get? name = some id) :
      ComesTo t users (.detach name) (.detaches id)
  | subscribes (name registration : ρ) (callback : ω) (id : σ) (h : t.names.get? name = some id) :
      ComesTo t users (.subscribe (.source name) registration callback)
        (.registers id (users.callback callback t.subscriptions))
  | again (name registration earlier : ρ) (id : σ) (callback : ω) (h : t.names.get? name = some id)
      (hearlier : t.callbacks.get? earlier = some callback) :
      ComesTo t users (.subscribeAgain (.source name) registration earlier) (.registers id callback)
  | unsubscribes (registration : ρ) (id : σ) (callback : ω)
      (h : t.registrations.get? registration = some (some (id, callback))) :
      ComesTo t users (.unsubscribe registration) (.withdraws id callback)

theorem comesTo (t : Tokens σ ω ρ) (users : Users σ ω ρ) (a : Action ω ρ) :
    t.ComesTo users a (t.deed users a) := by
  cases a with
  | create name followed =>
      match followed with
      | none => exact .makes name none none nofun
      | some .never => exact .makes name _ none nofun
      | some (.source parentName) =>
          unfold deed
          simp only
          split
          · rename_i p hp
            refine .makes name _ (some p) fun q hq => ⟨parentName, ?_⟩
            rw [← hq, hp]
          · exact .nothing _
  | cancel name =>
      unfold deed
      simp only
      split
      · rename_i id h
        exact .cancels name id h
      · exact .nothing _
  | detach name =>
      unfold deed
      simp only
      split
      · rename_i id h
        exact .detaches name id h
      · exact .nothing _
  | subscribe followed registration callback =>
      cases followed with
      | never => exact .nothing _
      | source name =>
          unfold deed
          simp only
          split
          · rename_i id h
            exact .subscribes name registration callback id h
          · exact .nothing _
  | subscribeAgain followed registration earlier =>
      cases followed with
      | never => exact .nothing _
      | source name =>
          unfold deed
          simp only
          split
          · rename_i id h
            split
            · rename_i callback hearlier
              exact .again name registration earlier id callback h hearlier
            · exact .nothing _
          · exact .nothing _
  | unsubscribe registration =>
      unfold deed
      simp only
      split
      · rename_i id callback h
        exact .unsubscribes registration id callback h
      · exact .nothing _

/-- What the next step comes to. -/
def nextDeed (t : Tokens σ ω ρ) (users : Users σ ω ρ) : Deed σ ω :=
  match t.stack with
  | .telling (listener :: _) :: _ => listener.deed
  | .acting (a :: _) _ :: _ => t.deed users a
  | _ => .rests

theorem deed_of_due {t : Tokens σ ω ρ} (users : Users σ ω ρ) {listener : Listener σ ω}
    (h : listener ∈ t.due) : t.nextDeed users = listener.deed := by
  obtain ⟨sources, names, callbacks, registrations, subscriptions, stack, told, contained, failed⟩ := t
  match stack with
  | [] => cases h
  | .telling [] :: frames => cases h
  | .telling (other :: rest) :: frames =>
      obtain rfl := List.mem_singleton.1 h
      rfl
  | .acting rest fails :: frames => cases h
  | .registering registration :: frames => cases h

end Deeds

variable [DecidableEq σ]

def ledger (t : Tokens σ ω ρ) : Ledger σ ω where
  source? := t.source?
  waiting := t.stack.flatMap Frame.waiting
  told := t.told

/-- What the next step starts from: the listener that has its turn waits no more. -/
def begun (t : Tokens σ ω ρ) : Ledger σ ω :=
  { t.ledger with waiting := t.ledger.waiting.drop t.due.length }

theorem waiting_eq (t : Tokens σ ω ρ) : t.ledger.waiting = t.due ++ t.begun.waiting := by
  obtain ⟨sources, names, callbacks, registrations, subscriptions, stack, told, contained, failed⟩ := t
  match stack with
  | [] => rfl
  | .telling [] :: frames => rfl
  | .telling (listener :: rest) :: frames => rfl
  | .acting rest fails :: frames => rfl
  | .registering registration :: frames => rfl

/-! ## Sources -/

/-- A failure ends what is under way, but nobody who waits is passed over. -/
theorem failThrough_ledger (t : Tokens σ ω ρ) (fault : Fault ρ) (frames : List (Frame σ ω ρ))
    (h : frames.flatMap Frame.waiting = t.ledger.waiting) :
    (t.failThrough fault frames).ledger = t.ledger := by
  induction frames with
  | nil =>
      unfold failThrough ledger
      congr 1
  | cons f frames ih =>
      cases f with
      | telling rest =>
          unfold failThrough ledger
          congr 1
      | acting rest fails => exact ih h
      | registering registration => exact ih h

theorem fail_ledger (t : Tokens σ ω ρ) (fault : Fault ρ) : (t.fail fault).ledger = t.ledger :=
  t.failThrough_ledger fault t.stack rfl

theorem put_ledger (t : Tokens σ ω ρ) (id : σ) (s : Source σ ω) :
    ({ t with sources := t.sources.put id s }).ledger = t.ledger.put id s := by
  unfold ledger Ledger.put
  congr 1
  funext x
  exact Keyed.get?_put t.sources id x s

theorem change_ledger (t : Tokens σ ω ρ) (id : σ) (f : Source σ ω → Source σ ω) :
    ({ t with sources := t.sources.change id f }).ledger = t.ledger.change id f := by
  unfold ledger Ledger.change
  congr 1
  funext x
  exact Keyed.get?_change t.sources id x f

theorem addListener_ledger (t : Tokens σ ω ρ) (id : σ) (l : Listener σ ω) :
    (t.addListener id l).ledger = t.ledger.addListener id l :=
  t.change_ledger id _

theorem startCancel_ledger [DecidableEq ω] (t : Tokens σ ω ρ) (id : σ) :
    (t.startCancel id).ledger = t.ledger.after (.cancels id) := by
  unfold startCancel Ledger.after
  change _ = match t.source? id with | none => _ | some s => _
  cases t.source? id with
  | none => rfl
  | some s =>
      cases hcancelled : s.cancelled with
      | true => simp only [hcancelled, if_true]
      | false =>
          simp only [hcancelled, Bool.false_eq_true, if_false]
          rw [← put_ledger]
          rfl

variable [DecidableEq ω]

theorem removeListener_ledger (t : Tokens σ ω ρ) (id : σ) (l : Listener σ ω) :
    (t.removeListener id l).ledger = t.ledger.removeListener id l :=
  t.change_ledger id _

/-- What is followed, when it is a source. -/
def Followed.source? : Option (Followed σ) → Option σ
  | some (.source p) => some p
  | _ => none

theorem create_ledger (t : Tokens σ ω ρ) (id : σ) (parent : Option (Followed σ)) :
    (t.create id parent).ledger = t.ledger.after (.makes id (Followed.source? parent)) := by
  unfold create
  match parent with
  | none => exact t.put_ledger id {}
  | some .never => exact t.put_ledger id {}
  | some (.source p) =>
      unfold Followed.source? Ledger.after
      change _ = if t.isCancelled p = true then _ else _
      cases hcancelled : t.isCancelled p with
      | true =>
          have hmade : (t.ledger.put id {}).source? id = some {} := if_pos rfl
          simp only [hcancelled, if_true]
          rw [startCancel_ledger, put_ledger]
          unfold Ledger.after
          simp only [hmade, Bool.false_eq_true, if_false, Ledger.put_put]
          rfl
      | false =>
          simp only [hcancelled, Bool.false_eq_true, if_false]
          rw [addListener_ledger, put_ledger]

theorem detach_ledger (t : Tokens σ ω ρ) (id : σ) :
    (t.detach id).ledger = t.ledger.after (.detaches id) := by
  unfold detach Ledger.after
  change _ = match (t.source? id).bind (·.parent) with | none => _ | some p => _
  cases (t.source? id).bind (·.parent) with
  | none => rfl
  | some p =>
      simp only
      rw [removeListener_ledger, change_ledger]

/-! ## Actions -/

variable [DecidableEq ρ]

theorem register_ledger (t : Tokens σ ω ρ) (behave : ω → Behaviour ω ρ) (id : σ) (registration : ρ)
    (callback : ω) : (t.register behave (.source id) registration callback).ledger =
      t.ledger.after (.registers id callback) := by
  unfold register Ledger.after
  change (if t.isCancelled id = true then _ else _ : Tokens σ ω ρ).ledger =
    if t.isCancelled id = true then _ else _
  cases t.isCancelled id with
  | true => rfl
  | false => exact addListener_ledger _ id _

theorem unregister_ledger (t : Tokens σ ω ρ) (registration : ρ) :
    (t.unregister registration).ledger = match t.registrations.get? registration with
      | some (some (id, callback)) => t.ledger.after (.withdraws id callback)
      | _ => t.ledger := by
  unfold unregister
  cases t.registrations.get? registration with
  | none => exact t.fail_ledger _
  | some held =>
      cases held with
      | none => rfl
      | some held => exact removeListener_ledger _ _ _

theorem act_ledger (t : Tokens σ ω ρ) (users : Users σ ω ρ) (a : Action ω ρ) :
    (t.act users a).ledger = t.ledger.after (t.deed users a) := by
  have hnamed (α : Type) (meanings : Keyed ρ α) (name : ρ) (f : α → Tokens σ ω ρ) (d : α → Deed σ ω)
      (h : ∀ a, (f a).ledger = t.ledger.after (d a)) :
      (t.withNamed meanings name f).ledger = t.ledger.after (match meanings.get? name with
        | some a => d a
        | none => .rests) := by
    unfold withNamed
    cases meanings.get? name with
    | some a => exact h a
    | none => exact t.fail_ledger _
  cases a with
  | create name parent =>
      match parent with
      | none => exact t.create_ledger _ none
      | some .never => exact t.create_ledger _ (some .never)
      | some (.source p) => exact hnamed _ t.names p _ _ fun id => t.create_ledger _ (some (.source id))
  | cancel name => exact hnamed _ t.names name _ _ t.startCancel_ledger
  | detach name => exact hnamed _ t.names name _ _ t.detach_ledger
  | subscribe followed registration callback =>
      cases followed with
      | never => rfl
      | source name => exact hnamed _ t.names name _ _ fun id => register_ledger _ _ id _ _
  | subscribeAgain followed registration earlier =>
      cases followed with
      | never =>
          change (t.withNamed t.callbacks earlier fun _ => _).ledger = t.ledger
          unfold withNamed
          cases t.callbacks.get? earlier with
          | some callback => rfl
          | none => exact t.fail_ledger _
      | source name =>
          refine hnamed _ t.names name _ _ fun id => ?_
          exact hnamed _ t.callbacks earlier _ _ fun callback => t.register_ledger _ id _ callback
  | unsubscribe registration =>
      refine (t.unregister_ledger registration).trans ?_
      simp only [deed]
      split
      · rfl
      · rfl

/-! ## Steps -/

theorem step_ledger (t : Tokens σ ω ρ) (users : Users σ ω ρ) :
    (t.step users).ledger = t.begun.after (t.nextDeed users) := by
  obtain ⟨sources, names, callbacks, registrations, subscriptions, stack, told, contained, failed⟩ := t
  match stack with
  | [] => rfl
  | .telling [] :: frames => rfl
  | .telling (.source id :: rest) :: frames => exact startCancel_ledger _ id
  | .telling (.callback c :: rest) :: frames => rfl
  | .acting [] false :: frames => rfl
  | .acting [] true :: frames => exact fail_ledger _ _
  | .acting (a :: rest) fails :: frames => exact act_ledger _ users a
  | .registering registration :: frames => rfl

end Tokens

end Shellwright.Cancellation
