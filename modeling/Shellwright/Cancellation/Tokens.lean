import Shellwright.Keyed
/-!
# Cancellation tokens

A source can be cancelled once, and its token tells those who listen. A source may follow a parent: it
listens to the parent's token until it is detached. Listeners are told in the order in which they came.

Listeners may act on sources while they are told. What is under way is kept as a stack of frames, and
one step takes the next thing that is to happen. Who acts knows sources, registrations and callbacks by
names; a name stands for what it was given to last, and is looked up when the action is taken.
-/

namespace Shellwright.Cancellation

/-- Who is told: a source that follows, or a callback. -/
inductive Listener (σ ω : Type)
  | source (id : σ)
  | callback (id : ω)
  deriving DecidableEq, Repr

structure Source (σ ω : Type) where
  cancelled : Bool := false
  listeners : List (Listener σ ω) := []
  /-- The source that this one follows and was attached to. -/
  parent : Option σ := none
  deriving DecidableEq, Repr

/-- What a source follows, or a callback listens to: what never happens, or a source. -/
inductive Followed (α : Type)
  | never
  | source (id : α)
  deriving DecidableEq, Repr

/-- Something that a user or a callback does, by names of type `ρ`. -/
inductive Action (ω ρ : Type)
  | create (name : ρ) (parent : Option (Followed ρ))
  | cancel (name : ρ)
  /-- Stop following the parent. -/
  | detach (name : ρ)
  | subscribe (followed : Followed ρ) (registration : ρ) (callback : ω)
  /-- Subscribe the callback that was subscribed under an earlier name. -/
  | subscribeAgain (followed : Followed ρ) (registration earlier : ρ)
  | unsubscribe (registration : ρ)
  deriving DecidableEq, Repr

/-- What a callback does when it is told, and whether it fails in the end. -/
structure Behaviour (ω ρ : Type) where
  actions : List (Action ω ρ) := []
  fails : Bool := false

/-- What those bring along who use sources. -/
structure Users (σ ω ρ : Type) where
  /-- The source that is made when there are so many already. -/
  source : Nat → σ
  /-- The callback that a subscription makes, by the number of subscriptions before it. -/
  callback : ω → Nat → ω := fun c _ => c
  behave : ω → Behaviour ω ρ

/-- Why an action or a callback fails. -/
inductive Fault (ρ : Type)
  | callback
  | unknown (name : ρ)
  deriving DecidableEq, Repr

/-- Something under way. -/
inductive Frame (σ ω ρ : Type)
  /-- The listeners of a cancelled source that are still to be told; none of them sees a failure of
  another. -/
  | telling (rest : List (Listener σ ω))
  /-- A callback that is being told. -/
  | acting (rest : List (Action ω ρ)) (fails : Bool)
  /-- A registration under a token that was cancelled already is made when the callback is through. -/
  | registering (registration : ρ)
  deriving DecidableEq, Repr

structure Tokens (σ ω ρ : Type) where
  sources : Keyed σ (Source σ ω) := []
  /-- The source that each name was given to last. -/
  names : Keyed ρ σ := []
  /-- The callback that was subscribed last under each name. -/
  callbacks : Keyed ρ ω := []
  /-- What a registration can still take back. -/
  registrations : Keyed ρ (Option (σ × ω)) := []
  /-- Number of subscriptions that made a callback. -/
  subscriptions : Nat := 0
  stack : List (Frame σ ω ρ) := []
  /-- Every callback that was told, in order. -/
  told : List ω := []
  /-- Number of failures that a telling has contained. -/
  contained : Nat := 0
  /-- A failure that nothing contained. -/
  failed : Option (Fault ρ) := none
  deriving DecidableEq, Repr

namespace Tokens

variable {σ ω ρ : Type} [DecidableEq σ] [DecidableEq ω] [DecidableEq ρ]

def source? (t : Tokens σ ω ρ) (id : σ) : Option (Source σ ω) :=
  t.sources.get? id

def isCancelled (t : Tokens σ ω ρ) (id : σ) : Bool :=
  (t.source? id).any (·.cancelled)

def listeners (t : Tokens σ ω ρ) (id : σ) : List (Listener σ ω) :=
  ((t.source? id).map (·.listeners)).getD []

def push (t : Tokens σ ω ρ) (f : Frame σ ω ρ) : Tokens σ ω ρ :=
  { t with stack := f :: t.stack }

/-! ## Sources -/

/-- Cancel a source: from now on it is cancelled, and its listeners are to be told. -/
def startCancel (t : Tokens σ ω ρ) (id : σ) : Tokens σ ω ρ :=
  match t.source? id with
  | none => t
  | some s =>
    if s.cancelled then t
    else { t with
      sources := t.sources.put id { s with cancelled := true, listeners := [] } }.push
        (.telling s.listeners)

def addListener (t : Tokens σ ω ρ) (id : σ) (l : Listener σ ω) : Tokens σ ω ρ :=
  { t with sources := t.sources.change id fun s => { s with listeners := s.listeners ++ [l] } }

/-- Remove the first listener that equals `l`. -/
def removeListener (t : Tokens σ ω ρ) (id : σ) (l : Listener σ ω) : Tokens σ ω ρ :=
  { t with sources := t.sources.change id fun s => { s with listeners := s.listeners.erase l } }

/-- A source under a cancelled parent is cancelled at once and follows nothing. -/
def create (t : Tokens σ ω ρ) (id : σ) (parent : Option (Followed σ)) : Tokens σ ω ρ :=
  let fresh (s : Source σ ω) : Tokens σ ω ρ := { t with sources := t.sources.put id s }
  match parent with
  | some (.source p) =>
    if t.isCancelled p then (fresh {}).startCancel id
    else (fresh { parent := some p }).addListener p (.source id)
  | _ => fresh {}

def detach (t : Tokens σ ω ρ) (id : σ) : Tokens σ ω ρ :=
  match (t.source? id).bind (·.parent) with
  | none => t
  | some p =>
    ({ t with sources := t.sources.change id fun s => { s with parent := none } }).removeListener p
      (.source id)

/-! ## Callbacks -/

/-- A failure ends what is under way up to the nearest telling, which goes on with its next
listener. -/
def failThrough (t : Tokens σ ω ρ) (fault : Fault ρ) : List (Frame σ ω ρ) → Tokens σ ω ρ
  | [] => { t with stack := [], failed := some fault }
  | .telling rest :: frames => { t with stack := .telling rest :: frames, contained := t.contained + 1 }
  | _ :: frames => failThrough t fault frames

def fail (t : Tokens σ ω ρ) (fault : Fault ρ) : Tokens σ ω ρ :=
  t.failThrough fault t.stack

/-- Tell one callback. -/
def tell (t : Tokens σ ω ρ) (behave : ω → Behaviour ω ρ) (callback : ω) : Tokens σ ω ρ :=
  let b := behave callback
  { t with told := t.told ++ [callback] }.push (.acting b.actions b.fails)

/-- A callback is registered, or told at once under a cancelled token. -/
def register (t : Tokens σ ω ρ) (behave : ω → Behaviour ω ρ) (followed : Followed σ)
    (registration : ρ) (callback : ω) : Tokens σ ω ρ :=
  let t := { t with callbacks := t.callbacks.put registration callback }
  match followed with
  | .never => { t with registrations := t.registrations.put registration none }
  | .source id =>
    if t.isCancelled id then (t.push (.registering registration)).tell behave callback
    else { t with
      registrations := t.registrations.put registration (some (id, callback)) }.addListener id
        (.callback callback)

/-- Take a registration back; a second time has no effect. -/
def unregister (t : Tokens σ ω ρ) (registration : ρ) : Tokens σ ω ρ :=
  match t.registrations.get? registration with
  | none => t.fail (.unknown registration)
  | some none => t
  | some (some (id, callback)) =>
    { t with registrations := t.registrations.put registration none }.removeListener id
      (.callback callback)

/-! ## Actions -/

/-- Do `f` with what a name stands for. -/
def withNamed {α : Type} (t : Tokens σ ω ρ) (meanings : Keyed ρ α) (name : ρ)
    (f : α → Tokens σ ω ρ) : Tokens σ ω ρ :=
  match meanings.get? name with
  | some a => f a
  | none => t.fail (.unknown name)

/-- Do `f` with what is followed. -/
def withFollowed (t : Tokens σ ω ρ) (followed : Followed ρ) (f : Followed σ → Tokens σ ω ρ) :
    Tokens σ ω ρ :=
  match followed with
  | .never => f .never
  | .source name => t.withNamed t.names name fun id => f (.source id)

/-- Make a source and give it a name; what had the name before goes on without it. -/
def createNamed (t : Tokens σ ω ρ) (users : Users σ ω ρ) (name : ρ)
    (parent : Option (Followed σ)) : Tokens σ ω ρ :=
  let id := users.source t.sources.length
  let t := t.create id parent
  { t with names := t.names.put name id }

def act (t : Tokens σ ω ρ) (users : Users σ ω ρ) : Action ω ρ → Tokens σ ω ρ
  | .create name none => t.createNamed users name none
  | .create name (some parent) => t.withFollowed parent fun p => t.createNamed users name (some p)
  | .cancel name => t.withNamed t.names name t.startCancel
  | .detach name => t.withNamed t.names name t.detach
  | .subscribe followed registration callback =>
    t.withFollowed followed fun f =>
      { t with subscriptions := t.subscriptions + 1 }.register users.behave f registration
        (users.callback callback t.subscriptions)
  | .subscribeAgain followed registration earlier =>
    t.withFollowed followed fun f =>
      t.withNamed t.callbacks earlier (t.register users.behave f registration)
  | .unsubscribe registration => t.unregister registration

/-! ## Steps -/

/-- The next thing that is to happen. -/
def step (users : Users σ ω ρ) (t : Tokens σ ω ρ) : Tokens σ ω ρ :=
  match t.stack with
  | [] => t
  | .telling [] :: frames => { t with stack := frames }
  | .telling (.source id :: rest) :: frames =>
    { t with stack := .telling rest :: frames }.startCancel id
  | .telling (.callback c :: rest) :: frames =>
    { t with stack := .telling rest :: frames }.tell users.behave c
  | .acting [] false :: frames => { t with stack := frames }
  | .acting [] true :: frames => { t with stack := frames }.fail .callback
  | .acting (a :: rest) fails :: frames =>
    { t with stack := .acting rest fails :: frames }.act users a
  | .registering registration :: frames =>
    { t with stack := frames, registrations := t.registrations.put registration none }

/-- Steps until nothing is under way, at most `fuel` of them. -/
def settle (users : Users σ ω ρ) : Nat → Tokens σ ω ρ → Tokens σ ω ρ
  | 0, t => t
  | fuel + 1, t => if t.stack.isEmpty then t else settle users fuel (t.step users)

/-- Users whose callbacks do nothing but take note. -/
def passive (source : Nat → σ) : Users σ ω ρ :=
  { source := source, behave := fun _ => {} }

/-- Steps that suffice when callbacks do nothing: every listener and every source takes two. -/
def passiveBound (t : Tokens σ ω ρ) : Nat :=
  2 + (t.sources.values.map fun s => 2 + 2 * s.listeners.length).foldl (· + ·) 0

/-- Cancel a source where callbacks only take note; those that were told are returned. -/
def cancel (t : Tokens σ ω ρ) (source : Nat → σ) (id : σ) : Tokens σ ω ρ × List ω :=
  let t := { t with told := [] }
  let t := settle (passive source) t.passiveBound (t.startCancel id)
  ({ t with told := [] }, t.told)

end Tokens

end Shellwright.Cancellation
