import Shellwright.Cancellation.Tokens
import Shellwright.Wire.Datum
/-!
# Scripts about tokens

A script creates sources, cancels them and subscribes callbacks, which may go on with a script of their
own. Reading a script gives its actions and, by number, the callbacks that they subscribe.
-/

namespace Shellwright.Bench

open Cancellation

/-- A callback as a script tells of it: by the number of its description, and by the number of the
subscription that made it. -/
structure TokenCallback where
  description : Nat
  subscription : Nat
  deriving DecidableEq, Repr

/-- Callbacks in scripts, before a subscription makes one, have the subscription 0. -/
abbrev TokenAction := Action TokenCallback String

/-- What a script says about a callback. -/
structure CallbackDescription where
  /-- Calls are reported under this name. -/
  name : String
  behaviour : Behaviour TokenCallback String

/-- Tokens, the callbacks described so far, and what the next step is to be read with. -/
structure TokenScene where
  described : List CallbackDescription := []
  tokens : Tokens Nat TokenCallback String := {}

/-- The word for what never happens. -/
def neverWord : String := "NONE"

def followedOf (name : String) : Followed String :=
  if name == neverWord then .never else .source name

/-- How deep the scripts of callbacks may be within one another. -/
def scriptDepth : Nat := 1000

/-- An action, and the callbacks described so far with those that it describes. -/
def readAction : (fuel : Nat) → List CallbackDescription → Datum →
    List CallbackDescription × TokenAction
  | fuel, described, s =>
    let (id, name) := (s.textAt "id", s.textAt "name")
    match s.textAt "do" with
    | "source" => (described, .create id ((s.textAt? "parent").map followedOf))
    | "cancel" => (described, .cancel id)
    | "dispose" => (described, .detach id)
    | "unsubscribe" => (described, .unsubscribe name)
    | _ =>
      match s.textAt? "same_as", fuel with
      | some earlier, _ => (described, .subscribeAgain (followedOf id) name earlier)
      | none, 0 => (described, .unsubscribe name)
      | none, fuel + 1 =>
        let (described, actions) := (s.listAt "then").foldl (fun (described, actions) x =>
          let (described, action) := readAction fuel described x
          (described, actions ++ [action])) (described, [])
        (described ++ [⟨name, ⟨actions, s.flagAt "raise"⟩⟩],
          .subscribe (followedOf id) name ⟨described.length, 0⟩)

namespace TokenScene

def users (s : TokenScene) : Users Nat TokenCallback String :=
  { source := fun n => n
    callback := fun c n => { c with subscription := n + 1 }
    behave := fun c => ((s.described[c.description]?).map (·.behaviour)).getD {} }

/-- Steps after which a script is given up that does not come to rest. -/
def patience : Nat := 20000

/-- Take one step of a script; what was told and what failed before is forgotten. -/
def step (s : TokenScene) (d : Datum) : TokenScene :=
  let (described, action) := readAction scriptDepth s.described d
  let s := { s with described := described }
  let tokens := { s.tokens with told := [], failed := none, contained := 0 }.act s.users action
  { s with tokens := tokens.settle s.users patience }

/-- The names of the callbacks that the last step told. -/
def told (s : TokenScene) : List String :=
  s.tokens.told.filterMap fun c => (s.described[c.description]?).map (·.name)

/-- The names that stand for cancelled sources. -/
def cancelled (s : TokenScene) : List String :=
  (s.tokens.names.filter fun n => s.tokens.isCancelled n.2).map Prod.fst

end TokenScene

end Shellwright.Bench
