import Shellwright.Plugin.Build
import Shellwright.Plugin.Basic
/-!
# Registry of plugins

Plugins by name, in the order of their registration, and the set of those that are active. A plugin
becomes active when it has answered that it is available; calls that wait for such answers are kept as
data, so that anything else may happen while they wait.
-/

namespace Shellwright

/-- Names a call: one that the host made, or the check of a diagnosis run. -/
inductive CallKey
  | host (n : Nat)
  | run (n : Nat)
  deriving DecidableEq, Repr

/-- How a call ended: with a reply, with an error, or called off. -/
inductive Outcome (ρ : Type)
  | done (reply : ρ)
  | raised (trouble : Trouble)
  | aborted
  deriving DecidableEq, Repr

namespace Registry

/-- What a registry is asked to do that may have to wait. -/
inductive Request
  | activate (name : String)
  | activateAll (names : List String)
  | reactivate (names : List String)
  | replace (plugins : List Plugin) (names : Option (List String))
  | available
  | check (document : String) (options : CallOptions)
  | format (document : String) (options : CallOptions)

inductive Reply
  | flag (b : Bool)
  | count (n : Nat)
  | names (ns : List String)
  | checked (verdict : Verdict)
  | formatted (verdict : FormatVerdict)
  deriving DecidableEq, Repr

/-- How far one of several plugins has got that are asked at the same time. -/
inductive Progress (α : Type)
  | waiting
  | asked
  | settled (result : α)
  deriving DecidableEq, Repr

def Progress.result? {α : Type} : Progress α → Option α
  | .settled a => some a
  | _ => none

/-- What the answers of several plugins to the question of availability are for. -/
inductive ProbePurpose
  | activateAll
  | reactivate
  | replace (fresh : Keyed String Plugin)
  | available

/-- Where a call waits. -/
inductive Stage
  /-- For the lock. -/
  | queued (request : Request)
  /-- For one plugin that is to be activated. -/
  | activating (name : String)
  /-- For the availability of several plugins. -/
  | probing (purpose : ProbePurpose) (probes : List (String × Progress Bool))
  /-- For the checks of several plugins. -/
  | checking (document : String) (options : CallOptions)
      (parts : List (Plugin × Progress Verdict))
  /-- For the first formatter, while others are still to be asked and some have been. -/
  | formatting (document : String) (options : CallOptions) (current : Plugin)
      (rest : List Plugin) (collected : List Verdict)

structure Call where
  stage : Stage
  /-- The call is to end as soon as one of the plugins that it asked has stopped. -/
  aborting : Bool := false

/-- Admits one call at a time, the others in the order in which they came. -/
structure Lock where
  holder : Option CallKey := none
  waiting : List CallKey := []
  deriving DecidableEq, Repr

/-- What happens to a registry. Calls and changes come from outside; the others follow from what the
registry has asked for. -/
inductive Event
  | register (plugin : Plugin)
  | unregister (name : String)
  | clear
  | deactivate (name : String)
  | deactivateAll
  | call (key : CallKey) (request : Request)
  /-- The lock has come to a call. -/
  | granted (key : CallKey)
  /-- One of several plugins is to be asked now. -/
  | begin (key : CallKey) (part : Nat)
  | answered (key : CallKey) (part : Nat) (answer : Answer)
  /-- A plugin stopped without an answer. -/
  | stopped (key : CallKey) (part : Nat)
  /-- All of several plugins have answered. -/
  | gathered (key : CallKey)
  | abort (key : CallKey)

/-- What a registry wants done. -/
inductive Effect
  /-- Something that is to happen once everything before it has. -/
  | later (event : Event)
  | ask (key : CallKey) (part : Nat) (plugin : Plugin) (question : Question)
  /-- Make a plugin stop. -/
  | quit (key : CallKey) (part : Nat)
  | finish (key : CallKey) (outcome : Outcome Reply)
  | log (record : LogRecord)

end Registry

structure Registry where
  plugins : Keyed String Plugin := []
  active : List String := []
  lock : Registry.Lock := {}
  calls : Keyed CallKey Registry.Call := []
  /-- Effects in the order in which they were asked for. -/
  outbox : List Registry.Effect := []

namespace Registry

def emit (r : Registry) (e : Effect) : Registry :=
  { r with outbox := r.outbox ++ [e] }

def log (r : Registry) (level : LogLevel) (text : String) : Registry :=
  r.emit (.log ⟨level, .registry, text⟩)

def setCall (r : Registry) (key : CallKey) (c : Call) : Registry :=
  { r with calls := r.calls.put key c }

/-! ## What can be asked at any time -/

def isActive (r : Registry) (name : String) : Bool :=
  r.active.contains name

/-- Active names in the order of registration. -/
def activeNames (r : Registry) : List String :=
  r.plugins.keys.filter r.isActive

def get? (r : Registry) (name : String) : Option Plugin :=
  Keyed.get? r.plugins name

/-- Names, with commas, for the log. -/
def listed (names : List String) : String :=
  if names.isEmpty then "<none>" else ", ".intercalate names

/-! ## Changes that do not wait -/

/-- A plugin takes the place of one of the same name, which is deactivated. -/
def register (r : Registry) (p : Plugin) : Registry :=
  let r :=
    if r.plugins.has p.name then
      { r with active := r.active.filter (· != p.name) }.log .warning
        s!"plugin {p.name} already registered, replacing it"
    else r
  { r with plugins := r.plugins.put p.name p }.log .debug s!"registered plugin {p.name}"

def unregister (r : Registry) (name : String) : Registry :=
  if r.plugins.has name then
    { r with active := r.active.filter (· != name), plugins := r.plugins.drop name }.log .debug
      s!"unregistered plugin {name}"
  else r.log .warning s!"cannot unregister unknown plugin {name}"

def clear (r : Registry) : Registry :=
  { r with active := [], plugins := [] }

def deactivate (r : Registry) (name : String) : Registry :=
  { r with active := r.active.filter (· != name) }

def deactivateAll (r : Registry) : Registry :=
  { r with active := [] }

/-! ## The lock -/

/-- Pass the lock on to the call that has waited longest. -/
def release (r : Registry) : Registry :=
  match r.lock.waiting with
  | [] => { r with lock := ⟨none, []⟩ }
  | next :: rest => { r with lock := ⟨some next, rest⟩ }.emit (.later (.granted next))

/-- A call is over; the lock is passed on when it was the holder. -/
def finish (r : Registry) (key : CallKey) (outcome : Outcome Reply) : Registry :=
  let r := { r with calls := r.calls.drop key }.emit (.finish key outcome)
  if r.lock.holder = some key then r.release else r

end Registry

end Shellwright
