import Shellwright.Registry.Basic
/-!
# Steps of the registry

The registry reacts to one event at a time: a call starts, the answers of plugins carry it on, or it
ends. A call that asks several plugins asks each of them in its turn and goes on when all have answered.
Events may come in any order; those that concern a call that is over have no effect.
-/

namespace Shellwright.Registry

/-! ## Availability -/

def setProbe (probes : List (String × Progress Bool)) (i : Nat) (p : Progress Bool) :
    List (String × Progress Bool) :=
  probes.modify i fun entry => (entry.1, p)

/-- Names whose plugins have answered `ok`, in order. -/
def probed (probes : List (String × Progress Bool)) (ok : Bool) : List String :=
  (probes.filter fun entry => entry.2.result? == some ok).map Prod.fst

def allSettled (probes : List (String × Progress Bool)) : Bool :=
  probes.all fun entry => entry.2.result?.isSome

/-- The names that were asked for and did not answer that they are available are logged. -/
def logFailed (r : Registry) (failed : List String) : Registry :=
  if failed.isEmpty then r
  else r.log .warning ("failed to activate plugins: " ++ ", ".intercalate failed)

def logActive (r : Registry) : Registry :=
  r.log .debug s!"active plugins: {listed r.activeNames}"

/-- All answers are there: the change that the call was for takes place at once. -/
def completeProbes (r : Registry) (key : CallKey) (purpose : ProbePurpose)
    (probes : List (String × Progress Bool)) : Registry :=
  let ok := probed probes true
  match purpose with
  | .activateAll =>
    let r := r.logFailed (probed probes false)
    { r with active := r.active ++ ok.filter (!r.active.contains ·) }.finish key
      (.done (.count ok.length))
  | .reactivate =>
    let r := r.logFailed (probed probes false)
    ({ r with active := ok }.logActive).finish key (.done (.count ok.length))
  | .replace fresh =>
    ({ r with plugins := fresh, active := ok }.logActive).finish key (.done (.count ok.length))
  | .available => r.finish key (.done (.names ok))

/-- Ask for the availability of several plugins; each is asked in its turn. -/
def startProbes (r : Registry) (key : CallKey) (purpose : ProbePurpose) (names : List String) :
    Registry :=
  if names.isEmpty then r.completeProbes key purpose []
  else
    let r := r.setCall key ⟨.probing purpose (names.map (·, .waiting)), false⟩
    (List.range names.length).foldl (fun r i => r.emit (.later (.begin key i))) r

/-- One answer has come; the last one completes the call a little later. -/
def settleProbe (r : Registry) (key : CallKey) (c : Call) (purpose : ProbePurpose)
    (probes : List (String × Progress Bool)) (i : Nat) (ok : Bool) : Registry :=
  let probes := setProbe probes i (.settled ok)
  let r := r.setCall key { c with stage := .probing purpose probes }
  if allSettled probes then r.emit (.later (.gathered key)) else r

/-- The plugin that a probe is about: for a replacement one of the new instances. -/
def probedPlugin (r : Registry) (purpose : ProbePurpose) (name : String) : Option Plugin :=
  match purpose with
  | .replace fresh => fresh.get? name
  | _ => r.get? name

def unknownPlugin (r : Registry) (name : String) : Registry :=
  r.log .warning s!"cannot activate unknown plugin {name}"

/-- What an answer says about availability; a plugin that raises is not available. -/
def availability (r : Registry) (name : String) : Answer → Registry × Bool
  | .available true => (r, true)
  | .available false => (r.log .info s!"plugin {name} is not available", false)
  | _ => (r.log .error s!"availability check for plugin {name} raised", false)

/-! ## Checks -/

/-- The plugins that handle a document, or the error that one of them raised on being asked. -/
def supporting (d : TextDocument) : List Plugin → Except String (List Plugin)
  | [] => .ok []
  | p :: rest => do
    let fits ← p.supports d
    let others ← supporting d rest
    return if fits then p :: others else others

/-- The active plugins that handle a document, in the order of registration. -/
def snapshot (r : Registry) (d : TextDocument) : Except String (List Plugin) :=
  supporting d (r.plugins.values.filter fun p => r.isActive p.name)

def setPart (parts : List (Plugin × Progress Verdict)) (i : Nat) (p : Progress Verdict) :
    List (Plugin × Progress Verdict) :=
  parts.modify i fun entry => (entry.1, p)

def allChecked (parts : List (Plugin × Progress Verdict)) : Bool :=
  parts.all fun entry => entry.2.result?.isSome

def startCheck (r : Registry) (buffers : Buffers) (key : CallKey) (document : String)
    (options : CallOptions) : Registry :=
  match r.snapshot (buffers.find document) with
  | .error text => r.finish key (.raised (.support text))
  | .ok [] => r.finish key (.done (.checked {}))
  | .ok plugins =>
    let r := r.setCall key ⟨.checking document options (plugins.map (·, .waiting)), false⟩
    (List.range plugins.length).foldl (fun r i => r.emit (.later (.begin key i))) r

/-- The verdict that a plugin's answer to a check gives; an error becomes a diagnostic. -/
def checkVerdict (r : Registry) (buffers : Buffers) (p : Plugin) (document : String) :
    Answer → Registry × Verdict
  | .checked v => (r, v)
  | .formatted v => (r, v.toVerdict)
  | .available _ => (r, {})
  | .raised text =>
    (r.log .error s!"plugin {p.name} raised during check",
      p.failure "check" text (buffers.find document))

def completeCheck (r : Registry) (key : CallKey) (parts : List (Plugin × Progress Verdict)) :
    Registry :=
  r.finish key (.done (.checked (Verdict.merge (parts.filterMap (·.2.result?)))))

/-! ## Formats -/

/-- Ask the next formatter, one after another; when none is left the call has no edits. -/
def askFormatter (r : Registry) (key : CallKey) (document : String) (options : CallOptions)
    (collected : List Verdict) : List Plugin → Registry
  | [] => r.finish key (.done (.formatted { toVerdict := Verdict.merge collected }))
  | p :: rest =>
    (r.setCall key ⟨.formatting document options p rest collected, false⟩).emit
      (.ask key 0 p (.format document options))

def startFormat (r : Registry) (buffers : Buffers) (key : CallKey) (document : String)
    (options : CallOptions) : Registry :=
  match r.snapshot (buffers.find document) with
  | .error text => r.finish key (.raised (.support text))
  | .ok plugins => r.askFormatter key document options [] (plugins.filter (·.formats))

/-- What a formatter's answer contributes when it holds no edits. -/
def formatVerdict (r : Registry) (buffers : Buffers) (p : Plugin) (document : String) :
    Answer → Registry × FormatVerdict
  | .formatted v => (r, v)
  | .checked v => (r, { toVerdict := v })
  | .available _ => (r, {})
  | .raised text =>
    let v := p.failure "format" text (buffers.find document)
    (r.log .error s!"plugin {p.name} raised during format",
      { hasErrors := true, diagnostics := v.diagnostics })

/-- The first formatter with edits ends the call. -/
def settleFormat (r : Registry) (buffers : Buffers) (key : CallKey) (document : String)
    (options : CallOptions) (p : Plugin) (rest : List Plugin) (collected : List Verdict)
    (answer : Answer) : Registry :=
  let (r, v) := r.formatVerdict buffers p document answer
  if v.edits.isEmpty then r.askFormatter key document options (collected ++ [v.toVerdict]) rest
  else r.finish key (.done (.formatted v))

/-! ## Calls -/

/-- The new instances by name, and a record for every name that comes twice. -/
def freshPlugins (r : Registry) (fresh : Keyed String Plugin) :
    List Plugin → Registry × Keyed String Plugin
  | [] => (r, fresh)
  | p :: rest =>
    let r :=
      if fresh.has p.name then
        r.log .warning s!"plugin {p.name} built twice, keeping the last instance"
      else r
    freshPlugins r (fresh.put p.name p) rest

/-- The names to activate among new instances; all of them unless some are named. -/
def wantedNames (fresh : Keyed String Plugin) : Option (List String) → List String
  | none => fresh.keys
  | some names => (distinct names).filter fresh.has

/-- The work of a call that holds the lock. -/
def enter (r : Registry) (key : CallKey) : Request → Registry
  | .activate name =>
    match r.get? name with
    | none => (r.unknownPlugin name).finish key (.done (.flag false))
    | some p => (r.setCall key ⟨.activating name, false⟩).emit (.ask key 0 p .available)
  | .activateAll names => r.startProbes key .activateAll (distinct names)
  | .reactivate names => r.startProbes key .reactivate (distinct names)
  | .replace plugins names =>
    let fresh := Keyed.ofList (plugins.map fun p => (p.name, p))
    r.startProbes key (.replace fresh) (wantedNames fresh names)
  | _ => r

/-- A call that changes what is active waits until it holds the lock. -/
def acquire (r : Registry) (key : CallKey) (request : Request) : Registry :=
  if r.lock.holder.isNone then { r with lock := ⟨some key, []⟩ }.enter key request
  else { r with lock := { r.lock with waiting := r.lock.waiting ++ [key] } }.setCall key
    ⟨.queued request, false⟩

def call (r : Registry) (buffers : Buffers) (key : CallKey) : Request → Registry
  | .available => r.startProbes key .available r.plugins.keys
  | .check document options => r.startCheck buffers key document options
  | .format document options => r.startFormat buffers key document options
  | .replace plugins names =>
    (r.freshPlugins [] plugins).1.acquire key (.replace plugins names)
  | request => r.acquire key request

/-! ## Events -/

def begin (r : Registry) (key : CallKey) (i : Nat) (c : Call) : Registry :=
  if c.aborting then r.finish key .aborted
  else match c.stage with
    | .probing purpose probes =>
      match probes[i]? with
      | none => r
      | some (name, _) =>
        match r.probedPlugin purpose name with
        | none => (r.unknownPlugin name).settleProbe key c purpose probes i false
        | some p =>
          (r.setCall key { c with stage := .probing purpose (setProbe probes i .asked) }).emit
            (.ask key i p .available)
    | .checking document options parts =>
      match parts[i]? with
      | none => r
      | some (p, _) =>
        (r.setCall key { c with stage := .checking document options (setPart parts i .asked) }).emit
          (.ask key i p (.check document options))
    | _ => r

def answered (r : Registry) (buffers : Buffers) (key : CallKey) (i : Nat) (c : Call)
    (answer : Answer) : Registry :=
  match c.stage with
  | .queued _ => r
  | .activating name =>
    let (r, ok) := r.availability name answer
    if ok then
      { r with active := if r.isActive name then r.active else r.active ++ [name] }.finish key
        (.done (.flag true))
    else r.finish key (.done (.flag false))
  | .probing purpose probes =>
    match probes[i]? with
    | none => r
    | some (name, _) =>
      let (r, ok) := r.availability name answer
      r.settleProbe key c purpose probes i ok
  | .checking document options parts =>
    match parts[i]? with
    | none => r
    | some (p, _) =>
      let (r, v) := r.checkVerdict buffers p document answer
      let parts := setPart parts i (.settled v)
      let r := r.setCall key { c with stage := .checking document options parts }
      if allChecked parts then r.emit (.later (.gathered key)) else r
  | .formatting document options p rest collected =>
    r.settleFormat buffers key document options p rest collected answer

def gathered (r : Registry) (key : CallKey) (c : Call) : Registry :=
  if c.aborting then r.finish key .aborted
  else match c.stage with
    | .probing purpose probes => r.completeProbes key purpose probes
    | .checking _ _ parts => r.completeCheck key parts
    | _ => r

/-- The parts of a call that have been asked and have not answered. -/
def outstanding : Stage → List Nat
  | .queued _ => []
  | .activating _ => [0]
  | .probing _ probes =>
    (List.range probes.length).filter fun i => (probes[i]?.map Prod.snd) == some .asked
  | .checking _ _ parts =>
    (List.range parts.length).filter fun i => (parts[i]?.map Prod.snd) == some .asked
  | .formatting .. => [0]

/-- Call a call off: one that waits for the lock ends at once, any other when a plugin has stopped. -/
def abort (r : Registry) (key : CallKey) (c : Call) : Registry :=
  match c.stage with
  | .queued _ =>
    let r := { r with lock := { r.lock with waiting := r.lock.waiting.filter (· != key) } }
    r.finish key .aborted
  | stage =>
    (outstanding stage).foldl (fun r i => r.emit (.quit key i))
      (r.setCall key { c with aborting := true })

/-- Do `f` with a call that is still under way. -/
def withCall (r : Registry) (key : CallKey) (f : Call → Registry) : Registry :=
  match r.calls.get? key with
  | some c => f c
  | none => r

/-- One step; `buffers` holds the documents as they are now. -/
def step (buffers : Buffers) (r : Registry) : Event → Registry
  | .register p => r.register p
  | .unregister name => r.unregister name
  | .clear => r.clear
  | .deactivate name => r.deactivate name
  | .deactivateAll => r.deactivateAll
  | .call key request => r.call buffers key request
  | .granted key => r.withCall key fun c =>
    match c.stage with
    | .queued request => r.enter key request
    | _ => r
  | .begin key i => r.withCall key (r.begin key i)
  | .answered key i answer => r.withCall key fun c => r.answered buffers key i c answer
  | .stopped key _ => r.withCall key fun c => if c.aborting then r.finish key .aborted else r
  | .gathered key => r.withCall key (r.gathered key)
  | .abort key => r.withCall key (r.abort key)

end Shellwright.Registry
