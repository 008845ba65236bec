import Shellwright.Bench.Children
/-!
# Plugins on a bench

A plugin that works with a tool runs the tool; any other does as its script says. Either way the
registry gets an answer, or learns that the plugin was stopped.
-/

namespace Shellwright.Bench

def registryEvent (e : Registry.Event) : Workspace.Event :=
  .review (.registry e)

/-- The plugin is through with a question. -/
def close (b : Bench) (n : Nat) (a : Activity) : Bench :=
  { b with activities := b.activities.modify n fun a => { a with ended := true } }.clock
    a.question.metric a.since

def answer (b : Bench) (n : Nat) (a : Activity) (reply : Answer) : Bench :=
  (b.close n a).tell (registryEvent (.answered a.key a.part reply))

def stop (b : Bench) (n : Nat) (a : Activity) : Bench :=
  (b.close n a).tell (registryEvent (.stopped a.key a.part))

/-- Do `f` with a question that is still open. -/
def withActivity (b : Bench) (n : Nat) (f : Activity → Bench) : Bench :=
  match b.activities[n]? with
  | some a => if a.ended then b else f a
  | none => b

/-- The tool of a plugin has ended. -/
def conclude (b : Bench) (n : Nat) (result : Except Supervisor.Stop Execution) : Bench :=
  b.withActivity n fun a =>
    match result, a.plugin.backend with
    | .ok e, .tool tool reportFailures =>
      let (reply, remarks) := a.plugin.answerOf tool reportFailures a.question a.text e
      let b := { b with
        activities := b.activities.modify n fun a => { a with execution := some e } }
      (b.record remarks).answer n a reply
    | .error (.crashed crash), _ => b.answer n a (.raised crash.message)
    | _, _ => b.stop n a

/-! ## Scripts -/

/-- What is seen when a scripted plugin is asked. -/
def questionWords (name text : String) : Question → List String
  | .available => [name, "available?"]
  | .check .. => [name, "check", text]
  | .format .. => [name, "format", text]

/-- A scripted plugin hears that it is cancelled. -/
def interrupt (b : Bench) (n : Nat) (a : Activity) : Bench :=
  (b.see [a.plugin.name, "cancelled"]).answer n a (interrupted a.question)

/-- A scripted plugin takes its time, which cancellation cuts short unless the plugin is deaf; one that
answers at once is not interrupted. -/
def perform (b : Bench) (n : Nat) (a : Activity) (rule : ScriptRule) : Bench :=
  let b := b.see (questionWords a.plugin.name a.text a.question)
  let token := if rule.deaf then none else a.question.options.token
  if rule.delay = 0 then b.answer n a a.answer
  else if b.isCancelled token then b.interrupt n a
  else (b.listen token (.activity n)).after rule.delay (.ready n)

/-! ## Questions -/

/-- A plugin is asked. -/
def ask (b : Bench) (key : CallKey) (part : Nat) (plugin : Plugin) (question : Question) : Bench :=
  let text := (question.document?.map fun name => (b.buffers.find name).text).getD ""
  let n := b.activities.length
  let a : Activity :=
    { key := key, part := part, plugin := plugin, question := question, text := text, since := b.now
      answer := silence question }
  match plugin.backend with
  | .external number =>
    let rule := ((b.scripts[number]?).getD {}).choose question text
    let a := { a with answer := rule.answer text }
    { b with activities := b.activities ++ [a] }.perform n a rule
  | .tool tool _ =>
    let b := { b with activities := b.activities ++ [{ a with process := some b.processes.length }] }
    let task := question.task text
    match tool.invocation task question.options.token question.options.timeout with
    | .error e => b.answer n a (.raised (e.message?.getD ""))
    | .ok invocation =>
      execute conclude b invocation (.activity n) (if b.timesTools then tool.metric? task else none)

/-- A plugin is made to stop. -/
def quit (b : Bench) (key : CallKey) (part : Nat) : Bench :=
  match b.activities.findIdx? fun a => !a.ended && a.key == key && a.part == part with
  | none => b
  | some n =>
    match (b.activities[n]?).bind (·.process) with
    | some p => b.post (.supervisor p .abort)
    | none => b.post (.quit n)

/-! ## The workspace -/

/-- See to what the workspace wants done. -/
def serve (b : Bench) : Workspace.Effect → Bench
  | .later e => b.post (.workspace e)
  | .timer number delay => b.after delay (.workspace (.review (.elapsed number)))
  | .cancel run => b.cancel (.run run)
  | .ask key part plugin question => b.ask key part plugin question
  | .quit key part => b.quit key part
  | .started run => { b with runs := b.runs.put run b.now }
  | .stopped run =>
    match b.runs.get? run with
    | some since => b.clock .diagnosis since
    | none => b
  | .finish n outcome => { b with finished := b.finished ++ [⟨n, outcome, b.buffers⟩] }
  | .log entry => b.record [entry]

def stepWorkspace (b : Bench) (e : Workspace.Event) : Bench :=
  let w := b.workspace.step e
  w.outbox.foldl serve { b with workspace := { w with outbox := [] } }

/-! ## Messages -/

def handle (b : Bench) : Message → Bench
  | .workspace e => b.stepWorkspace e
  | .supervisor p e => b.withProcess p fun process => b.adopt conclude p (process.supervisor.step e)
  | .launched p => b.withProcess p fun process =>
    if process.supervisor.stage = .ended then b else b.launchChild p process
  | .feed p => b.withProcess p (b.feedChild p)
  | .write p stream bytes => b.withProcess p fun process =>
    if process.streamsOpen then b.urge (.supervisor p (.wrote stream bytes)) else b
  | .exit p status => b.withProcess p (b.exitChild p status)
  | .ready n => b.withActivity n fun a =>
    (b.unlisten a.question.options.token (.activity n)).answer n a a.answer
  | .interrupt n => b.withActivity n (b.interrupt n)
  | .quit n => b.withActivity n fun a =>
    (b.unlisten a.question.options.token (.activity n)).stop n a
  | .cancel token => b.cancel token
  | .delayed 0 m => b.urge m
  | .delayed (turns + 1) m => b.post (.delayed turns m)

end Shellwright.Bench
