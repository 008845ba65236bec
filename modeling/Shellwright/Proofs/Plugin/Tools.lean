import Shellwright.Plugin.Basic
import Shellwright.Proofs.Registry.Turns
/-!
# What plugins answer

A plugin answers about the text of a document. What a tool makes of a text is told beforehand, and a tool
that is called off before it starts is not run.
-/

namespace Shellwright

/-- How a check of a text is run. -/
theorem Tool.invocation_check {τ : Type} (tool : Tool) (text : String) (token : Option τ)
    (limit : Option Execution.Limit) :
    tool.invocation (.check (some text) none) token limit =
      if tool.path.isEmpty then .error (.noPath tool.name)
      else match Execution.checkLimit (limit <|> tool.timeout) with
        | .error e => .error (.option e)
        | .ok timeout => .ok ⟨tool.commandLine (.check (some text) none),
            { stdin := some text, token := token, timeout := timeout }⟩ := by
  unfold invocation
  cases tool.path.isEmpty with
  | true => rfl
  | false => rfl

/-- The plugin works with a tool, and knows its command. -/
def Plugin.hasCommand (p : Plugin) : Bool :=
  match p.backend with
  | .tool tool _ => !tool.path.isEmpty
  | .external _ => false

/-! ## Tools -/

/-- What tools make of their tasks, and what the plugins of third parties answer. -/
structure Tools where
  run : Tool → Tool.Task → Except Supervisor.Crash Execution
  foreign : Nat → Tool.Task → Answer

namespace Tools

/-- The execution of a command that is called off before it starts. -/
def skipped (command : CommandLine) : Execution :=
  ⟨command.text, .failed (.cancelled s!"Execute {command.text} cancelled before start"), "", ""⟩

/-- The answer of a plugin that works with a tool to a question about `text`; `off` tells whether the
question has been called off. -/
def consult (tools : Tools) (p : Plugin) (tool : Tool) (reportFailures : Bool) (question : Question)
    (text : String) (off : Bool) : Answer :=
  let task := question.task text
  match tool.invocation task question.options.token question.options.timeout with
  | .error e => .raised (e.message?.getD "")
  | .ok invocation =>
    match if off then .ok (skipped invocation.command) else tools.run tool task with
    | .ok e => (p.answerOf tool reportFailures question text e).1
    | .error crash => .raised crash.message

/-- The answer of a plugin; one of a third party answers about the text, whatever else happens. -/
def answer (tools : Tools) (p : Plugin) (question : Question) (text : String) (off : Bool) : Answer :=
  match p.backend with
  | .external number => tools.foreign number (question.task text)
  | .tool tool reportFailures => tools.consult p tool reportFailures question text off

/-- What a plugin contributes to the check of a document. -/
def share (tools : Tools) (limit : Option Execution.Limit) (off : Bool) (d : TextDocument) (p : Plugin) :
    Verdict :=
  Registry.verdictOf p d (tools.answer p (.check "" ⟨none, limit⟩) d.text off)

/-- A supervisor that is called off before it starts launches nothing. -/
theorem start_skipped (invocation : Invocation Token) :
    (Supervisor.start invocation true).outbox =
      [.log ⟨.debug, .execution, s!"skipping {invocation.command.text}: cancelled before start"⟩,
        .finish (skipped invocation.command)] := rfl

/-- An answer is about the text: the name of the document and the token do not matter. -/
theorem answer_check (tools : Tools) (p : Plugin) (document : String) (token : Option Token)
    (limit : Option Execution.Limit) (text : String) (off : Bool) :
    tools.answer p (.check document ⟨token, limit⟩) text off =
      tools.answer p (.check "" ⟨none, limit⟩) text off := by
  unfold answer
  cases p.backend with
  | external number => rfl
  | tool tool reportFailures =>
      simp only [consult, Question.task, Question.options, Tool.invocation_check]
      cases tool.path.isEmpty with
      | true => rfl
      | false =>
          cases Execution.checkLimit (limit <|> tool.timeout) with
          | error e => rfl
          | ok timeout => cases off <;> rfl

/-- A tool that is called off before it starts says nothing about the document. -/
theorem share_off (tools : Tools) (limit : Nat) (d : TextDocument) {p : Plugin}
    (h : p.hasCommand = true) :
    (tools.share (some (.milliseconds limit)) true d p).inconclusive = true := by
  unfold Plugin.hasCommand at h
  unfold share answer
  split at h
  · rename_i tool reportFailures hbackend
    have hpath : tool.path.isEmpty = false := by simpa using h
    have hlimit : Execution.checkLimit (some (.milliseconds (limit : Int)) <|> tool.timeout) =
        .ok (some (limit : Int)) := by
      simp [Execution.checkLimit]
    simp only [hbackend, consult, Question.task, Question.options, Tool.invocation_check, hpath, hlimit]
    cases tool <;> rfl
  · cases h

/-- Nobody else is touched by a token. -/
theorem share_same (tools : Tools) (limit : Option Execution.Limit) (d : TextDocument) {p : Plugin}
    (h : p.hasCommand = false) : tools.share limit true d p = tools.share limit false d p := by
  unfold Plugin.hasCommand at h
  unfold share answer
  split at h
  · rename_i tool reportFailures hbackend
    have hpath : tool.path.isEmpty = true := by simpa using h
    simp only [hbackend, consult, Question.task, Question.options, Tool.invocation_check, hpath]
    rfl
  · rename_i number hbackend
    simp only [hbackend]

end Tools

end Shellwright
