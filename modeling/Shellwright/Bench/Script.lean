import Shellwright.Execution.Supervisor
import Shellwright.Plugin.Basic
/-!
# Scripts of a bench

A bench runs scripted programs in place of real ones, and answers for plugins that work with no tool. A
program answers by the first of its rules that fits what it was given; a script says after which time a
plugin gives which answer, by the text that it is asked about.
-/

namespace Shellwright.Bench

/-! ## Programs -/

/-- What a child does that is killed. -/
inductive KillResponse
  /-- It exits some milliseconds later. -/
  | exits (delay : Nat)
  /-- It never exits. -/
  | ignores
  /-- It cannot be found, and goes on. -/
  | gone
  deriving DecidableEq, Repr

/-- What a child writes some time after it has begun. -/
structure LateOutput where
  delay : Nat
  stream : OutputStream
  bytes : List UInt8
  deriving DecidableEq, Repr

/-- What a program does, and when it does so. -/
structure Rule where
  /-- The exact arguments. -/
  arguments : Option (List String) := none
  /-- One of the arguments. -/
  argument : Option String := none
  /-- The exact input; `some none` asks for a child without input. -/
  stdin : Option (Option String) := none
  /-- A part of the input. -/
  stdinPart : Option String := none
  stdout : List UInt8 := []
  stderr : List UInt8 := []
  later : List LateOutput := []
  status : Int := 0
  exitDelay : Nat := 0
  hangs : Bool := false
  /-- The streams stay open when the child has exited. -/
  keepsStreams : Bool := false
  onKill : KillResponse := .exits 0
  deriving DecidableEq, Repr

/-- `part` stands somewhere in a text. -/
def occursIn (part : List Char) : List Char → Bool
  | [] => part.isEmpty
  | c :: rest => part.isPrefixOf (c :: rest) || occursIn part rest

def Rule.fits (r : Rule) (arguments : List String) (stdin : Option String) : Bool :=
  (r.arguments.all (· == arguments)) && (r.argument.all arguments.contains) &&
    (r.stdin.all (· == stdin)) && (r.stdinPart.all fun part => stdin.any fun text => occursIn part.toList text.toList)

structure Program where
  /-- Why the program cannot be launched. -/
  refusal : Option SystemError := none
  /-- How long a launch takes, whether it succeeds or not. -/
  launchDelay : Nat := 0
  /-- The program does not take its whole input. -/
  spurnsInput : Bool := false
  rules : List Rule := []
  deriving DecidableEq, Repr

/-- A program that is not there. -/
def Program.missing : Program :=
  { refusal := some (.numbered (some SystemError.missingFile) (some "No such file or directory")) }

/-- What a child of the program does; one that fits no rule exits at once. -/
def Program.choose (p : Program) (arguments : List String) (stdin : Option String) : Rule :=
  (p.rules.find? (·.fits arguments stdin)).getD {}

/-! ## Plugins -/

structure ScriptRule where
  /-- The rule holds for texts with this part. -/
  part : String := ""
  delay : Nat := 0
  /-- Cancellation does not reach the plugin. -/
  deaf : Bool := false
  answer : String → Answer

structure Script where
  /-- Whether the plugin is available, or the error that it raises. -/
  available : Answer := .available true
  availableDelay : Nat := 0
  check : List ScriptRule := []
  format : List ScriptRule := []

/-- The answer that a plugin gives to a question when its script says nothing. -/
def silence : Question → Answer
  | .available => .available true
  | .check .. => .checked {}
  | .format .. => .formatted {}

/-- The answer of a plugin that was cancelled. -/
def interrupted : Question → Answer
  | .format .. => .formatted { inconclusive := true, errorMessage := some "cancelled" }
  | _ => .checked { inconclusive := true, errorMessage := some "cancelled" }

def Script.choose (s : Script) (question : Question) (text : String) : ScriptRule :=
  match question with
  | .available => { delay := s.availableDelay, deaf := true, answer := fun _ => s.available }
  | .check .. =>
    (s.check.find? fun r => occursIn r.part.toList text.toList).getD { answer := fun _ => silence question }
  | .format .. =>
    (s.format.find? fun r => occursIn r.part.toList text.toList).getD { answer := fun _ => silence question }

end Shellwright.Bench
