/-!
# Log

What the library records about its own work, for those who run it.
-/

namespace Shellwright

inductive LogLevel
  | debug
  | info
  | warning
  | error
  deriving DecidableEq, Repr

namespace LogLevel

def label : LogLevel → String
  | .debug => "DEBUG"
  | .info => "INFO"
  | .warning => "WARNING"
  | .error => "ERROR"

/-- Higher is more serious. -/
def rank : LogLevel → Nat
  | .debug => 0
  | .info => 1
  | .warning => 2
  | .error => 3

end LogLevel

/-- The part of the library that a record comes from. -/
inductive LogOrigin
  | configuration
  | execution
  | formatterOutput
  | tool
  | plugin
  | discovery
  | building
  | registry
  | review
  | workspace
  | cancellation
  deriving DecidableEq, Repr

def LogOrigin.label : LogOrigin → String
  | .configuration => "shellqa.config.loader"
  | .execution => "shellqa.core.runtime.process"
  | .formatterOutput => "shellqa.parsers.shfmt"
  | .tool => "shellqa.tools.base"
  | .plugin => "shellqa.plugins.interface"
  | .discovery => "shellqa.plugins.discovery"
  | .building => "shellqa.plugins.initializer"
  | .registry => "shellqa.plugins.manager"
  | .review => "shellqa.orchestration.pipeline"
  | .workspace => "shellqa.orchestration.context"
  | .cancellation => "shellqa.core.cancellation"

structure LogRecord where
  level : LogLevel
  origin : LogOrigin
  text : String
  deriving DecidableEq, Repr

/-- `LEVEL: text`. -/
def LogRecord.short (r : LogRecord) : String :=
  s!"{r.level.label}: {r.text}"

/-- `LEVEL origin: text`. -/
def LogRecord.long (r : LogRecord) : String :=
  s!"{r.level.label} {r.origin.label}: {r.text}"

end Shellwright
