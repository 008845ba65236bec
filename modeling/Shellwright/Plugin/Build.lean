import Shellwright.Log
import Shellwright.Plugin.Basic
import Shellwright.Settings.Basic
/-!
# Where plugins come from

Plugins are made for the settings: those of the tools, and those of third parties.
-/

/-!
## Loading factories

Third parties announce factories of plugins at entry points. A factory that cannot be loaded is passed
over unless its failure is of a kind that nobody expects.
-/

namespace Shellwright

/-- Makes a plugin for the given settings, or none, or fails; the number is that of the new
plugin. -/
structure Factory where
  /-- How the factory is named in the log. -/
  description : String
  make : Nat → Settings → Except String (Option Plugin)

/-- Why an entry point could not be loaded. -/
inductive LoadFailure
  | attribute (text : String)
  | module (text : String)
  | value (text : String)
  | execution (text : String)
  | other (kind text : String)
  deriving DecidableEq, Repr

/-- The text of a failure that is skipped; any other failure ends the search for plugins. -/
def LoadFailure.skipped? : LoadFailure → Option String
  | .attribute text => some text
  | .module text => some text
  | .value text => some text
  | .execution text => some text
  | .other .. => none

/-- A place where a third party announces a factory. -/
structure EntryPoint where
  name : String
  group : String
  load : Except LoadFailure Factory

/-- The group of entry points that are looked at. -/
def pluginGroup : String := "shellqa.plugins"

/-- The factories of the entry points of the group; those that fail to load are left out. -/
def loadFactories : List EntryPoint → Except LoadFailure (List Factory × List LogRecord)
  | [] => .ok ([], [])
  | e :: rest =>
    if e.group ≠ pluginGroup then loadFactories rest
    else match e.load with
      | .ok f => do
        let (fs, log) ← loadFactories rest
        return (f :: fs, log)
      | .error failure =>
        match failure.skipped? with
        | some text => do
          let (fs, log) ← loadFactories rest
          return (fs, ⟨.warning, .discovery, s!"skipping plugin entry point {e.name}: {text}"⟩ :: log)
        | none => .error failure

/-- An error that a call hands on to its caller. -/
inductive Trouble
  /-- A plugin raised an error when it was asked which documents it handles. -/
  | support (text : String)
  /-- An entry point failed in an unexpected way. -/
  | loading (failure : LoadFailure)
  deriving DecidableEq, Repr

end Shellwright

/-!
## Building plugins

Which plugins the settings ask for: the enabled tools, the formatter first, and then those that
factories supply.
-/

namespace Shellwright

namespace Settings

def formatterStyle (s : Settings) : Tool.FormatterStyle :=
  ⟨s.effectiveIndent.map toString, s.formatter.binaryNextLine, s.formatter.caseIndent,
    s.formatter.spaceRedirects⟩

def formatterTool (s : Settings) : Tool.Formatter :=
  ⟨s.formatter.path, s.formatterStyle, some (.milliseconds s.diagnosis.timeout)⟩

def lintFilter (s : Settings) : Tool.LintFilter :=
  ⟨s.linter.exclude, s.linter.severity, s.linter.shell⟩

def linterTool (s : Settings) : Tool.Linter :=
  ⟨s.linter.path, s.lintFilter, some (.milliseconds s.diagnosis.timeout)⟩

/-- Failed executions are shown unless the settings say otherwise. -/
def reportFailures (s : Settings) : Bool :=
  s.diagnosis.onError == .showProblem

end Settings

namespace Plugin

/-- The plugins of the enabled tools, numbered from `next`. -/
def builtins (s : Settings) (next : Nat) : List Plugin :=
  (if s.formatter.enabled then [ofFormatter next s.formatterTool s.reportFailures] else []) ++
    (if s.linter.enabled then [ofLinter (next + 1) s.linterTool s.reportFailures] else [])

/-- The plugins that factories make, numbered from `next`; a factory that fails is left out. -/
def ofFactories (s : Settings) (next : Nat) : List Factory → List Plugin × List LogRecord
  | [] => ([], [])
  | f :: rest =>
    let (ps, log) := ofFactories s (next + 1) rest
    match f.make next s with
    | .ok (some p) => (p :: ps, log)
    | .ok none => (ps, log)
    | .error _ => (ps, ⟨.error, .building, s!"plugin factory {f.description} raised"⟩ :: log)

/-- All plugins for the settings, and the number of plugins made so far. -/
def build (s : Settings) (next : Nat) (factories : List Factory) :
    List Plugin × Nat × List LogRecord :=
  let (external, log) := ofFactories s (next + 2) factories
  (builtins s next ++ external, next + 2 + factories.length, log)

end Plugin

end Shellwright
