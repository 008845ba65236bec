import Shellwright.Console.Table
import Shellwright.Wire.Datum
import Shellwright.Wire.Describe
import Shellwright.Wire.Encode
import Shellwright.Wire.Coordinate
import Shellwright.Workspace.Basic
/-!
# Replies and listings as data

How plugins, timings, tables and the replies to calls are written.
-/

namespace Shellwright

def TimingSummary.toDatum (s : TimingSummary) : Datum :=
  .table [("count", .ofNat s.count), ("avg_ms", .float s.shownMean), ("min_ms", .float s.shownLeast),
    ("max_ms", .float s.shownMost)]

/-- Pairs of a name and its summary, sorted by name. -/
def Stopwatch.toDatum (w : Stopwatch) : Datum :=
  .ofList (fun e => .list [.text e.1, e.2.toDatum]) w.snapshot

def Console.Table.toDatum (t : Console.Table) : Datum :=
  .table [("title", .text t.title), ("columns", .ofList (fun c => .text c.header) t.columns),
    ("justify", .ofList (fun c => .text c.alignment.label) t.columns),
    ("rows", .ofList (.ofList .text) t.rows)]

def Console.PluginInfo.toDatum (p : Console.PluginInfo) : Datum :=
  .table [("name", .text p.name), ("display_name", .text p.displayName), ("version", .text p.version),
    ("active", .bool p.active)]

namespace Wire

open Schema

def pluginInfoRecord : Schema Console.PluginInfo := record fun fields =>
  ((fields.required "name" text).both ((fields.required "display_name" text).both
    ((fields.required "version" text).both (fields.required "active" bool)))).map
    fun (name, displayName, version, active) => ⟨name, displayName, version, active⟩

/-- A listing of plugins with the number of all and of those that are active. -/
def pluginListing : Schema (List Console.PluginInfo) := record fun fields =>
  ((fields.required "total" int).both ((fields.required "active" int).both
    (fields.required "plugins" (list pluginInfoRecord)))).map fun (_, _, infos) => infos

/-- A row of the timings, from a name and the values of a summary. -/
def timingRow (d : Datum) : Except NumberError Console.TimingRow := do
  let summary := d.asList.getD 1 .null
  let value (key : String) : Except NumberError Float := do number (← entry summary key)
  return ⟨(d.asList.headD .null).asText, (← entry summary "count").plain, ← value "avg_ms",
    ← value "min_ms", ← value "max_ms"⟩

end Wire

/-- All plugins of a registry, as they are listed. -/
def Registry.infos (r : Registry) : List Console.PluginInfo :=
  r.plugins.values.map fun p => ⟨p.name, p.displayName, p.version, r.isActive p.name⟩

def Registry.listing (r : Registry) : Datum :=
  .table [("total", .ofNat r.plugins.length), ("active", .ofNat r.activeNames.length),
    ("plugins", .ofList Console.PluginInfo.toDatum r.infos)]

def Execution.Limit.toDatum : Execution.Limit → Datum
  | .milliseconds n => .int n
  | .misfit => .null

/-- What a plugin works with: the command lines of a tool, and how failures of it are treated. -/
def Plugin.toDatum (p : Plugin) : Datum :=
  let named := [("name", Datum.text p.name), ("display_name", .text p.displayName),
    ("version", .text p.version)]
  match p.backend with
  | .external _ => .table named
  | .tool tool reportFailures =>
    let command (task : Tool.Task) : Datum := .text (tool.commandLine task).text
    .table (named ++ [("report_execution_errors", .bool reportFailures),
      ("timeout_ms", .ofOption Execution.Limit.toDatum tool.timeout), ("formatting", .bool p.formats),
      ("check", command (.check (some "") none))] ++
      (if p.formats then [("format", command (.format (some "")))] else []))

def Registry.Reply.toDatum : Registry.Reply → Datum
  | .flag b => .bool b
  | .count n => .ofNat n
  | .names ns => .ofList .text ns
  | .checked v => v.toDatum
  | .formatted v => v.toDatum

/-- The reply to a fix names its outcome, the document as it is then, and how many series of edits were
applied. -/
def Review.Reply.toDatum (document : TextDocument) : Review.Reply → Datum
  | .verdict v => .ofOption Verdict.toDatum v
  | .verdicts vs => .table (vs.map fun e => (e.1, e.2.toDatum))
  | .formatted v => v.toDatum
  | .fixed outcome => .table [("outcome", .text outcome.label), ("document", document.toDatum),
      ("applied", .ofNat (if outcome = .applied then 1 else 0))]
  | .settled => .null

def Workspace.Reply.toDatum (document : TextDocument) : Workspace.Reply → Datum
  | .count n => .ofNat n
  | .registry r => r.toDatum
  | .review r => r.toDatum document
  | .settled => .null

end Shellwright
