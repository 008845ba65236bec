import Shellwright.Document
import Shellwright.Settings.Schema
import Shellwright.Wire.Record
/-!
# Records as data

How records are written: every field under the name under which it is read.
-/

namespace Shellwright

def Position.toDatum (p : Position) : Datum :=
  .table [("line", .ofNat p.line), ("character", .ofNat p.character)]

def Span.toDatum (s : Span) : Datum :=
  .table [("start", s.start.toDatum), ("end", s.stop.toDatum)]

def Failure.toDatum : Failure → Datum
  | .cancelled message => .table [("kind", .text "cancelled"), ("message", .text message)]
  | .timeout message limit =>
    .table [("kind", .text "timeout"), ("message", .text message), ("timeout_ms", .int limit)]
  | .spawn message code reason =>
    .table [("kind", .text "spawn_failure"), ("message", .text message), ("code", .ofText? code),
      ("reason", .text reason.label)]

def Execution.toDatum (e : Execution) : Datum :=
  .table [("command", .text e.command), ("exit_code", .ofOption .int e.status?),
    ("stdout", .text e.stdout), ("stderr", .text e.stderr), ("error", .ofOption Failure.toDatum e.failure?)]

def SyntaxIssue.toDatum (i : SyntaxIssue) : Datum :=
  .table [("kind", .text "syntax"), ("line", .ofNat i.line), ("column", .ofNat i.column),
    ("message", .text i.message)]

def FormatIssue.toDatum (i : FormatIssue) : Datum :=
  .table [("kind", .text "format"), ("message", .text i.message), ("diff", .text i.diff),
    ("line", .ofNat i.line), ("column", .ofNat i.column), ("range_length", .ofNat i.length)]

def LintIssue.toDatum (i : LintIssue) : Datum :=
  .table [("kind", .text "linter"), ("line", .ofNat i.line), ("column", .ofNat i.column),
    ("severity", .text i.level.label), ("code", .text i.code), ("message", .text i.message)]

def Issue.toDatum : Issue → Datum
  | .syntaxError i => i.toDatum
  | .misformat i => i.toDatum
  | .lint i => i.toDatum

def Report.fields (r : Report) : List (String × Datum) :=
  [("issues", .ofList Issue.toDatum r.issues), ("formatted_content", .ofText? r.formatted),
    ("execution_error", .ofOption Failure.toDatum r.executionFailure), ("failure", .ofText? r.failure),
    ("command", .ofText? r.command)]

def Report.toDatum (r : Report) : Datum :=
  .table r.fields

def Diagnostic.toDatum (d : Diagnostic) : Datum :=
  .table [("range", d.range.toDatum), ("message", .text d.message), ("severity", .text d.severity.label),
    ("code", .ofText? d.code), ("source", .text d.source)]

def TextEdit.toDatum (e : TextEdit) : Datum :=
  .table [("range", e.range.toDatum), ("new_text", .text e.newText)]

def Verdict.fields (v : Verdict) : List (String × Datum) :=
  [("has_errors", .bool v.hasErrors), ("diagnostics", .ofList Diagnostic.toDatum v.diagnostics),
    ("error_message", .ofText? v.errorMessage), ("inconclusive", .bool v.inconclusive)]

def Verdict.toDatum (v : Verdict) : Datum :=
  .table v.fields

def FormatVerdict.toDatum (v : FormatVerdict) : Datum :=
  .table (v.toVerdict.fields ++ [("text_edits", .ofList TextEdit.toDatum v.edits)])

def TextDocument.fields (d : TextDocument) : List (String × Datum) :=
  [("uri", .text d.uri), ("file_name", .text d.fileName), ("language_id", .text d.languageId),
    ("text", .text d.text), ("version", .int d.version), ("line_count", .ofNat d.lineCount)]

def TextDocument.toDatum (d : TextDocument) : Datum :=
  .table d.fields

namespace Wire

def Fault.label : Fault → String
  | .missing => "missing"
  | .extra => "extra_forbidden"
  | .notRecord => "model_type"
  | .notTagged => "model_attributes_type"
  | .tagMissing => "union_tag_not_found"
  | .tagUnknown => "union_tag_invalid"
  | .notLiteral => "literal_error"
  | .notMember => "enum"
  | .notText => "string_type"
  | .notInt => "int_type"
  | .intUnreadable => "int_parsing"
  | .intFraction => "int_from_float"
  | .intTooLong => "int_parsing_size"
  | .notFinite => "finite_number"
  | .notBool => "bool_type"
  | .boolUnreadable => "bool_parsing"
  | .notList => "tuple_type"
  | .keyNotText => "invalid_key"
  | .tooSmall true => "greater_than"
  | .tooSmall false => "greater_than_equal"
  | .rule _ => "value_error"

/-- Lists of texts, compared entry by entry. -/
def pathBefore : List String → List String → Bool
  | [], _ => true
  | _ :: _, [] => false
  | a :: as, b :: bs => if a = b then pathBefore as bs else a < b

/-- By path, and then by fault. -/
def Problem.before (a b : Problem) : Bool :=
  if a.path = b.path then a.fault.label ≤ b.fault.label else pathBefore a.path b.path

def Problem.toDatum (p : Problem) : Datum :=
  .table ([("loc", .ofList .text p.path), ("type", .text p.fault.label)] ++ match p.fault with
    | .rule message => [("msg", .text ("Value error, " ++ message))]
    | _ => [])

def problemsDatum (problems : List Problem) : Datum :=
  .ofList Problem.toDatum (problems.mergeSort Problem.before)

end Wire

end Shellwright
