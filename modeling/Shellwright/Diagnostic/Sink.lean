import Shellwright.Diagnostic.Basic
import Shellwright.Document
import Shellwright.Keyed
/-!
# Sinks

Where results go: diagnostics are published by address, each publication replacing the one before, and
edits are applied to buffers, each edit having to replace the whole buffer.
-/

namespace Shellwright

/-- Published diagnostics by address, and every publication in order. -/
structure DiagnosticSink where
  published : Keyed String (List Diagnostic) := []
  history : List (String × List Diagnostic) := []

namespace DiagnosticSink

def publish (s : DiagnosticSink) (uri : String) (diagnostics : List Diagnostic) : DiagnosticSink :=
  ⟨s.published.put uri diagnostics, s.history ++ [(uri, diagnostics)]⟩

def clear (s : DiagnosticSink) (uri : String) : DiagnosticSink :=
  { s with published := s.published.drop uri }

def diagnostics (s : DiagnosticSink) (uri : String) : List Diagnostic :=
  (s.published.get? uri).getD []

/-- How often diagnostics were published for `uri`. -/
def publications (s : DiagnosticSink) (uri : String) : Nat :=
  s.history.countP fun entry => entry.1 == uri

end DiagnosticSink

/-- Apply edits one after another. An edit that does not replace the whole buffer ends the series;
the flag tells whether all were applied. -/
def TextDocument.applyEdits (d : TextDocument) : List TextEdit → Bool × TextDocument
  | [] => (true, d)
  | edit :: rest =>
    if edit.range = Span.whole d.text then (d.update edit.newText).applyEdits rest
    else (false, d)

/-- Buffers by address, and the series of edits that were accepted. -/
structure EditSink where
  documents : Keyed String TextDocument := []
  applied : List (String × List TextEdit) := []

namespace EditSink

/-- Apply `edits` to the buffer of `uri`; the flag is false for an unknown address or a partial
edit. -/
def apply (s : EditSink) (uri : String) (edits : List TextEdit) : Bool × EditSink :=
  match s.documents.get? uri with
  | none => (false, s)
  | some d =>
    let (accepted, changed) := d.applyEdits edits
    let documents := s.documents.put uri changed
    if accepted then (true, ⟨documents, s.applied ++ [(uri, edits)]⟩)
    else (false, { s with documents := documents })

end EditSink

end Shellwright
