import Shellwright.Command.Format
import Shellwright.Diagnostic.Sink
import Shellwright.Proofs.Keyed
/-!
# Edits

Each edit of a series has to replace the whole text that the edits before it leave. The edits before
one that does not stay applied, although the series is refused. A formatted text is put into one edit
that spans the old text; whoever applies it computes the span of its own text, and comes to the formatted
one.
-/

namespace Shellwright

/-! ## Series of edits -/

/-- Each edit replaces the whole text that the edits before it leave. -/
inductive Overwrites : String → List TextEdit → Prop
  | done (text : String) : Overwrites text []
  | next {text : String} {edit : TextEdit} {rest : List TextEdit}
      (spans : edit.range = Span.whole text) (others : Overwrites edit.newText rest) :
      Overwrites text (edit :: rest)

/-- The text that the last edit brings. -/
def lastText (text : String) (edits : List TextEdit) : String :=
  (edits.getLast?.map TextEdit.newText).getD text

@[simp] theorem lastText_nil (text : String) : lastText text [] = text := rfl

@[simp] theorem lastText_cons (text : String) (edit : TextEdit) (rest : List TextEdit) :
    lastText text (edit :: rest) = lastText edit.newText rest := by
  unfold lastText
  cases rest with
  | nil => rfl
  | cons second rest => rw [List.getLast?_cons_cons]; rfl

namespace TextDocument

/-- The document after all edits of a series. -/
def overwritten (d : TextDocument) (edits : List TextEdit) : TextDocument :=
  { d with text := lastText d.text edits, version := d.version + edits.length }

theorem overwritten_update (d : TextDocument) (edit : TextEdit) (rest : List TextEdit) :
    (d.update edit.newText).overwritten rest = d.overwritten (edit :: rest) := by
  have hversion : d.version + 1 + (rest.length : Int) = d.version + ((edit :: rest).length : Int) := by
    rw [List.length_cons]
    omega
  simp only [overwritten, update, lastText_cons, hversion]

theorem version_le (d : TextDocument) (edits : List TextEdit) :
    d.version ≤ (d.applyEdits edits).2.version := by
  induction edits generalizing d with
  | nil => exact Int.le_refl _
  | cons edit rest ih =>
      rw [applyEdits]
      split
      · have hrest := ih (d.update edit.newText)
        have hupdate : (d.update edit.newText).version = d.version + 1 := rfl
        omega
      · exact Int.le_refl _

/-- An edit that spans the whole document overwrites it. -/
theorem applyEdits_ne {d : TextDocument} {edit : TextEdit} (rest : List TextEdit)
    (spans : edit.range = Span.whole d.text) : (d.applyEdits (edit :: rest)).2 ≠ d := by
  intro hsame
  have hversion := (d.update edit.newText).version_le rest
  rw [applyEdits, if_pos spans] at hsame
  rw [hsame] at hversion
  have hupdate : (d.update edit.newText).version = d.version + 1 := rfl
  omega

/-- Edits that fit stay applied whatever follows them. -/
theorem applyEdits_append {d : TextDocument} {edits : List TextEdit}
    (fits : Overwrites d.text edits) (rest : List TextEdit) :
    d.applyEdits (edits ++ rest) = (d.overwritten edits).applyEdits rest := by
  induction edits generalizing d with
  | nil =>
      have hsame : d.overwritten [] = d := by simp [overwritten]
      rw [List.nil_append, hsame]
  | cons edit edits ih =>
      cases fits with
      | next spans others =>
          rw [List.cons_append, applyEdits, if_pos spans, ih others, overwritten_update]

theorem applyEdits_of_overwrites {d : TextDocument} {edits : List TextEdit}
    (fits : Overwrites d.text edits) : d.applyEdits edits = (true, d.overwritten edits) := by
  have happend := applyEdits_append fits []
  rwa [List.append_nil] at happend

theorem applyEdits_of_partial {d : TextDocument} {edit : TextEdit}
    (misses : edit.range ≠ Span.whole d.text) (rest : List TextEdit) :
    d.applyEdits (edit :: rest) = (false, d) := by
  rw [applyEdits, if_neg misses]

theorem overwrites_of_applyEdits {d : TextDocument} {edits : List TextEdit}
    (accepted : (d.applyEdits edits).1 = true) : Overwrites d.text edits := by
  induction edits generalizing d with
  | nil => exact .done d.text
  | cons edit rest ih =>
      rw [applyEdits] at accepted
      split at accepted
      · rename_i hspans
        exact .next hspans (ih (d := d.update edit.newText) accepted)
      · cases accepted

theorem applyEdits_accepts (d : TextDocument) (edits : List TextEdit) :
    (d.applyEdits edits).1 = true ↔ Overwrites d.text edits :=
  ⟨overwrites_of_applyEdits, fun fits => by rw [applyEdits_of_overwrites fits]⟩

end TextDocument

/-! ## Sinks of edits -/

namespace EditSink

variable {s : EditSink} {uri : String} {edits : List TextEdit} {d : TextDocument}

theorem apply_of_unknown (unknown : s.documents.get? uri = none) : s.apply uri edits = (false, s) := by
  rw [apply, unknown]

theorem apply_of_overwrites (found : s.documents.get? uri = some d)
    (fits : Overwrites d.text edits) :
    s.apply uri edits =
      (true, ⟨s.documents.put uri (d.overwritten edits), s.applied ++ [(uri, edits)]⟩) := by
  simp only [apply, found, TextDocument.applyEdits_of_overwrites fits, if_true]

theorem apply_of_partial (found : s.documents.get? uri = some d)
    (misses : ¬ Overwrites d.text edits) :
    s.apply uri edits =
      (false, { s with documents := s.documents.put uri (d.applyEdits edits).2 }) := by
  have hrefused : (d.applyEdits edits).1 = false := by
    rwa [← Bool.not_eq_true, TextDocument.applyEdits_accepts]
  simp only [apply, found, hrefused, Bool.false_eq_true, if_false]

/-- A series that is refused leaves everything as it was. One that is accepted is logged once, and no
document at another address changes. -/
structure Atomic (s : EditSink) (uri : String) (edits : List TextEdit) : Prop where
  refused : (s.apply uri edits).1 = false → (s.apply uri edits).2 = s
  logged : (s.apply uri edits).1 = true → (s.apply uri edits).2.applied = s.applied ++ [(uri, edits)]
  spares : (s.apply uri edits).1 = true → ∀ other, other ≠ uri →
    (s.apply uri edits).2.documents.get? other = s.documents.get? other

theorem atomic_of_unknown (unknown : s.documents.get? uri = none) : s.Atomic uri edits := by
  have happly : s.apply uri edits = (false, s) := apply_of_unknown unknown
  constructor <;> rw [happly]
  · exact fun _ => rfl
  · nofun
  · nofun

theorem atomic_of_overwrites (found : s.documents.get? uri = some d)
    (fits : Overwrites d.text edits) : s.Atomic uri edits := by
  have happly := apply_of_overwrites found fits
  constructor <;> rw [happly]
  · nofun
  · exact fun _ => rfl
  · exact fun _ other hother => Keyed.get?_put_of_ne _ hother

theorem atomic_of_partial {edit : TextEdit} {rest : List TextEdit}
    (found : s.documents.get? uri = some d) (misses : edit.range ≠ Span.whole d.text) :
    s.Atomic uri (edit :: rest) := by
  have hunfit : ¬ Overwrites d.text (edit :: rest) := by
    rintro ⟨⟩
    contradiction
  have happly : s.apply uri (edit :: rest) = (false, s) := by
    rw [apply_of_partial found hunfit, TextDocument.applyEdits_of_partial misses rest,
      Keyed.put_found found]
  constructor <;> rw [happly]
  · exact fun _ => rfl
  · nofun
  · nofun

/-- Edits are applied all or none exactly when a first one that replaces the whole text is followed by
such ones only. -/
theorem atomic_iff (s : EditSink) (uri : String) (edits : List TextEdit) :
    s.Atomic uri edits ↔
      ∀ d, s.documents.get? uri = some d → ∀ edit, edits.head? = some edit →
        edit.range = Span.whole d.text → Overwrites d.text edits := by
  constructor
  · intro atomic d hfound edit hfirst hspans
    obtain ⟨rest, rfl⟩ := List.head?_eq_some_iff.1 hfirst
    by_contra hunfit
    have happly := apply_of_partial hfound hunfit
    have hsame : s.documents.put uri (d.applyEdits (edit :: rest)).2 = s.documents := by
      have hrefused := atomic.refused (by rw [happly])
      rw [happly] at hrefused
      exact congrArg EditSink.documents hrefused
    -- The document of the address would be the old one, but its version was raised.
    have hput := Keyed.get?_put_self s.documents uri (d.applyEdits (edit :: rest)).2
    rw [hsame, hfound] at hput
    exact TextDocument.applyEdits_ne rest hspans (Option.some.inj hput).symm
  · intro fits
    cases hfound : s.documents.get? uri with
    | none => exact atomic_of_unknown hfound
    | some d =>
        cases edits with
        | nil => exact atomic_of_overwrites hfound (.done d.text)
        | cons edit rest =>
            by_cases hspans : edit.range = Span.whole d.text
            · exact atomic_of_overwrites hfound (fits d hfound edit rfl hspans)
            · exact atomic_of_partial hfound hspans

/-- The second edit does not span what the first one leaves, which stays all the same. -/
theorem exists_refused_altered :
    ¬ ∀ (s : EditSink) (uri : String) (edits : List TextEdit), s.Atomic uri edits := by
  intro h
  have hrefused := (h ⟨[("a", { uri := "a", text := "ab" })], []⟩ "a"
    [⟨Span.whole "ab", "cd"⟩, ⟨Span.ofCoordinates 0 0 0 1, "x"⟩]).refused (by decide)
  have hdocuments := congrArg EditSink.documents hrefused
  revert hdocuments
  decide

end EditSink

/-! ## Formatted texts -/

namespace TextDocument

/-- The document after a formatter has brought it to `formatted`. -/
def reformatted (d : TextDocument) (formatted : String) : TextDocument :=
  { d with text := formatted, version := if formatted = d.text then d.version else d.version + 1 }

theorem reformatted_self (d : TextDocument) : d.reformatted d.text = d := by
  unfold reformatted
  rw [if_pos rfl]

theorem reformatted_of_ne {d : TextDocument} {formatted : String} (h : formatted ≠ d.text) :
    d.reformatted formatted = d.update formatted := by
  unfold reformatted update
  rw [if_neg h]

end TextDocument

variable {source text formatted : String} {reports : Bool} {r : Report}

theorem Report.edits_eq_nil (clear : r.isBlocking = false) (h : r.formatted = some formatted) :
    r.edits text = [] ↔ formatted = text := by
  simp [Report.edits, h, clear]

theorem Report.isBlocking_of_failure {failure : Failure} (h : r.executionFailure = some failure) :
    r.isBlocking = true := by
  simp [Report.isBlocking, h]

theorem Report.isInconclusive_of_clear (clear : r.isBlocking = false) :
    r.isInconclusive = false := by
  have hnone : r.executionFailure = none := by
    cases hfailure : r.executionFailure with
    | none => rfl
    | some failure =>
        rw [r.isBlocking_of_failure hfailure] at clear
        cases clear
  rw [Report.isInconclusive, hnone]
  rfl

/-- The verdict on a tool that brought a text has nothing but the edits. -/
theorem FormatVerdict.ofReport_of_clear (clear : r.isBlocking = false)
    (output : r.formatted = some formatted) :
    FormatVerdict.ofReport source reports r text = { edits := r.edits text } := by
  have hconclusive := Report.isInconclusive_of_clear clear
  rw [ofReport, hconclusive, clear, output]
  rfl

theorem Report.edits_of_ne (clear : r.isBlocking = false) (output : r.formatted = some formatted)
    (h : formatted ≠ text) : r.edits text = [⟨Span.whole text, formatted⟩] := by
  simp [Report.edits, output, clear, h]

/-- The edits fit the text that they were made for, and bring the formatted one. -/
theorem Report.applyEdits (clear : r.isBlocking = false) (output : r.formatted = some formatted)
    (d : TextDocument) : d.applyEdits (r.edits d.text) = (true, d.reformatted formatted) := by
  by_cases hsame : formatted = d.text
  · rw [(r.edits_eq_nil clear output).2 hsame, hsame, d.reformatted_self]
    rfl
  · rw [Report.edits_of_ne clear output hsame, TextDocument.reformatted_of_ne hsame]
    simp only [TextDocument.applyEdits, if_true]

/-- What becomes of the verdict on a tool that was given `text` and brought `formatted`. -/
structure FormatVerdict.Brings (v : FormatVerdict) (text formatted : String) : Prop where
  silent : v.diagnostics = [] ∧ v.hasErrors = false ∧ v.inconclusive = false ∧ v.errorMessage = none
  changes : v.edits = [] ↔ formatted = text
  /-- A sink accepts the edits for a document that holds the text. -/
  sunk : ∀ (s : EditSink) (uri : String) (d : TextDocument), s.documents.get? uri = some d →
    d.text = text → s.apply uri v.edits =
      (true, ⟨s.documents.put uri (d.reformatted formatted), s.applied ++ [(uri, v.edits)]⟩)
  /-- A command hands out the formatted text. -/
  delivered : ∀ script : Command.Script, script.document.text = text →
    Command.Formatted.text ⟨script, v⟩ = pure formatted
  /-- Formatting the new text with the same outcome leaves it as it is. -/
  settled : ∀ (source : String) (reports : Bool) (r : Report), r.isBlocking = false →
    r.formatted = some formatted → (FormatVerdict.ofReport source reports r formatted).edits = []

/-- Whoever applies the edits of a tool comes to the text that the tool brought. -/
theorem FormatVerdict.ofReport_brings (clear : r.isBlocking = false)
    (output : r.formatted = some formatted) :
    (FormatVerdict.ofReport source reports r text).Brings text formatted := by
  rw [ofReport_of_clear clear output]
  refine ⟨⟨rfl, rfl, rfl, rfl⟩, r.edits_eq_nil clear output, ?_, ?_, ?_⟩
  · rintro s uri d hfound rfl
    simp only [EditSink.apply, hfound, Report.applyEdits clear output, if_true]
  · rintro script rfl
    have htext : Command.Formatted.text? ⟨script, { edits := r.edits script.document.text }⟩ =
        some formatted := by
      rw [Command.Formatted.text?, Report.applyEdits clear output]
      rfl
    rw [Command.Formatted.text, htext]
  · intro source reports r' clear' output'
    rw [ofReport_of_clear clear' output']
    exact (r'.edits_eq_nil clear' output').2 rfl

/-- A text without a line feed at its end is brought into one with two lines. -/
theorem FormatVerdict.ofReport_brings_lines :
    (FormatVerdict.ofReport "fmt" true { formatted := some "if a\r\n\tb\n" } "if a; b").Brings
      "if a; b" "if a\r\n\tb\n" :=
  ofReport_brings rfl rfl

end Shellwright
