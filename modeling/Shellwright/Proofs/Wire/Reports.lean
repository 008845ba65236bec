import Shellwright.Wire.Encode
/-!
# Records pass their own rules

A report that is written field by field is taken by the rules for reports, which give it back. So no
report can be made that would not be a valid one. The same holds of diagnostics.
-/

namespace Shellwright.Wire

/-- The rules take every value as it is written, and give it back. -/
def Takes {α : Type} (schema : Schema α) (write : α → Datum) : Prop :=
  ∀ a, schema (write a) = .valid a

namespace Takes

variable {α : Type} {schema : Schema α} {write : α → Datum}

theorem text : Takes Schema.text .text := fun _ => rfl

theorem optional (h : Takes schema write) (solid : ∀ a, write a ≠ .null) :
    Takes (Schema.optional schema) (.ofOption write) := by
  intro a
  cases a with
  | none => rfl
  | some a =>
      change Schema.optional schema (write a) = _
      unfold Schema.optional
      split
      · rename_i hnull
        exact absurd hnull (solid a)
      · rw [h a]
        rfl

theorem optionalText : Takes (Schema.optional Schema.text) .ofText? :=
  text.optional nofun

theorem list (h : Takes schema write) : Takes (Schema.list schema) (.ofList write) := by
  -- The number of an item only tells where a problem is, so any numbering will do.
  have hall : ∀ (items : List α) (number : Nat → String), Checked.all
      ((items.map write).mapIdx fun i d => (schema d).under (number i)) = .valid items := by
    intro items
    induction items with
    | nil => exact fun _ => rfl
    | cons a rest ih =>
        intro number
        rw [List.map_cons, List.mapIdx_cons, Checked.all, ih fun i => number (i + 1), h a]
        rfl
  exact fun items => hall items toString

end Takes

theorem Fields.withDefault_of_lookup {α : Type} (fields : Fields) {name : String} {schema : Schema α}
    {d : Datum} {a : α} (found : List.lookup name fields = some d) (valid : schema d = .valid a)
    (value : α) : fields.withDefault name schema value = .valid a := by
  unfold Fields.withDefault
  rw [found]
  simp only [valid]
  rfl

theorem takes_failure : Takes failureRecord Failure.toDatum := by
  intro failure
  cases failure with
  | cancelled message => rfl
  | timeout message limit => rfl
  | spawn message code reason => cases code <;> cases reason <;> rfl

theorem takes_issue : Takes issueRecord Issue.toDatum := by
  intro issue
  cases issue with
  | syntaxError i => rfl
  | misformat i => rfl
  | lint i =>
      obtain ⟨line, column, level, code, message⟩ := i
      cases level <;> rfl

/-- Every report is a valid one. -/
theorem takes_report : Takes reportRecord Report.toDatum := by
  intro r
  have hsolid : ∀ f : Failure, f.toDatum ≠ .null := by
    intro f
    cases f <;> exact nofun
  change Checked.map _ (Checked.both _ _) = _
  rw [Fields.withDefault_of_lookup r.fields rfl (takes_issue.list r.issues),
    Fields.withDefault_of_lookup r.fields rfl (Takes.optionalText r.formatted),
    Fields.withDefault_of_lookup r.fields rfl
      (takes_failure.optional hsolid r.executionFailure),
    Fields.withDefault_of_lookup r.fields rfl (Takes.optionalText r.failure),
    Fields.withDefault_of_lookup r.fields rfl (Takes.optionalText r.command)]
  rfl

/-- Every diagnostic is a valid one. -/
theorem takes_diagnostic : Takes diagnosticRecord Diagnostic.toDatum := by
  rintro ⟨range, message, severity, code, source⟩
  cases severity <;> cases code <;> rfl

end Shellwright.Wire
