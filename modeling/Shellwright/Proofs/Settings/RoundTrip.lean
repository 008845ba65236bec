import Shellwright.Proofs.Text.Lines
import Shellwright.Proofs.Wire.Reports
import Shellwright.Settings.Schema
/-!
# Settings read back

Reading brings settings into a normal form: paths without blanks around them, rule codes spelled in one
way and each once. Settings in normal form read back as they were written, so whatever has been read once
survives any number of times.
-/

namespace Shellwright

namespace Wire

/-! ## Values that are valid -/

namespace Checked

variable {α β : Type}

theorem both_eq_valid {c : Checked α} {c' : Checked β} {p : α × β} :
    c.both c' = .valid p ↔ c = .valid p.1 ∧ c' = .valid p.2 := by
  obtain ⟨a, b⟩ := p
  cases c <;> cases c' <;> simp [both]

theorem map_eq_valid {c : Checked α} {f : α → β} {b : β} :
    c.map f = .valid b ↔ ∃ a, c = .valid a ∧ f a = b := by
  cases c <;> simp [map]

theorem andThen_eq_valid {c : Checked α} {f : α → Checked β} {b : β} :
    c.andThen f = .valid b ↔ ∃ a, c = .valid a ∧ f a = .valid b := by
  cases c <;> simp [andThen]

theorem under_eq_valid {c : Checked α} {step : String} {a : α} :
    c.under step = .valid a ↔ c = .valid a := by
  cases c <;> simp [under]

end Checked

theorem record_eq_valid {α : Type} {read : Fields → Checked α} {d : Datum} {a : α} :
    Schema.record read d = .valid a ↔ ∃ fields, d = .table fields ∧ read fields = .valid a := by
  cases d <;> simp [Schema.record, Checked.fail]

/-- The schema gives normal values only, and takes them back as they are written. -/
structure Normalizes {α : Type} (schema : Schema α) (write : α → Datum) (normal : α → Prop) : Prop where
  gives : ∀ {d a}, schema d = .valid a → normal a
  takes : ∀ {a}, normal a → schema (write a) = .valid a

namespace Normalizes

variable {α : Type} {schema : Schema α} {write : α → Datum} {normal : α → Prop}

theorem withDefault (h : Normalizes schema write normal) {fields : Fields} {name : String}
    {fallback a : α} (given : fields.withDefault name schema fallback = .valid a)
    (settled : normal fallback) : normal a := by
  unfold Fields.withDefault at given
  split at given
  · exact h.gives (Checked.under_eq_valid.1 given)
  · cases given
    exact settled

theorem nat (low : Nat) (strict : Bool) :
    Normalizes (Schema.nat low strict) (fun n => .int n) (low ≤ ·) where
  gives {d n} h := by
    obtain ⟨m, -, hm⟩ := Checked.andThen_eq_valid.1 h
    split at hm
    · cases hm
    · cases hm
      omega
  takes {n} h := by
    have hlow : ¬ (n : Int) < low := by omega
    simp only [Schema.nat, Schema.int, Checked.andThen, if_neg hlow, Int.toNat_natCast]

end Normalizes

theorem takes_bool : Takes Schema.bool .bool := fun _ => rfl

end Wire

/-! ## Rule codes -/

namespace RuleCode

/-- The code is spelled as it is kept. -/
def IsCanonical (code : String) : Prop :=
  ofText? code = some code

/-- What reading makes of a text is a code spelled as it is kept. -/
theorem isCanonical_of_ofText? {s code : String} (h : ofText? s = some code) : IsCanonical code := by
  obtain ⟨hdigits, hcode⟩ := Option.ite_none_right_eq_some.1 h
  obtain rfl := Option.some.inj hcode
  generalize withoutLetters (Text.trim s.toList) = digits at hdigits ⊢
  have hsolid : ∀ c ∈ 'S' :: 'C' :: digits, Text.isBlank c = false := by
    refine List.forall_mem_cons.2 ⟨rfl, List.forall_mem_cons.2 ⟨rfl, fun c hc => ?_⟩⟩
    refine Bool.eq_false_iff.2 fun hblank => ?_
    have hdigit := List.all_eq_true.1 (Bool.and_eq_true_iff.1 hdigits).2 c hc
    rw [Text.isDigit_of_isBlank hblank] at hdigit
    cases hdigit
  have hletters : withoutLetters ('S' :: 'C' :: digits) = digits := rfl
  unfold IsCanonical ofText?
  rw [String.toList_ofList, Text.trim_of_no_blank hsolid, hletters]
  exact if_pos hdigits

/-- The codes are spelled as they are kept, and each stands there once. -/
structure AreKept (codes : List String) : Prop where
  canonical : ∀ code ∈ codes, IsCanonical code
  distinct : codes.Nodup

theorem AreKept.insert {codes : List String} (h : AreKept codes) {code : String}
    (canonical : IsCanonical code) : AreKept (insert codes code) := by
  unfold RuleCode.insert
  split
  · exact h
  · rename_i hnew
    have hnew : code ∉ codes := by simpa using hnew
    exact ⟨List.forall_mem_append.2 ⟨h.canonical, by simpa using canonical⟩,
      List.nodup_append.2 ⟨h.distinct, by simp, by
        rintro a ha b hb rfl
        exact hnew (List.mem_singleton.1 hb ▸ ha)⟩⟩

theorem areKept_of_collect {items : List Datum} {codes kept : List String}
    (h : collect codes items = .valid kept) (before : AreKept codes) : AreKept kept := by
  induction items generalizing codes with
  | nil =>
      cases h
      exact before
  | cons d rest ih =>
      unfold collect at h
      split at h
      · cases h
      · split at h
        · rename_i code hcode
          exact ih h (before.insert (isCanonical_of_ofText? hcode))
        · cases h

/-- Codes that are kept are collected as they are. -/
theorem collect_of_areKept {codes before : List String} (h : AreKept (before ++ codes)) :
    collect before (codes.map .text) = .valid (before ++ codes) := by
  induction codes generalizing before with
  | nil =>
      rw [List.append_nil]
      rfl
  | cons code rest ih =>
      have hcode : ofText? code = some code := h.canonical code (by simp)
      have hnew : code ∉ before := fun hmem =>
        (List.nodup_append.1 h.distinct).2.2 code hmem code List.mem_cons_self rfl
      have hinsert : RuleCode.insert before code = before ++ [code] := if_neg (by simpa using hnew)
      have hsplit : before ++ code :: rest = before ++ [code] ++ rest := by simp
      rw [hsplit] at h ⊢
      rw [List.map_cons, collect]
      simp only [Datum.isShort, Datum.plain, hcode, hinsert]
      exact ih h

end RuleCode

/-! ## Parts of settings -/

namespace Settings

open Wire

/-- The path has no blanks around it and is not empty. -/
def IsToolPath (path : String) : Prop :=
  Text.trimmed path = path ∧ path ≠ ""

theorem normalizes_toolPath : Normalizes toolPath .text IsToolPath where
  gives {d path} h := by
    obtain ⟨s, -, hs⟩ := Checked.andThen_eq_valid.1 h
    simp only at hs
    split at hs
    · cases hs
    · rename_i hfull
      cases hs
      refine ⟨?_, fun hempty => hfull (by rw [hempty]; rfl)⟩
      unfold Text.trimmed
      rw [String.toList_ofList, Text.trim_trim]
  takes {path} h := by
    obtain ⟨htrimmed, hfull⟩ := h
    have hempty : ¬ path.isEmpty = true := by simpa using hfull
    simp only [toolPath, Schema.text, Checked.andThen, htrimmed, if_neg hempty]

theorem takes_tabSize : Takes tabSize tabDatum := by
  intro size
  cases size with
  | ignore => rfl
  | editor => rfl
  | width n =>
      have hwidth : ¬ (n : Int) < 0 := by omega
      simp only [tabSize, tabDatum, Schema.int, if_neg hwidth, Int.toNat_natCast]

theorem normalizes_exclude : Normalizes excludeSchema (.ofList .text) RuleCode.AreKept where
  gives h := RuleCode.areKept_of_collect h ⟨by simp, List.nodup_nil⟩
  takes h := @RuleCode.collect_of_areKept _ [] h

theorem takes_level : Takes (Schema.member LintLevel.ofLabel?) fun level => .text level.label := by
  intro level
  cases level <;> rfl

theorem takes_onError : Takes (Schema.member OnError.ofLabel?) fun mode => .text mode.label := by
  intro mode
  cases mode <;> rfl

end Settings

/-! ## Tables of settings -/

open Wire Settings

namespace FormatterSettings

/-- The entries that are written of the settings of the formatter. -/
def fields (s : FormatterSettings) : Fields :=
  [("enabled", .bool s.enabled), ("path", .text s.path), ("tab_size", tabDatum s.tabSize),
    ("binary_next_line", .bool s.binaryNextLine), ("case_indent", .bool s.caseIndent),
    ("space_redirects", .bool s.spaceRedirects)]

def IsNormal (s : FormatterSettings) : Prop :=
  IsToolPath s.path

theorem normalizes : Normalizes formatterSchema (fun s => .table s.fields) IsNormal where
  gives {d s} h := by
    obtain ⟨fields, -, hread⟩ := record_eq_valid.1 h
    obtain ⟨⟨⟨enabled, path, rest⟩, _⟩, hboth, rfl⟩ := Checked.map_eq_valid.1 hread
    obtain ⟨hfields, -⟩ := Checked.both_eq_valid.1 hboth
    obtain ⟨-, hfields⟩ := Checked.both_eq_valid.1 hfields
    obtain ⟨hpath, -⟩ := Checked.both_eq_valid.1 hfields
    exact normalizes_toolPath.withDefault hpath ⟨rfl, by decide⟩
  takes {s} h := by
    simp only [formatterSchema, Schema.record]
    rw [Fields.withDefault_of_lookup s.fields rfl (takes_bool s.enabled),
      Fields.withDefault_of_lookup s.fields rfl (normalizes_toolPath.takes h),
      Fields.withDefault_of_lookup s.fields rfl (takes_tabSize s.tabSize),
      Fields.withDefault_of_lookup s.fields rfl (takes_bool s.binaryNextLine),
      Fields.withDefault_of_lookup s.fields rfl (takes_bool s.caseIndent),
      Fields.withDefault_of_lookup s.fields rfl (takes_bool s.spaceRedirects)]
    rfl

end FormatterSettings

namespace LinterSettings

def fields (s : LinterSettings) : Fields :=
  [("enabled", .bool s.enabled), ("path", .text s.path), ("exclude", .ofList .text s.exclude),
    ("severity", .ofOption (fun level => .text (LintLevel.label level)) s.severity),
    ("shell", .ofText? s.shell)]

structure IsNormal (s : LinterSettings) : Prop where
  path : IsToolPath s.path
  exclude : RuleCode.AreKept s.exclude

theorem normalizes : Normalizes linterSchema (fun s => .table s.fields) IsNormal where
  gives {d s} h := by
    obtain ⟨fields, -, hread⟩ := record_eq_valid.1 h
    obtain ⟨⟨⟨enabled, path, exclude, rest⟩, _⟩, hboth, rfl⟩ := Checked.map_eq_valid.1 hread
    obtain ⟨hfields, -⟩ := Checked.both_eq_valid.1 hboth
    obtain ⟨-, hfields⟩ := Checked.both_eq_valid.1 hfields
    obtain ⟨hpath, hfields⟩ := Checked.both_eq_valid.1 hfields
    obtain ⟨hexclude, -⟩ := Checked.both_eq_valid.1 hfields
    exact ⟨normalizes_toolPath.withDefault hpath ⟨rfl, by decide⟩,
      normalizes_exclude.withDefault hexclude ⟨by simp, List.nodup_nil⟩⟩
  takes {s} h := by
    simp only [linterSchema, Schema.record]
    rw [Fields.withDefault_of_lookup s.fields rfl (takes_bool s.enabled),
      Fields.withDefault_of_lookup s.fields rfl (normalizes_toolPath.takes h.path),
      Fields.withDefault_of_lookup s.fields rfl (normalizes_exclude.takes h.exclude),
      Fields.withDefault_of_lookup s.fields rfl (takes_level.optional nofun s.severity),
      Fields.withDefault_of_lookup s.fields rfl (Takes.optionalText s.shell)]
    rfl

end LinterSettings

namespace DiagnosisSettings

def fields (s : DiagnosisSettings) : Fields :=
  [("debounce_ms", .int s.debounce), ("timeout_ms", .int s.timeout),
    ("on_error", .text s.onError.label), ("diagnose_on_change", .bool s.onChange)]

def IsNormal (s : DiagnosisSettings) : Prop :=
  1 ≤ s.timeout

theorem normalizes : Normalizes diagnosisSchema (fun s => .table s.fields) IsNormal where
  gives {d s} h := by
    obtain ⟨fields, -, hread⟩ := record_eq_valid.1 h
    obtain ⟨⟨⟨debounce, timeout, rest⟩, _⟩, hboth, rfl⟩ := Checked.map_eq_valid.1 hread
    obtain ⟨hfields, -⟩ := Checked.both_eq_valid.1 hboth
    obtain ⟨-, hfields⟩ := Checked.both_eq_valid.1 hfields
    obtain ⟨htimeout, -⟩ := Checked.both_eq_valid.1 hfields
    exact (Normalizes.nat 1 true).withDefault htimeout (by decide)
  takes {s} h := by
    simp only [diagnosisSchema, Schema.record]
    rw [Fields.withDefault_of_lookup s.fields rfl ((Normalizes.nat 0 false).takes (Nat.zero_le s.debounce)),
      Fields.withDefault_of_lookup s.fields rfl ((Normalizes.nat 1 true).takes h),
      Fields.withDefault_of_lookup s.fields rfl (takes_onError s.onError),
      Fields.withDefault_of_lookup s.fields rfl (takes_bool s.onChange)]
    rfl

end DiagnosisSettings

namespace Settings

def fields (s : Settings) : Fields :=
  [("shfmt", .table s.formatter.fields), ("shellcheck", .table s.linter.fields),
    ("diagnosis", .table s.diagnosis.fields), ("editor_tab_size", .int s.editorTabSize)]

theorem toDatum_eq (s : Settings) : s.toDatum = .table s.fields := rfl

/-- Nothing is left to be brought into form: paths and rule codes are as they are kept, and the numbers
are large enough. -/
structure IsNormal (s : Settings) : Prop where
  formatter : s.formatter.IsNormal
  linter : s.linter.IsNormal
  diagnosis : s.diagnosis.IsNormal
  editorTabSize : 1 ≤ s.editorTabSize

theorem isNormal_default : ({} : Settings).IsNormal where
  formatter := ⟨rfl, by decide⟩
  linter := ⟨⟨rfl, by decide⟩, ⟨by simp, List.nodup_nil⟩⟩
  diagnosis := Nat.le_of_ble_eq_true rfl
  editorTabSize := by decide

theorem normalizes : Normalizes schema toDatum IsNormal where
  gives {d s} h := by
    obtain ⟨fields, -, hread⟩ := record_eq_valid.1 h
    obtain ⟨⟨⟨formatter, linter, diagnosis, editorTabSize⟩, _⟩, hboth, rfl⟩ := Checked.map_eq_valid.1 hread
    obtain ⟨hfields, -⟩ := Checked.both_eq_valid.1 hboth
    obtain ⟨hformatter, hfields⟩ := Checked.both_eq_valid.1 hfields
    obtain ⟨hlinter, hfields⟩ := Checked.both_eq_valid.1 hfields
    obtain ⟨hdiagnosis, htab⟩ := Checked.both_eq_valid.1 hfields
    exact ⟨FormatterSettings.normalizes.withDefault hformatter isNormal_default.formatter,
      LinterSettings.normalizes.withDefault hlinter isNormal_default.linter,
      DiagnosisSettings.normalizes.withDefault hdiagnosis isNormal_default.diagnosis,
      (Normalizes.nat 1 false).withDefault htab isNormal_default.editorTabSize⟩
  takes {s} h := by
    rw [toDatum_eq]
    simp only [schema, Schema.record]
    rw [Fields.withDefault_of_lookup s.fields rfl (FormatterSettings.normalizes.takes h.formatter),
      Fields.withDefault_of_lookup s.fields rfl (LinterSettings.normalizes.takes h.linter),
      Fields.withDefault_of_lookup s.fields rfl (DiagnosisSettings.normalizes.takes h.diagnosis),
      Fields.withDefault_of_lookup s.fields rfl ((Normalizes.nat 1 false).takes h.editorTabSize)]
    rfl

/-! ## Reading -/

theorem isNormal_of_read {d : Datum} {s : Settings} (h : read d = .ok s) : s.IsNormal := by
  unfold read at h
  split at h
  · cases h
  · split at h
    · cases h
    · split at h
      · rename_i hvalid
        cases h
        exact normalizes.gives (Checked.both_eq_valid.1 hvalid).1
      · cases h

theorem read_toDatum {s : Settings} (h : s.IsNormal) : read s.toDatum = .ok s := by
  have hschema : schema (.table s.fields) = .valid s := normalizes.takes h
  have hlists : ((excludeValue? s.fields).any fun v => (RuleCode.entries? v).isNone) = false := rfl
  rw [toDatum_eq, read]
  simp only [Entries.ofDatum, hlists, hschema]
  rfl

/-- The settings that can be read from something are those in normal form. -/
theorem exists_read_iff (s : Settings) : (∃ d, read d = .ok s) ↔ s.IsNormal :=
  ⟨fun ⟨_, h⟩ => isNormal_of_read h, fun h => ⟨s.toDatum, read_toDatum h⟩⟩

/-- Settings that have been read survive being written and read again, however they were spelled. -/
theorem read_toDatum_of_read {d : Datum} {s : Settings} (h : read d = .ok s) :
    read s.toDatum = .ok s :=
  read_toDatum (isNormal_of_read h)

/-- Settings in a loose spelling: blanks around a path, a width and a flag as texts, and a code in three
forms. -/
def looselySpelled : Datum :=
  .table
    [("shfmt", .table [("path", .text " shfmt "), ("tab_size", .text "4"), ("enabled", .text "no")]),
      ("shellcheck", .table
        [("exclude", .ofList .text ["2034", " sc2086", "sc2034", "SC2034"]), ("severity", .text "style"),
          ("shell", .text "bash")])]

/-- The same settings in normal form. -/
def spelledOut : Settings where
  formatter := { enabled := false, tabSize := .width 4 }
  linter := { exclude := ["SC2034", "SC2086"], severity := some .style, shell := some "bash" }

theorem read_toDatum_looselySpelled :
    read looselySpelled = .ok spelledOut ∧ read spelledOut.toDatum = .ok spelledOut := by
  have hread : read looselySpelled = .ok spelledOut := rfl
  exact ⟨hread, read_toDatum_of_read hread⟩

end Settings

end Shellwright
