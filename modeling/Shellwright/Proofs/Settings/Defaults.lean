import Shellwright.Proofs.Settings.Layers
import Shellwright.Proofs.Settings.RoundTrip
/-!
# Defaults under all layers

The defaults are there twice: a key that is missing is read as its default, and the defaults are written
out as the lowest layer. Whatever layers follow, one makes up for the other.
-/

namespace Shellwright.Settings

open Datum Wire

/-! ## Layers over a bottom -/

/-- The second value is what the layers that made the first make of it when `lower` lies below them: a
table has the entries of `lower` as well, unless something other than a table came between. -/
inductive Underlaid : Option Datum → Datum → Datum → Prop
  | same (lower : Option Datum) (d : Datum) : Underlaid lower d d
  | table (lower entries entries' : List (String × Datum))
      (keys : Keyed.keys entries' =
        Keyed.keys lower ++ (Keyed.keys entries).filter (· ∉ Keyed.keys lower))
      (missing : ∀ key, Keyed.get? entries key = none →
        Keyed.get? entries' key = Keyed.get? lower key)
      (found : ∀ key d d', Keyed.get? entries key = some d → Keyed.get? entries' key = some d' →
        Underlaid (Keyed.get? lower key) d d') :
      Underlaid (some (.table lower)) (.table entries) (.table entries')

/-- A first layer over the bottom. -/
theorem underlaid_overlay {upper : Datum} (tidy : upper.Tidy) (lower : Option Datum) :
    Underlaid lower upper (overlay lower upper) := by
  induction tidy generalizing lower with
  | other d solid =>
      rw [overlay_of_solid solid]
      exact .same lower d
  | table entries distinct inner ih =>
      match lower with
      | some (.table below) =>
          rw [overlay_table]
          refine .table _ _ _ (keys_overlayEntries distinct below) (fun key hkey => ?_)
            fun key d d' hd hd' => ?_
          · rw [get?_overlayEntries distinct, hkey]
            rfl
          · rw [get?_overlayEntries distinct, hd] at hd'
            obtain rfl : overlay (Keyed.get? below key) d = d' := Option.some.inj hd'
            exact ih _ (Keyed.mem_of_get? hd) (Keyed.get? below key)
      | none => exact .same _ _
      | some .null => exact .same _ _
      | some (.bool _) => exact .same _ _
      | some (.int _) => exact .same _ _
      | some (.float _) => exact .same _ _
      | some (.text _) => exact .same _ _
      | some (.list _) => exact .same _ _
      | some (.moment _) => exact .same _ _

namespace Underlaid

variable {lower : Option Datum} {below entries entries' : List (String × Datum)} {d d' upper : Datum}
  {key : String}

theorem get? (h : Underlaid (some (.table below)) (.table entries) (.table entries'))
    (found : Keyed.get? entries key = some d) :
    ∃ d', Keyed.get? entries' key = some d' ∧ Underlaid (Keyed.get? below key) d d' := by
  cases h with
  | same => exact ⟨d, found, .same _ d⟩
  | table _ _ _ hkeys _ hfound =>
      have hmem : key ∈ Keyed.keys entries := by
        by_contra hnot
        rw [Keyed.get?_eq_none_iff.2 hnot] at found
        cases found
      have hmem' : key ∈ Keyed.keys entries' := by
        rw [hkeys]
        by_cases hbelow : key ∈ Keyed.keys below <;> simp [hbelow, hmem]
      cases hget : Keyed.get? entries' key with
      | none => exact absurd hmem' (Keyed.get?_eq_none_iff.1 hget)
      | some d' => exact ⟨d', rfl, hfound key d d' found hget⟩

/-- One more layer. -/
theorem overlay (tidy : upper.Tidy) (h : Underlaid lower d d') :
    Underlaid lower (Settings.overlay (some d) upper) (Settings.overlay (some d') upper) := by
  induction tidy generalizing lower d d' with
  | other upper solid =>
      rw [overlay_of_solid solid, overlay_of_solid solid]
      exact .same lower upper
  | table upper distinct inner ih =>
      cases h with
      | same => exact .same _ _
      | table below entries entries' hkeys hmissing hfound =>
          have hlaid : Underlaid (some (.table below)) (.table entries) (.table entries') :=
            .table _ _ _ hkeys hmissing hfound
          rw [overlay_table, overlay_table]
          refine .table _ _ _ ?_ (fun key hkey => ?_) fun key d d' hd hd' => ?_
          · rw [keys_overlayEntries distinct, keys_overlayEntries distinct, hkeys, List.append_assoc,
              List.filter_append, List.filter_filter]
            refine congrArg _ (congrArg _ (List.filter_congr fun key _ => ?_))
            by_cases hbelow : key ∈ Keyed.keys below <;> simp [hbelow]
          · rw [get?_overlayEntries distinct] at hkey ⊢
            cases hupper : Keyed.get? upper key with
            | none =>
                rw [hupper] at hkey
                exact hmissing key hkey
            | some e =>
                rw [hupper] at hkey
                cases hkey
          · rw [get?_overlayEntries distinct] at hd hd'
            cases hupper : Keyed.get? upper key with
            | none =>
                rw [hupper] at hd hd'
                exact hfound key d d' hd hd'
            | some e =>
                rw [hupper] at hd hd'
                cases hd
                cases hd'
                have htidy := inner _ (Keyed.mem_of_get? hupper)
                cases hentry : Keyed.get? entries key with
                | none =>
                    rw [overlay_none, hmissing key hentry]
                    exact underlaid_overlay htidy _
                | some a =>
                    obtain ⟨a', ha', hlaid⟩ := hlaid.get? hentry
                    rw [ha']
                    exact ih _ (Keyed.mem_of_get? hupper) hlaid

/-- All layers, up to the first that is no table. -/
theorem mergeLayers {layers : List Layer} (tidy : ∀ l ∈ layers, l.content.Tidy)
    (h : Underlaid (some (.table below)) (.table entries) (.table entries')) :
    (∃ e, Settings.mergeLayers entries layers = .error e ∧
      Settings.mergeLayers entries' layers = .error e) ∨
    ∃ merged merged', Settings.mergeLayers entries layers = .ok merged ∧
      Settings.mergeLayers entries' layers = .ok merged' ∧
      Underlaid (some (.table below)) (.table merged) (.table merged') := by
  induction layers generalizing entries entries' with
  | nil => exact .inr ⟨entries, entries', rfl, rfl, h⟩
  | cons l rest ih =>
      obtain ⟨htidy, hrest⟩ := List.forall_mem_cons.1 tidy
      unfold Settings.mergeLayers
      cases hentries : l.entries with
      | error e => exact .inl ⟨e, rfl, rfl⟩
      | ok upper =>
          have hcontent : l.content = .table upper := by
            unfold Layer.entries at hentries
            split at hentries
            · rename_i hcontent
              cases hentries
              exact hcontent
            · cases hentries
          rw [hcontent] at htidy
          have hlaid := h.overlay htidy
          rw [overlay_table, overlay_table] at hlaid
          exact ih hrest hlaid

end Underlaid

/-! ## Reading what lies over defaults -/

/-- The schema reads `value` from `lower`, and what has `lower` below it as if it had not. -/
structure Overlooks {α : Type} (schema : Schema α) (lower : Datum) (value : α) : Prop where
  reads : schema lower = .valid value
  same : ∀ {d d'}, Underlaid (some lower) d d' → schema d' = schema d

section

variable {α : Type} {schema : Schema α} {lower : Datum} {value : α}
  {below entries entries' : List (String × Datum)} {name : String}

/-- Over anything but a table every layer replaces the whole. -/
theorem Underlaid.eq_of_solid {d d' : Datum} (h : Underlaid (some lower) d d')
    (solid : ∀ below, lower ≠ .table below) : d' = d := by
  cases h with
  | same => rfl
  | table below => exact absurd rfl (solid below)

theorem overlooks_of_solid (solid : ∀ below, lower ≠ .table below) (reads : schema lower = .valid value) :
    Overlooks schema lower value :=
  ⟨reads, fun h => by rw [h.eq_of_solid solid]⟩

/-- A key that is missing reads as its default, and so does what is below it. -/
theorem Underlaid.withDefault (h : Underlaid (some (.table below)) (.table entries) (.table entries'))
    (name : String) (written : Keyed.get? below name = some lower)
    (overlooks : Overlooks schema lower value) :
    Fields.withDefault entries' name schema value = Fields.withDefault entries name schema value := by
  unfold Fields.withDefault
  rw [Keyed.lookup_eq, Keyed.lookup_eq]
  cases hentry : Keyed.get? entries name with
  | some d =>
      obtain ⟨d', hd', hlaid⟩ := h.get? hentry
      rw [written] at hlaid
      simp only [hd', overlooks.same hlaid]
  | none =>
      cases h with
      | same => rw [hentry]
      | table _ _ _ _ hmissing _ =>
          simp only [hmissing name hentry, written]
          exact Checked.under_eq_valid.2 overlooks.reads

theorem onlyKnown_eq (fields : Fields) (known : List String) :
    fields.onlyKnown known =
      match (Keyed.keys fields).filter (· ∉ known) with
      | [] => .valid ()
      | unknown => .invalid (unknown.map fun key => ⟨[key], .extra⟩) := by
  have hkeys : (Keyed.keys fields).filter (· ∉ known) =
      (fields.filter fun f => !known.contains f.1).map Prod.fst := by
    rw [Keyed.keys, List.filter_map]
    refine congrArg _ (List.filter_congr fun f _ => ?_)
    simp
  rw [hkeys, Fields.onlyKnown]
  cases fields.filter fun f => !known.contains f.1 <;> simp

/-- Only keys that are known are below. -/
theorem Underlaid.onlyKnown (h : Underlaid (some (.table below)) (.table entries) (.table entries'))
    (known : List String) (written : Keyed.keys below = known) :
    Fields.onlyKnown entries' known = Fields.onlyKnown entries known := by
  subst written
  cases h with
  | same => rfl
  | table _ _ _ hkeys _ _ =>
      have hbelow : (Keyed.keys below).filter (· ∉ Keyed.keys below) = [] :=
        List.filter_eq_nil_iff.2 fun key hkey => by simp [hkey]
      rw [onlyKnown_eq, onlyKnown_eq, hkeys, List.filter_append, List.filter_filter, hbelow]
      simp

theorem overlooks_record {read : Fields → Checked α} (reads : read below = .valid value)
    (same : ∀ {entries entries'}, Underlaid (some (.table below)) (.table entries) (.table entries') →
      read entries' = read entries) : Overlooks (Schema.record read) (.table below) value where
  reads := reads
  same h := by
    cases h with
    | same => rfl
    | table _ _ _ hkeys hmissing hfound => exact same (.table _ _ _ hkeys hmissing hfound)

end

theorem overlooks_formatter : Overlooks formatterSchema (.table (FormatterSettings.fields {})) {} := by
  refine overlooks_record (FormatterSettings.normalizes.takes isNormal_default.formatter) fun h => ?_
  simp only []
  rw [h.withDefault "enabled" rfl (overlooks_of_solid nofun (takes_bool true)),
    h.withDefault "path" rfl
      (overlooks_of_solid nofun (normalizes_toolPath.takes isNormal_default.formatter)),
    h.withDefault "tab_size" rfl (overlooks_of_solid nofun (takes_tabSize .editor)),
    h.withDefault "binary_next_line" rfl (overlooks_of_solid nofun (takes_bool true)),
    h.withDefault "case_indent" rfl (overlooks_of_solid nofun (takes_bool true)),
    h.withDefault "space_redirects" rfl (overlooks_of_solid nofun (takes_bool true)), h.onlyKnown formatterFields rfl]

theorem overlooks_linter : Overlooks linterSchema (.table (LinterSettings.fields {})) {} := by
  refine overlooks_record (LinterSettings.normalizes.takes isNormal_default.linter) fun h => ?_
  simp only []
  rw [h.withDefault "enabled" rfl (overlooks_of_solid nofun (takes_bool true)),
    h.withDefault "path" rfl
      (overlooks_of_solid nofun (normalizes_toolPath.takes isNormal_default.linter.path)),
    h.withDefault "exclude" rfl
      (overlooks_of_solid nofun (normalizes_exclude.takes isNormal_default.linter.exclude)),
    h.withDefault "severity" rfl (overlooks_of_solid nofun (takes_level.optional nofun none)),
    h.withDefault "shell" rfl (overlooks_of_solid nofun (Takes.optionalText none)), h.onlyKnown linterFields rfl]

theorem overlooks_diagnosis : Overlooks diagnosisSchema (.table (DiagnosisSettings.fields {})) {} := by
  refine overlooks_record (DiagnosisSettings.normalizes.takes isNormal_default.diagnosis) fun h => ?_
  simp only []
  rw [h.withDefault "debounce_ms" rfl
      (overlooks_of_solid nofun ((Normalizes.nat 0 false).takes (Nat.zero_le 300))),
    h.withDefault "timeout_ms" rfl
      (overlooks_of_solid nofun ((Normalizes.nat 1 true).takes isNormal_default.diagnosis)),
    h.withDefault "on_error" rfl (overlooks_of_solid nofun (takes_onError .showProblem)),
    h.withDefault "diagnose_on_change" rfl (overlooks_of_solid nofun (takes_bool true)), h.onlyKnown diagnosisFields rfl]

theorem overlooks_settings : Overlooks schema (.table (fields {})) {} := by
  refine overlooks_record (normalizes.takes isNormal_default) fun h => ?_
  simp only []
  rw [h.withDefault "shfmt" rfl overlooks_formatter, h.withDefault "shellcheck" rfl overlooks_linter,
    h.withDefault "diagnosis" rfl overlooks_diagnosis,
    h.withDefault "editor_tab_size" rfl
      (overlooks_of_solid nofun ((Normalizes.nat 1 false).takes isNormal_default.editorTabSize)),
    h.onlyKnown settingsFields rfl]

theorem excludeValue?_eq (entries : Fields) :
    excludeValue? entries = (Keyed.get? entries "shellcheck").bind fun linter => linter.get? "exclude" := by
  rw [excludeValue?, Keyed.lookup_eq]

/-- The rules to leave out are looked at before anything else; the defaults leave out none. -/
theorem Underlaid.isUnlistable {entries entries' : List (String × Datum)}
    (h : Underlaid (some (.table (fields {}))) (.table entries) (.table entries')) :
    ((excludeValue? entries').any fun v => (RuleCode.entries? v).isNone) =
      (excludeValue? entries).any fun v => (RuleCode.entries? v).isNone := by
  rw [excludeValue?_eq, excludeValue?_eq]
  cases hlinter : Keyed.get? entries "shellcheck" with
  | none =>
      cases h with
      | same => rw [hlinter]
      | table _ _ _ _ hmissing _ =>
          rw [hmissing _ hlinter]
          rfl
  | some d =>
      obtain ⟨d', hd', hlaid⟩ := h.get? hlinter
      rw [hd']
      have hlaid : Underlaid (some (.table (LinterSettings.fields {}))) d d' := hlaid
      cases hlaid with
      | same => rfl
      | table _ below below' hkeys hmissing hfound =>
          simp only [Option.bind_some, get?_table]
          cases hexclude : Keyed.get? below "exclude" with
          | none =>
              rw [hmissing _ hexclude]
              rfl
          | some v =>
              obtain ⟨v', hv', hsame⟩ := (Underlaid.table _ _ _ hkeys hmissing hfound).get? hexclude
              have hsame : Underlaid (some (.list [])) v v' := hsame
              rw [hv', hsame.eq_of_solid (by simp)]

theorem Underlaid.read {entries entries' : List (String × Datum)}
    (h : Underlaid (some (.table (fields {}))) (.table entries) (.table entries')) :
    read (.table entries') = read (.table entries) := by
  unfold Settings.read
  simp only [Entries.ofDatum]
  rw [h.isUnlistable, overlooks_settings.same h]
  rfl

/-- The defaults as a layer under any others are neutral: the settings are the same with them and
without them, and so is what is wrong with the settings. -/
theorem ofLayers_defaultLayer (layers : List Layer) (tidy : ∀ l ∈ layers, l.content.Tidy) :
    ofLayers (defaultLayer :: layers) = ofLayers layers := by
  have hbottom : Underlaid (some (.table (fields {}))) (.table []) (.table (fields {})) :=
    .table _ _ _ (by simp [Keyed.keys]) (fun _ _ => rfl) fun key d d' hd => nomatch hd
  have hfirst : mergeLayers [] (defaultLayer :: layers) = mergeLayers (fields {}) layers := by
    have hdistinct : (Keyed.keys (fields {})).Nodup := by decide
    change mergeLayers (overlayEntries [] (fields {})) layers = _
    rw [overlayEntries_nil hdistinct]
  unfold ofLayers
  rw [hfirst]
  obtain ⟨e, hwithout, hwith⟩ | ⟨merged, merged', hwithout, hwith, hlaid⟩ := hbottom.mergeLayers tidy
  · rw [hwithout, hwith]
  · rw [hwithout, hwith]
    change readTable (.table merged') = readTable (.table merged)
    unfold readTable
    rw [hlaid.read]

/-- Two layers: the first has another width and a key that is not known, the second has something other
than a table for the linter. -/
def wrongLayers : List Layer :=
  [⟨"a project file", .table [("editor_tab_size", .int 2), ("colour", .bool true)]⟩,
    ⟨"a settings file", .table [("shellcheck", .int 0)]⟩]

theorem ofLayers_defaultLayer_wrong :
    ofLayers (defaultLayer :: wrongLayers) = ofLayers wrongLayers ∧
      ofLayers wrongLayers = .error (.invalid [⟨["shellcheck"], .notRecord⟩, ⟨["colour"], .extra⟩]) := by
  refine ⟨ofLayers_defaultLayer wrongLayers fun l hl => tidy_of_isTidy _ ?_, rfl⟩
  have hall : ∀ l ∈ wrongLayers, l.content.isTidy = true := by
    decide
  exact hall l hl

end Shellwright.Settings
