import Shellwright.Proofs.Command.Work
/-!
# Settings are had or complained about

Whoever asks for the settings of a project gets them or learns what is wrong with them, as long as every
file that is turned to can be read to its first mistake and the rules to leave out are given by a value
that lists something.
-/

namespace Shellwright

/-- The value has parts, or stands for none. -/
def Datum.isListable : Datum → Bool
  | .null => true
  | .text _ => true
  | .list _ => true
  | .table _ => true
  | _ => false

namespace Settings

open Files

/-- The error tells the user what is wrong with the settings. -/
def SettingsError.isComplaint : SettingsError → Bool
  | .unreadable _ => true
  | .invalid _ => true
  | _ => false

def ProjectError.isComplaint : ProjectError → Bool
  | .settings e => e.isComplaint
  | _ => false

/-- The error concerns the settings or the place of the project, and not its files. -/
def ProjectError.isExpected : ProjectError → Bool
  | .file _ => true
  | e => e.isComplaint

/-- There is a result, or else a complaint. -/
def Settled {ε α : Type} (complains : ε → Bool) (result : Except ε α) : Prop :=
  ∀ e, result = .error e → complains e = true

/-- The bytes are text, and the reading of it comes to its end or to a mistake. -/
def IsLegible (bytes : List UInt8) : Prop :=
  ∃ text, Text.Utf8.decode? bytes = some text ∧
    Toml.parse text ≠ .error .tooManyDigits ∧ Toml.parse text ≠ .error .nestedTooDeeply

/-- The value given for the rules to leave out, if there is one, lists something. -/
def ListsRules (entries : List (String × Datum)) : Prop :=
  ∀ v, excludeValue? entries = some v → v.isListable = true

/-- The file of the source is legible if it is there. -/
def Source.IsLegible (t : Tree) (s : Source) : Prop :=
  ∀ path bytes, s.path? = some path → t.bytes path = .ok bytes → Settings.IsLegible bytes

/-- One can ask for the file of the source. -/
def Source.IsNamed (t : Tree) (s : Source) : Prop :=
  ∀ path, s.path? = some path → t.askFile path ≠ .error .nameTooLong

/-- The sources that are turned to, which end with the first that fails. -/
def turnedTo (t : Tree) : List Source → List Source
  | [] => []
  | s :: rest => s :: if (s.load t).isOk then turnedTo t rest else []

/-- The project has a place, and one can ask for its files. -/
structure IsLocated (t : Tree) (root : String) (named : Option String) : Prop where
  place : ∀ e, sourcesOf t root named ≠ .error (.file e)
  files : ∀ sources, sourcesOf t root named = .ok sources → ∀ s ∈ sources, s.IsNamed t

/-- The files that are turned to are legible, and what they say of the rules to leave out lists
something. -/
structure IsReadable (t : Tree) (sources : List Source) : Prop where
  legible : ∀ s ∈ turnedTo t sources, s.IsLegible t
  rules : ∀ layers entries, sources.mapM (Source.load t) = .ok layers →
    mergeLayers [] layers = .ok entries → ListsRules entries

variable {ε α β : Type} {complains : ε → Bool} {t : Tree}

/-! ## Results and complaints -/

theorem settled_ok (a : α) : Settled complains (.ok a) := nofun

theorem settled_error {e : ε} : Settled complains (.error e : Except ε α) ↔ complains e = true := by
  constructor
  · intro h
    exact h e rfl
  · rintro h e' ⟨⟩
    exact h

/-- A step is settled with the steps that follow it. -/
theorem settled_bind {x : Except ε α} {f : α → Except ε β} :
    Settled complains (x >>= f) ↔
      Settled complains x ∧ ∀ a, x = .ok a → Settled complains (f a) := by
  cases x with
  | ok a =>
      constructor
      · intro h
        refine ⟨settled_ok a, ?_⟩
        rintro a' ⟨⟩
        exact h
      · rintro ⟨_, h⟩
        exact h a rfl
  | error e =>
      constructor
      · intro h
        exact ⟨settled_error.2 (settled_error.1 h), nofun⟩
      · rintro ⟨h, _⟩
        exact settled_error.2 (settled_error.1 h)

theorem settled_mapError {ε' : Type} {complains : ε' → Bool} {f : ε → ε'} {x : Except ε α} :
    Settled complains (x.mapError f) ↔ Settled (fun e => complains (f e)) x := by
  cases x with
  | ok a => exact iff_of_true (settled_ok _) (settled_ok a)
  | error e =>
      have hkept : Settled (fun e => complains (f e)) (.error e : Except ε α) ↔ complains (f e) = true :=
        settled_error
      exact Iff.trans settled_error hkept.symm

/-! ## Values -/

theorem isSome_entries? (v : Datum) : (RuleCode.entries? v).isSome = v.isListable := by
  cases v <;> rfl

/-- A table of any values gives settings or a complaint exactly when the rules to leave out are listed. -/
theorem readTable_settled_iff (entries : List (String × Datum)) :
    Settled SettingsError.isComplaint (readTable (.table entries)) ↔ ListsRules entries := by
  have hlists : ListsRules entries ↔
      ((excludeValue? entries).any fun v => (RuleCode.entries? v).isNone) = false := by
    unfold ListsRules
    cases excludeValue? entries with
    | none => simp
    | some v =>
        have hv := isSome_entries? v
        cases hentries : RuleCode.entries? v with
        | none => simp_all
        | some listed => simp_all
  rw [hlists]
  unfold readTable read
  simp only [Wire.Entries.ofDatum]
  cases hany : (excludeValue? entries).any fun v => (RuleCode.entries? v).isNone with
  | true => simp [settled_error, SettingsError.isComplaint]
  | false =>
      simp only [Bool.false_eq_true, if_false, iff_true]
      cases (schema (.table entries)).both (Wire.Entries.keyProblems ⟨entries, []⟩) with
      | valid s => exact settled_ok s.1
      | invalid problems => exact settled_error.2 rfl

/-! ## Files -/

theorem bytes_of_askFile {path : String} (h : t.askFile path = .ok true) :
    ∃ bytes, t.bytes path = .ok bytes := by
  unfold Tree.askFile at h
  unfold Tree.bytes
  cases hfind : t.find path with
  | error e => cases e <;> simp [hfind] at h
  | ok found =>
      obtain ⟨location, entry⟩ := found
      cases entry with
      | file content executable => exact ⟨content, rfl⟩
      | directory => simp [hfind] at h
      | link target => simp [hfind] at h

theorem askFile_of_bytes {path : String} {bytes : List UInt8} (h : t.bytes path = .ok bytes) :
    t.askFile path = .ok true := by
  unfold Tree.bytes at h
  unfold Tree.askFile
  cases hfind : t.find path with
  | error e =>
      rw [hfind] at h
      cases h
  | ok found =>
      obtain ⟨location, entry⟩ := found
      rw [hfind] at h
      cases entry with
      | file content executable => rfl
      | directory => cases h
      | link target => cases h

/-- One cannot ask for a file only when its name is too long. -/
theorem askFile_error {path : String} {e : FileError} (h : t.askFile path = .error e) :
    t.askFile path = .error .nameTooLong := by
  unfold Tree.askFile at h ⊢
  split at h
  · cases h
  · rfl
  · cases h

/-- A file that one can ask for is read to its end or complained about exactly when it is legible. -/
theorem readFile_settled_iff {path : String} (named : t.askFile path ≠ .error .nameTooLong) :
    Settled ProjectError.isComplaint (readFile t path) ↔
      ∀ bytes, t.bytes path = .ok bytes → IsLegible bytes := by
  unfold readFile
  cases hask : t.askFile path with
  | error e => exact absurd (askFile_error hask) named
  | ok found =>
      cases found with
      | false =>
          refine iff_of_true (settled_ok _) ?_
          intro bytes hbytes
          rw [askFile_of_bytes hbytes] at hask
          cases hask
      | true =>
          obtain ⟨bytes, hbytes⟩ := bytes_of_askFile hask
          have hlegible : (∀ bytes', t.bytes path = .ok bytes' → IsLegible bytes') ↔
              IsLegible bytes := by
            constructor
            · intro h
              exact h bytes hbytes
            · intro h bytes' hbytes'
              rw [hbytes] at hbytes'
              cases hbytes'
              exact h
          rw [hlegible]
          simp only [hbytes, IsLegible]
          cases Text.Utf8.decode? bytes with
          | none => simp [settled_error, ProjectError.isComplaint]
          | some text =>
              simp only [Option.some.injEq, exists_eq_left']
              cases Toml.parse text with
              | ok d => exact iff_of_true (settled_ok d) (by simp)
              | error e =>
                  cases e <;>
                    simp [settled_error, ProjectError.isComplaint, SettingsError.isComplaint]

theorem projectSection_settled (path : String) (d : Datum) :
    Settled ProjectError.isComplaint (projectSection path d) := by
  unfold projectSection
  split
  · split
    · exact settled_ok _
    · exact settled_ok _
    · exact settled_error.2 rfl
  · exact settled_ok _

/-- What a source contributes is had or complained about exactly when its file is legible. -/
theorem load_settled_iff {s : Source} (named : s.IsNamed t) :
    Settled ProjectError.isComplaint (s.load t) ↔ s.IsLegible t := by
  have hlegible {path : String} (hpath : s.path? = some path) :
      s.IsLegible t ↔ ∀ bytes, t.bytes path = .ok bytes → IsLegible bytes := by
    unfold Source.IsLegible
    constructor
    · intro h bytes
      exact h path bytes hpath
    · rintro h path' bytes hpath'
      obtain rfl := Option.some.inj (hpath.symm.trans hpath')
      exact h bytes
  cases s with
  | defaults => exact iff_of_true (settled_ok _) nofun
  | projectFile path =>
      rw [hlegible rfl, ← readFile_settled_iff (named path rfl)]
      simp only [Source.load, settled_bind]
      constructor
      · intro h
        exact h.1
      · intro h
        exact ⟨h, fun d _ => ⟨projectSection_settled path d, fun _ _ => settled_ok _⟩⟩
  | settingsFile path =>
      rw [hlegible rfl, ← readFile_settled_iff (named path rfl)]
      simp only [Source.load, settled_bind]
      constructor
      · intro h
        exact h.1
      · intro h
        exact ⟨h, fun _ _ => settled_ok _⟩

/-! ## Layers -/

/-- All sources are loaded or the first that fails is complained about exactly when those turned to are
legible. -/
theorem mapM_load_settled_iff {sources : List Source} (named : ∀ s ∈ sources, s.IsNamed t) :
    Settled ProjectError.isComplaint (sources.mapM (Source.load t)) ↔
      ∀ s ∈ turnedTo t sources, s.IsLegible t := by
  induction sources with
  | nil => exact iff_of_true (settled_ok _) nofun
  | cons s rest ih =>
      have hrest := ih fun s' hs' => named s' (List.mem_cons_of_mem _ hs')
      rw [List.mapM_cons, settled_bind, load_settled_iff (named s List.mem_cons_self), turnedTo,
        List.forall_mem_cons]
      refine and_congr_right fun _ => ?_
      cases hload : s.load t with
      | error e =>
          refine iff_of_true nofun ?_
          simp [Except.isOk, Except.toBool]
      | ok layer =>
          simp only [Except.isOk, Except.toBool, if_true]
          rw [← hrest]
          constructor
          · intro h
            exact (settled_bind.1 (h layer rfl)).1
          · rintro h _ ⟨⟩
            exact settled_bind.2 ⟨h, fun _ _ => settled_ok _⟩

theorem mergeLayers_settled (lower : List (String × Datum)) (layers : List Layer) :
    Settled SettingsError.isComplaint (mergeLayers lower layers) := by
  induction layers generalizing lower with
  | nil => exact settled_ok lower
  | cons layer rest ih =>
      rw [mergeLayers, settled_bind]
      refine ⟨?_, fun entries _ => ih _⟩
      unfold Layer.entries
      split
      · exact settled_ok _
      · exact settled_error.2 rfl

theorem ofLayers_settled_iff (layers : List Layer) :
    Settled SettingsError.isComplaint (ofLayers layers) ↔
      ∀ entries, mergeLayers [] layers = .ok entries → ListsRules entries := by
  rw [ofLayers, settled_bind]
  simp only [mergeLayers_settled, true_and, readTable_settled_iff]

theorem ofSources_settled_iff {sources : List Source} (named : ∀ s ∈ sources, s.IsNamed t) :
    Settled ProjectError.isComplaint (ofSources t sources) ↔ IsReadable t sources := by
  rw [ofSources, settled_bind, mapM_load_settled_iff named]
  constructor
  · rintro ⟨hlegible, hrules⟩
    refine ⟨hlegible, fun layers entries hload => (ofLayers_settled_iff layers).1 ?_ entries⟩
    have hsettled := hrules layers hload
    revert hsettled
    cases ofLayers layers with
    | ok s => exact fun _ => settled_ok s
    | error e =>
        intro hsettled
        simp only [settled_error] at hsettled ⊢
        exact hsettled
  · rintro ⟨hlegible, hrules⟩
    refine ⟨hlegible, fun layers hload => ?_⟩
    have hsettled := (ofLayers_settled_iff layers).2 fun entries => hrules layers entries hload
    revert hsettled
    cases ofLayers layers with
    | ok s => exact fun _ => settled_ok s
    | error e =>
        intro hsettled
        simp only [settled_error] at hsettled ⊢
        exact hsettled

/-- The sources of a project are found, or the user is told why not, or its place cannot be had. -/
theorem sourcesOf_settled (t : Tree) (root : String) (named : Option String) :
    Settled ProjectError.isExpected (sourcesOf t root named) := by
  have hasked (path : String) :
      Settled ProjectError.isExpected ((t.askFile path).mapError .file) :=
    settled_mapError.2 fun _ _ => rfl
  unfold sourcesOf
  refine settled_bind.2 ⟨settled_mapError.2 fun _ _ => rfl, fun place _ => ?_⟩
  have hproject (settingsFile projectFile : String) :
      Settled ProjectError.isExpected (do
        let hasProjectFile ← (t.askFile projectFile).mapError .file
        return [Source.defaults] ++
          (if hasProjectFile then [Source.projectFile projectFile] else []) ++
          [Source.settingsFile settingsFile]) :=
    settled_bind.2 ⟨hasked _, fun _ _ => settled_ok _⟩
  cases named with
  | none => exact settled_bind.2 ⟨settled_ok _, fun _ _ => hproject _ _⟩
  | some path =>
      refine settled_bind.2 ⟨hasked _, fun found _ => ?_⟩
      cases found with
      | false => exact settled_bind.2 ⟨settled_error.2 rfl, fun _ _ => hproject _ _⟩
      | true => exact settled_bind.2 ⟨settled_ok _, fun _ _ => hproject _ _⟩

/-- The settings of a project are had or complained about exactly when its files can be read. -/
theorem project_settled_iff {root : String} {named : Option String}
    (located : IsLocated t root named) :
    Settled ProjectError.isComplaint (sourcesOf t root named >>= ofSources t) ↔
      ∀ sources, sourcesOf t root named = .ok sources → IsReadable t sources := by
  rw [settled_bind]
  constructor
  · rintro ⟨_, h⟩ sources hsources
    exact (ofSources_settled_iff (located.files sources hsources)).1 (h sources hsources)
  · intro h
    refine ⟨fun e herror => ?_, fun sources hsources => ?_⟩
    · have hexpected := sourcesOf_settled t root named e herror
      cases e with
      | file error => exact absurd herror (located.place error)
      | _ => exact hexpected
    · exact (ofSources_settled_iff (located.files sources hsources)).2 (h sources hsources)

end Settings

namespace Command

open Settings

/-- The command is refused with the status for faulty settings. -/
def Stop.isComplaint : Stop → Bool
  | .refused status _ => status == 2
  | .crashed _ => false

theorem isComplaint_ofProjectError (e : ProjectError) :
    (Stop.ofProjectError e).isComplaint = e.isComplaint := by
  cases e with
  | settings error => cases error <;> rfl
  | _ => rfl

/-- A command has the settings of its project, or stops with what is wrong with them. -/
theorem loadSettings_eq (named : Option String) (s : Session) :
    (loadSettings named s).1 =
      (sourcesOf s.files "." named >>= ofSources s.files).mapError Stop.ofProjectError := by
  have hget : (get : Work Session) s = (.ok s, s) := rfl
  unfold loadSettings
  rw [Work.bind_of_ok hget]
  cases hsources : sourcesOf s.files "." named with
  | error e => rfl
  | ok sources =>
      have hread : (Except.ok sources >>= ofSources s.files) = ofSources s.files sources := rfl
      simp only
      rw [hread]
      cases ofSources s.files sources with
      | ok settings => rfl
      | error e => rfl

/-- A command has the settings of its project, or is refused with the status for faulty settings, exactly
when the files of the project can be read. -/
theorem loadSettings_settled_iff {named : Option String} {s : Session}
    (located : IsLocated s.files "." named) :
    Settled Stop.isComplaint (loadSettings named s).1 ↔
      ∀ sources, sourcesOf s.files "." named = .ok sources → IsReadable s.files sources := by
  rw [loadSettings_eq, settled_mapError]
  simp only [isComplaint_ofProjectError]
  exact project_settled_iff located

/-- A project whose settings file has these bytes. -/
def projectWith (bytes : List UInt8) : Files.Tree :=
  ⟨[([settingsFileName], .file bytes false)], []⟩

theorem eq_ok_of_toOption {x : Except ε α} {a : α} (h : x.toOption = some a) :
    x = .ok a := by
  cases x with
  | ok a' => exact congrArg _ (Option.some.inj h)
  | error e => cases h

theorem isLocated_of_isOk {t : Files.Tree} {root : String} {named : Option String}
    {sources : List Source} (hsources : sourcesOf t root named = .ok sources)
    (hfiles : sources.all fun s => s.path?.all fun path => (t.askFile path).isOk) :
    IsLocated t root named where
  place e herror := by
    rw [hsources] at herror
    cases herror
  files sources' hsources' s hs path hpath htooLong := by
    rw [hsources] at hsources'
    cases hsources'
    have hasked := List.all_eq_true.1 hfiles s hs
    rw [hpath, Option.all_some, htooLong] at hasked
    cases hasked

theorem sourcesOf_projectWith :
    sourcesOf (projectWith [0xFF]) "." none = .ok [.defaults, .settingsFile "/.shellqa.toml"] :=
  eq_ok_of_toOption (by decide +kernel)

theorem isLocated_projectWith : IsLocated (projectWith [0xFF]) "." none :=
  isLocated_of_isOk sourcesOf_projectWith (by decide +kernel)

/-- One byte that is not text makes the settings file unreadable. -/
theorem not_isReadable_projectWith :
    ¬ ∀ sources, sourcesOf (projectWith [0xFF]) "." none = .ok sources →
      IsReadable (projectWith [0xFF]) sources := by
  intro readable
  have legible := (readable _ sourcesOf_projectWith).legible (.settingsFile "/.shellqa.toml")
    (by decide +kernel)
  obtain ⟨text, htext, _⟩ := legible _ [0xFF] rfl (eq_ok_of_toOption (by decide +kernel))
  have hnone : Text.Utf8.decode? [0xFF] = none := by decide +kernel
  rw [hnone] at htext
  cases htext

end Command

end Shellwright
