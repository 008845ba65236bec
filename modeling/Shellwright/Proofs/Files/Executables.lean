import Shellwright.Files.Executable
/-!
# Executables that are found

A command stands for the one path that it names, or for one path in each directory of the search path.
What is found is one of these that may be executed, and nothing is found only if none of them may be: so it
is for every command that is looked up in the search path. Of a path that says where it leads it only counts
that there is a file, executable or not. One cannot ask about a path that is too long, nor about one below a
home directory that is not known.
-/

namespace Shellwright

/-- The path says where it leads, so that the search path does not matter. -/
def Path.IsPlaced (p : Path) : Prop :=
  p.isAbsolute = true ∨ 1 < p.parts.length

namespace Files

namespace Tree

variable {t : Tree} {path : String}

/-- The path leads to a regular file that may be executed. -/
def HoldsExecutable (t : Tree) (path : String) : Prop :=
  ∃ place content, t.find path = .ok (place, .file content true)

/-- The path leads to a regular file that may not be executed. -/
def HoldsInert (t : Tree) (path : String) : Prop :=
  ∃ place content, t.find path = .ok (place, .file content false)

theorem isExecutable_iff : t.isExecutable path = true ↔ t.HoldsExecutable path := by
  unfold isExecutable HoldsExecutable
  constructor
  · intro h
    split at h
    · rename_i place content executable hfind
      subst h
      exact ⟨place, content, hfind⟩
    · cases h
  · rintro ⟨place, content, hfind⟩
    rw [hfind]

theorem not_isExecutable_iff : t.isExecutable path = false ↔ ¬ t.HoldsExecutable path := by
  rw [← isExecutable_iff, Bool.not_eq_true]

theorem HoldsInert.not_executable (h : t.HoldsInert path) : ¬ t.HoldsExecutable path := by
  obtain ⟨place, content, hinert⟩ := h
  rintro ⟨place', content', hexecutable⟩
  rw [hinert] at hexecutable
  cases hexecutable

/-- Asking for a file tells of each executable that it is there. -/
theorem askFile_of_executable (h : t.HoldsExecutable path) : t.askFile path = .ok true := by
  obtain ⟨place, content, hfind⟩ := h
  rw [askFile, hfind]

theorem askFile_of_inert (h : t.HoldsInert path) : t.askFile path = .ok true := by
  obtain ⟨place, content, hfind⟩ := h
  rw [askFile, hfind]

theorem askFile_of_nameTooLong (h : t.find path = .error .nameTooLong) :
    t.askFile path = .error .nameTooLong := by
  rw [askFile, h]

/-- Where there is no file and the question can be asked, the answer is no. -/
theorem askFile_of_no_file (short : t.find path ≠ .error .nameTooLong) (inert : ¬ t.HoldsInert path)
    (executable : ¬ t.HoldsExecutable path) : t.askFile path = .ok false := by
  unfold askFile
  split
  · rename_i place content permitted hfind
    cases permitted
    · exact absurd ⟨place, content, hfind⟩ inert
    · exact absurd ⟨place, content, hfind⟩ executable
  · exact absurd ‹_› short
  · rfl

end Tree

/-! ## What a command stands for -/

/-- The paths that a command stands for, once it has been read as a path `p`: this one, if it says where it
leads, and otherwise those that the command has in the directories of the search path. -/
inductive SearchPath.Gives (s : SearchPath) (command : String) (p : Path) : String → Prop
  | placed (placed : p.IsPlaced) : Gives s command p p.text
  | itself (bare : ¬ p.IsPlaced) (slash : '/' ∈ command.toList) : Gives s command p command
  | within {directory : String} (bare : ¬ p.IsPlaced) (simple : '/' ∉ command.toList)
      (given : s.directories ≠ "") (member : directory ∈ listed s.directories) :
      Gives s command p (candidate directory command)

/-- The path is one of those that the command stands for. An empty command stands for none. -/
def SearchPath.Offers (s : SearchPath) (command path : String) : Prop :=
  command ≠ "" ∧ ∃ p, expandHome s (Path.ofString command) = .ok p ∧ s.Gives command p path

section

variable {t : Tree} {s : SearchPath} {command path : String} {p : Path}

theorem SearchPath.offers_iff (named : command ≠ "") (home : expandHome s (Path.ofString command) = .ok p) :
    s.Offers command path ↔ s.Gives command p path := by
  constructor
  · rintro ⟨-, p', hhome, hgives⟩
    rw [home] at hhome
    cases hhome
    exact hgives
  · exact fun hgives => ⟨named, p, home, hgives⟩

theorem SearchPath.gives_placed_iff (placed : p.IsPlaced) : s.Gives command p path ↔ path = p.text := by
  constructor
  · intro h
    cases h with
    | placed => rfl
    | itself bare => exact absurd placed bare
    | within bare => exact absurd placed bare
  · rintro rfl
    exact .placed placed

theorem SearchPath.gives_slashed_iff (bare : ¬ p.IsPlaced) (slash : '/' ∈ command.toList) :
    s.Gives command p path ↔ path = command := by
  constructor
  · intro h
    cases h with
    | placed placed => exact absurd placed bare
    | itself => rfl
    | within _ simple => exact absurd slash simple
  · rintro rfl
    exact .itself bare slash

theorem SearchPath.gives_simple_iff (bare : ¬ p.IsPlaced) (simple : '/' ∉ command.toList) :
    s.Gives command p path ↔
      s.directories ≠ "" ∧ path ∈ (listed s.directories).map (candidate · command) := by
  constructor
  · intro h
    cases h with
    | placed placed => exact absurd placed bare
    | itself _ slash => exact absurd slash simple
    | within _ _ given member => exact ⟨given, List.mem_map_of_mem member⟩
  · rintro ⟨given, hpath⟩
    obtain ⟨directory, hmember, rfl⟩ := List.mem_map.1 hpath
    exact .within bare simple given hmember

/-- What is found for a command is one of the paths that it stands for, and may be executed; and nothing is
found only if none of them may be. -/
structure Answers (t : Tree) (s : SearchPath) (command : String) (found : Option String) : Prop where
  executable : ∀ path, found = some path → s.Offers command path ∧ t.HoldsExecutable path
  none_iff : found = none ↔ ∀ path, s.Offers command path → ¬ t.HoldsExecutable path

theorem answers_some (offered : s.Offers command path) (executable : t.HoldsExecutable path) :
    Answers t s command (some path) where
  executable := by
    rintro _ ⟨⟩
    exact ⟨offered, executable⟩
  none_iff := iff_of_false nofun fun h => h path offered executable

theorem answers_none (h : ∀ path, s.Offers command path → ¬ t.HoldsExecutable path) :
    Answers t s command none where
  executable := nofun
  none_iff := iff_of_true rfl h

/-! ## What is found -/

/-- The first directory that has an executable of the name decides. -/
theorem answers_searchPath (named : command ≠ "") (home : expandHome s (Path.ofString command) = .ok p)
    (bare : ¬ p.IsPlaced) : Answers t s command (searchPath t s.directories command) := by
  by_cases hslash : '/' ∈ command.toList
  · have hoffers (path : String) : s.Offers command path ↔ path = command := by
      rw [s.offers_iff named home, SearchPath.gives_slashed_iff bare hslash]
    rw [searchPath, if_pos (List.contains_iff_mem.2 hslash)]
    split
    · exact answers_some ((hoffers _).2 rfl) (Tree.isExecutable_iff.1 ‹_›)
    · rename_i hinert
      refine answers_none fun path hoffered => ?_
      rwa [(hoffers path).1 hoffered, ← Tree.isExecutable_iff]
  · have hoffers (path : String) : s.Offers command path ↔
        s.directories ≠ "" ∧ path ∈ (listed s.directories).map (candidate · command) := by
      rw [s.offers_iff named home, SearchPath.gives_simple_iff bare hslash]
    rw [searchPath, if_neg (fun h => hslash (List.contains_iff_mem.1 h))]
    split
    · rename_i hempty
      refine answers_none fun path hoffered => ?_
      exact absurd (String.isEmpty_iff.1 hempty) ((hoffers path).1 hoffered).1
    · rename_i hgiven
      have hgiven : s.directories ≠ "" := fun h => hgiven (String.isEmpty_iff.2 h)
      cases hfound : ((listed s.directories).map (candidate · command)).find? t.isExecutable with
      | some path =>
          have hoffered := (hoffers path).2 ⟨hgiven, List.mem_of_find?_eq_some hfound⟩
          exact answers_some hoffered (Tree.isExecutable_iff.1 (List.find?_some hfound))
      | none =>
          refine answers_none fun path hoffered => ?_
          rw [← Tree.isExecutable_iff]
          exact List.find?_eq_none.1 hfound path ((hoffers path).1 hoffered).2

theorem findExecutable_unknown {e : ExecutableError} (named : command ≠ "")
    (home : expandHome s (Path.ofString command) = .error e) : findExecutable t s command = .error e := by
  have hfull : ¬ command.isEmpty = true := fun h => named (String.isEmpty_iff.1 h)
  rw [findExecutable, if_neg hfull, home]
  rfl

theorem findExecutable_bare (named : command ≠ "") (home : expandHome s (Path.ofString command) = .ok p)
    (bare : ¬ p.IsPlaced) : findExecutable t s command = .ok (searchPath t s.directories command) := by
  have hfull : ¬ command.isEmpty = true := fun h => named (String.isEmpty_iff.1 h)
  have hbare : ¬ (p.isAbsolute || 1 < p.parts.length) = true := by simpa [Path.IsPlaced] using bare
  rw [findExecutable, if_neg hfull, home]
  exact if_neg hbare

/-- Of a path that says where it leads, it only counts that there is a file. -/
theorem findExecutable_placed (named : command ≠ "") (home : expandHome s (Path.ofString command) = .ok p)
    (placed : p.IsPlaced) : findExecutable t s command =
      ((t.askFile p.text).mapError .file).map fun there => if there then some p.text else none := by
  have hfull : ¬ command.isEmpty = true := fun h => named (String.isEmpty_iff.1 h)
  have hplaced : (p.isAbsolute || 1 < p.parts.length) = true := by simpa [Path.IsPlaced] using placed
  rw [findExecutable, if_neg hfull, home]
  refine (if_pos hplaced).trans ?_
  cases t.askFile p.text <;> rfl

theorem findExecutable_of_askFile {there : Bool} (named : command ≠ "")
    (home : expandHome s (Path.ofString command) = .ok p) (placed : p.IsPlaced)
    (asked : t.askFile p.text = .ok there) :
    findExecutable t s command = .ok (if there then some p.text else none) := by
  rw [findExecutable_placed named home placed, asked]
  rfl

/-- Without a file that may not be executed, that there is a file means that it may be executed. -/
theorem answers_placed (named : command ≠ "") (home : expandHome s (Path.ofString command) = .ok p)
    (placed : p.IsPlaced) (short : t.find p.text ≠ .error .nameTooLong) (inert : ¬ t.HoldsInert p.text) :
    ∃ found, findExecutable t s command = .ok found ∧ Answers t s command found := by
  have hoffers (path : String) : s.Offers command path ↔ path = p.text := by
    rw [s.offers_iff named home, SearchPath.gives_placed_iff placed]
  by_cases hexecutable : t.HoldsExecutable p.text
  · have hasked := Tree.askFile_of_executable hexecutable
    exact ⟨some p.text, findExecutable_of_askFile named home placed hasked,
      answers_some ((hoffers _).2 rfl) hexecutable⟩
  · have hasked := Tree.askFile_of_no_file short inert hexecutable
    refine ⟨none, findExecutable_of_askFile named home placed hasked, answers_none ?_⟩
    intro path hoffered
    rwa [(hoffers path).1 hoffered]

end

/-- If the command starts with a home directory, it is known. If it says where it leads, one can ask about
the path, and there is no file that may not be executed. -/
def Reliable (t : Tree) (s : SearchPath) (command : String) : Prop :=
  command ≠ "" → ∃ p, expandHome s (Path.ofString command) = .ok p ∧
    (p.IsPlaced → t.find p.text ≠ .error .nameTooLong ∧ ¬ t.HoldsInert p.text)

end Files

end Shellwright
