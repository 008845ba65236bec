import Shellwright.Files.Load
import Shellwright.Proofs.Keyed
/-!
# Writing files

To write a file is to replace the content at the location that its path leads to. Nothing else changes, and
every path leads where it led before.
-/

namespace Shellwright

namespace Keyed

variable {κ ν α : Type} [DecidableEq κ]

/-- A value is replaced by one that is the same to `f`. -/
theorem map_values_put {entries : Keyed κ ν} {key : κ} {old new : ν} (f : ν → α)
    (found : entries.get? key = some old) (same : f new = f old) :
    (entries.put key new).values.map f = entries.values.map f := by
  induction entries with
  | nil => cases found
  | cons e rest ih =>
      rw [get?_cons] at found
      unfold put
      split
      · rename_i hkey
        rw [if_pos hkey] at found
        cases found
        simp [values, same]
      · rename_i hkey
        rw [if_neg hkey] at found
        simpa [values] using ih found

end Keyed

namespace Files

/-- An entry without what a file holds. -/
def Entry.outline : Entry → Entry
  | .file .. => .file [] false
  | e => e

/-- Two entries with the same outline, or none in both places. -/
inductive Entry.Matches : Option Entry → Option Entry → Prop
  | none : Matches none none
  | directory : Matches (some .directory) (some .directory)
  | link (target : String) : Matches (some (.link target)) (some (.link target))
  | file (content content' : List UInt8) (executable executable' : Bool) :
      Matches (some (.file content executable)) (some (.file content' executable'))

theorem Entry.matches_of_outline {e e' : Option Entry} (h : e'.map outline = e.map outline) : Matches e e' := by
  cases e with
  | none =>
      cases e' with
      | none => exact .none
      | some e' => cases h
  | some e =>
      cases e' with
      | none => cases h
      | some e' =>
          cases e <;> cases e' <;> simp [outline] at h
          · exact .file ..
          · exact .directory
          · subst h
            exact .link _

namespace Tree

/-- The location of the file that a path leads to. -/
def place? (t : Tree) (path : String) : Option (List String) :=
  match t.find path with
  | .ok (location, .file ..) => some location
  | _ => none

/-- The paths lead to files, and no two of them to the same one. -/
structure LeadsApart (t : Tree) (paths : List String) : Prop where
  files : ∀ path ∈ paths, (t.place? path).isSome = true
  distinct : (paths.map t.place?).Nodup

/-- What the file at a location holds. -/
def content? (t : Tree) (location : List String) : Option (List UInt8) :=
  match t.entryAt? location with
  | some (.file content _) => some content
  | _ => none

variable {t t' : Tree} {location : List String} {path : String}

theorem content?_of_entryAt? (h : t'.entryAt? location = t.entryAt? location) :
    t'.content? location = t.content? location := by
  rw [content?, h]
  rfl

theorem entryAt?_of_walk {links fuel : Nat} {parts : List String} {place : List String} {e : Entry}
    (h : t.walk location links parts fuel = .ok (place, e)) : t.entryAt? place = some e := by
  induction fuel generalizing location links parts with
  | zero => cases h
  | succ fuel ih =>
      cases parts with
      | nil =>
          unfold walk at h
          split at h
          · rename_i e' he
            cases h
            exact he
          · cases h
      | cons part rest =>
          unfold walk at h
          split at h
          · split at h
            · cases h
            · split at h
              · exact ih h
              · split at h
                · exact ih h
                · dsimp only at h
                  split at h
                  · cases h
                  · split at h
                    · cases h
                    · exact ih h
                  · exact ih h
          · cases h
          · cases h

theorem entryAt?_of_find {place : List String} {e : Entry} (h : t.find path = .ok (place, e)) :
    t.entryAt? place = some e := by
  unfold find at h
  split at h
  · cases h
  · split at h
    · cases h
    · split at h
      · cases h
      · exact entryAt?_of_walk h

/-! ## Trees that differ in what their files hold -/

/-- The same entries, but for what the files hold. -/
structure Alike (t t' : Tree) : Prop where
  working : t'.working = t.working
  fuel : ∀ n, t'.walkFuel n = t.walkFuel n
  entries : ∀ location, (t'.entryAt? location).map Entry.outline = (t.entryAt? location).map Entry.outline

theorem Alike.refl (t : Tree) : t.Alike t :=
  ⟨rfl, fun _ => rfl, fun _ => rfl⟩

/-- The location that was come to, with the outline of its entry. -/
def sketch : Except FileError (List String × Entry) → Except FileError (List String × Entry)
  | .ok (location, e) => .ok (location, e.outline)
  | .error e => .error e

theorem Alike.walk (h : t.Alike t') (location : List String) (links : Nat) (parts : List String) (fuel : Nat) :
    sketch (t'.walk location links parts fuel) = sketch (t.walk location links parts fuel) := by
  induction fuel generalizing location links parts with
  | zero => rfl
  | succ fuel ih =>
      have hhere := Entry.matches_of_outline (h.entries location)
      unfold Tree.walk
      cases parts with
      | nil =>
          generalize t.entryAt? location = e at hhere ⊢
          generalize t'.entryAt? location = e' at hhere ⊢
          cases hhere <;> rfl
      | cons part rest =>
          have hnext := Entry.matches_of_outline (h.entries (location ++ [part]))
          dsimp only
          generalize t.entryAt? location = e at hhere ⊢
          generalize t'.entryAt? location = e' at hhere ⊢
          generalize t.entryAt? (location ++ [part]) = next at hnext ⊢
          generalize t'.entryAt? (location ++ [part]) = next' at hnext ⊢
          cases hhere with
          | none => rfl
          | link target => rfl
          | file => rfl
          | directory =>
              dsimp only
              split
              · rfl
              · split
                · exact ih ..
                · split
                  · exact ih ..
                  · cases hnext with
                    | none => rfl
                    | directory => exact ih ..
                    | file => exact ih ..
                    | link target =>
                        cases links with
                        | zero => rfl
                        | succ links => exact ih ..

theorem Alike.find (h : t.Alike t') (path : String) : sketch (t'.find path) = sketch (t.find path) := by
  unfold Tree.find
  split
  · rfl
  · split
    · rfl
    · split
      · rfl
      · dsimp only
        rw [h.working, h.fuel]
        exact h.walk ..

/-- Every path leads to the file that it led to. -/
theorem Alike.place? (h : t.Alike t') (path : String) : t'.place? path = t.place? path := by
  have hfind := h.find path
  unfold Tree.place?
  generalize t.find path = found at hfind ⊢
  generalize t'.find path = found' at hfind ⊢
  have hkind (r : Except FileError (List String × Entry)) :
      (match r with
        | .ok (location, .file ..) => some location
        | _ => none) = (match sketch r with
        | .ok (location, .file ..) => some location
        | _ => none) := by
    rcases r with e | ⟨location, e⟩
    · rfl
    · cases e <;> rfl
  rw [hkind found, hkind found', hfind]

/-! ## Writing -/

theorem exists_file_of_place {place : List String} (h : t.place? path = some place) :
    ∃ content executable, t.find path = .ok (place, .file content executable) ∧
      t.entries.get? place = some (.file content executable) := by
  unfold Tree.place? at h
  split at h
  · rename_i location content executable hfind
    cases h
    refine ⟨content, executable, hfind, ?_⟩
    have hentry := entryAt?_of_find hfind
    unfold entryAt? at hentry
    split at hentry
    · rename_i e hget
      rw [hget, Option.some.inj hentry]
    · split at hentry <;> cases hentry
  · cases h

theorem entryAt?_writeText {place : List String} (h : t.place? path = some place) (text : String) :
    ∃ executable, ∀ location, (t.writeText path text).entryAt? location =
      if location = place then some (.file (Text.Utf8.encode text) executable) else t.entryAt? location := by
  obtain ⟨content, executable, hfind, hget⟩ := exists_file_of_place h
  refine ⟨executable, fun location => ?_⟩
  have hkeys : (t.entries.put place (.file (Text.Utf8.encode text) executable)).keys = t.entries.keys := by
    rw [Keyed.keys_put, if_pos ((Keyed.has_iff _ _).2 ⟨_, hget⟩)]
  unfold writeText
  rw [hfind]
  unfold entryAt?
  dsimp only
  rw [Keyed.get?_put, hkeys]
  by_cases hplace : location = place
  · rw [if_pos hplace, if_pos hplace]
  · rw [if_neg hplace, if_neg hplace]

theorem writeText_of_no_place (h : t.place? path = none) (text : String) : t.writeText path text = t := by
  unfold Tree.place? at h
  unfold writeText
  split
  · rename_i hfind
    rw [hfind] at h
    cases h
  · rfl

/-- A write changes only what one file holds. -/
theorem alike_writeText (t : Tree) (path text : String) : t.Alike (t.writeText path text) := by
  cases hplace : t.place? path with
  | none =>
      rw [writeText_of_no_place hplace]
      exact .refl t
  | some place =>
      obtain ⟨content, executable, hfind, hget⟩ := exists_file_of_place hplace
      have hwrite : t.writeText path text =
          { t with entries := t.entries.put place (.file (Text.Utf8.encode text) executable) } := by
        unfold writeText
        rw [hfind]
      refine ⟨by rw [hwrite], fun n => ?_, fun location => ?_⟩
      · unfold walkFuel
        rw [hwrite]
        dsimp only
        rw [Keyed.map_values_put _ hget]
        rfl
      · obtain ⟨executable', hentries⟩ := entryAt?_writeText hplace text
        rw [hentries]
        split
        · rename_i hsame
          have hold : t.entryAt? location = some (.file content executable) := by
            unfold entryAt?
            rw [hsame, hget]
          rw [hold]
          rfl
        · rfl

/-- Write texts to the files that paths lead to. -/
def writeAll (t : Tree) (writes : List (String × String)) : Tree :=
  writes.foldl (fun t w => t.writeText w.1 w.2) t

/-- Locations that none of the paths leads to are left alone. -/
theorem entryAt?_writeAll {writes : List (String × String)}
    (apart : ∀ w ∈ writes, t.place? w.1 ≠ some location) :
    (t.writeAll writes).entryAt? location = t.entryAt? location := by
  induction writes generalizing t with
  | nil => rfl
  | cons w rest ih =>
      have hrest : ∀ w' ∈ rest, (t.writeText w.1 w.2).place? w'.1 ≠ some location := by
        intro w' hw'
        rw [(alike_writeText t w.1 w.2).place?]
        exact apart w' (List.mem_cons_of_mem _ hw')
      refine (ih hrest).trans ?_
      cases hplace : t.place? w.1 with
      | none => rw [writeText_of_no_place hplace]
      | some place =>
          obtain ⟨executable, hentries⟩ := entryAt?_writeText hplace w.2
          rw [hentries, if_neg]
          rintro rfl
          exact apart w List.mem_cons_self hplace

theorem writeAll_append (t : Tree) (writes writes' : List (String × String)) :
    t.writeAll (writes ++ writes') = (t.writeAll writes).writeAll writes' :=
  List.foldl_append

/-- Paths that lead to different files each have their text. -/
theorem content?_writeAll {writes : List (String × String)}
    (distinct : (writes.map fun w => t.place? w.1).Nodup) {w : String × String} (mem : w ∈ writes)
    (place : t.place? w.1 = some location) :
    (t.writeAll writes).content? location = some (Text.Utf8.encode w.2) := by
  induction writes generalizing t with
  | nil => cases mem
  | cons first rest ih =>
      have hsame (path : String) : (t.writeText first.1 first.2).place? path = t.place? path :=
        (alike_writeText t first.1 first.2).place? path
      obtain ⟨hfirst, hrest⟩ := List.nodup_cons.1 distinct
      rcases List.mem_cons.1 mem with rfl | hmem
      · have hapart : ∀ w' ∈ rest, (t.writeText w.1 w.2).place? w'.1 ≠ some location := by
          intro w' hw' hplace
          rw [hsame, ← place] at hplace
          exact hfirst (List.mem_map.2 ⟨w', hw', hplace⟩)
        have hkept : ((t.writeText w.1 w.2).writeAll rest).entryAt? location =
            (t.writeText w.1 w.2).entryAt? location := entryAt?_writeAll hapart
        obtain ⟨executable, hentries⟩ := entryAt?_writeText place w.2
        change ((t.writeText w.1 w.2).writeAll rest).content? location = _
        rw [content?, hkept, hentries, if_pos rfl]
      · refine ih ?_ hmem (by rw [hsame, place])
        have hplaces : (fun w : String × String => (t.writeText first.1 first.2).place? w.1) =
            fun w => t.place? w.1 := funext fun w => hsame w.1
        rw [hplaces]
        exact hrest

end Tree

end Files

end Shellwright
