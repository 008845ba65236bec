import Mathlib.Data.List.Induction
import Shellwright.Proofs.Wire.Paths
import Shellwright.Settings.Project
/-!
# Layers of settings

Where one layer has a table at a path and another has something else there, it depends on the order in
which layers are put together what is left of either. Where no two layers are at odds in this way, the
last one that has a value at a path decides, tables are merged, and layers may be put together in groups.
-/

namespace Shellwright.Settings

open Datum

/-! ## One layer over another -/

@[simp] theorem overlay_none (d : Datum) : overlay none d = d := by
  cases d <;> rfl

theorem overlay_of_solid {d : Datum} (solid : ∀ entries, d ≠ .table entries) (lower : Option Datum) :
    overlay lower d = d := by
  cases d with
  | table entries => exact absurd rfl (solid entries)
  | _ => rfl

@[simp] theorem overlay_table (lower upper : List (String × Datum)) :
    overlay (some (.table lower)) (.table upper) = .table (overlayEntries lower upper) := by
  rw [overlay]

/-- What is found under a key where one layer lies over another. -/
def overlayFound (lower : Option Datum) : Option Datum → Option Datum
  | none => lower
  | some d => some (overlay lower d)

theorem get?_overlayEntries {upper : List (String × Datum)} (distinct : (Keyed.keys upper).Nodup)
    (lower : List (String × Datum)) (key : String) :
    Keyed.get? (overlayEntries lower upper) key =
      overlayFound (Keyed.get? lower key) (Keyed.get? upper key) := by
  induction upper generalizing lower with
  | nil => rw [overlayEntries]; rfl
  | cons e rest ih =>
      obtain ⟨first, d⟩ := e
      obtain ⟨hnew, hdistinct⟩ := List.nodup_cons.1 distinct
      rw [overlayEntries, ih hdistinct, Keyed.get?_put, Keyed.get?_cons]
      by_cases hkey : key = first
      · subst hkey
        have hrest : Keyed.get? rest key = none := Keyed.get?_eq_none_iff.2 hnew
        simp [hrest, overlayFound]
      · have hfirst : first ≠ key := Ne.symm hkey
        simp [hkey, hfirst]

theorem nodup_keys_overlayEntries {lower : List (String × Datum)} (distinct : (Keyed.keys lower).Nodup)
    (upper : List (String × Datum)) : (Keyed.keys (overlayEntries lower upper)).Nodup := by
  induction upper generalizing lower with
  | nil => rwa [overlayEntries]
  | cons e rest ih =>
      rw [overlayEntries]
      exact ih (Keyed.nodup_keys_put distinct _ _)

/-- The keys of the lower layer keep their places, and new ones follow. -/
theorem keys_overlayEntries {upper : List (String × Datum)} (distinct : (Keyed.keys upper).Nodup)
    (lower : List (String × Datum)) :
    Keyed.keys (overlayEntries lower upper) =
      Keyed.keys lower ++ (Keyed.keys upper).filter (· ∉ Keyed.keys lower) := by
  induction upper generalizing lower with
  | nil => simp [overlayEntries, Keyed.keys]
  | cons e rest ih =>
      obtain ⟨key, d⟩ := e
      obtain ⟨hnew, hdistinct⟩ := List.nodup_cons.1 distinct
      have hkeys : Keyed.keys ((key, d) :: rest) = key :: Keyed.keys rest := rfl
      rw [overlayEntries, ih hdistinct, Keyed.keys_put, hkeys]
      by_cases hkey : key ∈ Keyed.keys lower
      · have hhas := Keyed.has_of_mem_keys hkey
        simp [hhas, hkey]
      · have hhas : Keyed.has lower key = false :=
          (Keyed.has_eq_false_iff _ _).2 (Keyed.get?_eq_none_iff.2 hkey)
        have hsame : (Keyed.keys rest).filter (· ∉ Keyed.keys lower ++ [key]) =
            (Keyed.keys rest).filter (· ∉ Keyed.keys lower) := by
          refine List.filter_congr fun other hother => ?_
          have hne : other ≠ key := fun heq => hnew (heq ▸ hother)
          simp [hne]
        simp only [hhas, Bool.false_eq_true, if_false]
        rw [hsame, List.filter_cons_of_pos (by simpa using hkey), List.append_assoc,
          List.singleton_append]

/-! ## Layers that agree -/

/-- Where layers agree the upper one decides wherever it has something. -/
theorem holds?_overlay {a b : Datum} (agrees : a.Agrees b) (tidy : b.Tidy) (path : List String) :
    (overlay (some a) b).holds? path = (b.holds? path).or (a.holds? path) := by
  induction path generalizing a b with
  | nil =>
      cases tidy with
      | other _ solid => rw [overlay_of_solid solid]; rfl
      | table upper distinct inner =>
          obtain ⟨lower, rfl⟩ := agrees.symm.table_of_table
          rw [overlay_table]
          rfl
  | cons key path ih =>
      cases tidy with
      | other _ solid =>
          have hlower := agrees.solid_of_solid solid
          rw [overlay_of_solid solid, holds?_cons, holds?_cons, get?_of_solid solid,
            get?_of_solid hlower]
          rfl
      | table upper distinct inner =>
          obtain ⟨lower, rfl⟩ := agrees.symm.table_of_table
          rw [overlay_table, holds?_cons, holds?_cons, holds?_cons, get?_table, get?_table, get?_table,
            get?_overlayEntries distinct]
          cases hupper : Keyed.get? upper key with
          | none => rfl
          | some d =>
              cases hlower : Keyed.get? lower key with
              | none => simp [overlayFound]
              | some c =>
                  have hagrees : c.Agrees d :=
                    agrees.below ((get?_table _ _).trans hlower) ((get?_table _ _).trans hupper)
                  exact ih hagrees (inner _ (Keyed.mem_of_get? hupper))

/-- A layer over itself is that layer. -/
theorem overlay_self {a : Datum} (tidy : a.Tidy) : overlay (some a) a = a := by
  induction tidy with
  | other a solid => exact overlay_of_solid solid _
  | table entries distinct inner ih =>
      rw [overlay_table]
      refine congrArg _ (Keyed.ext_get? (nodup_keys_overlayEntries distinct entries) ?_ fun key => ?_)
      · rw [keys_overlayEntries distinct]
        simp
      · rw [get?_overlayEntries distinct]
        cases hkey : Keyed.get? entries key with
        | none => rfl
        | some d => exact congrArg some (ih _ (Keyed.mem_of_get? hkey))

/-- Layers may be put together in groups, where those that lie on one another agree. -/
theorem overlay_assoc {a b c : Datum} (left : a.Tidy) (mid : b.Tidy) (right : c.Tidy)
    (agrees : a.Agrees b) (agrees' : b.Agrees c) :
    overlay (some (overlay (some a) b)) c = overlay (some a) (overlay (some b) c) := by
  induction right generalizing a b with
  | other c solid => rw [overlay_of_solid solid, overlay_of_solid solid, overlay_of_solid solid]
  | table upper distinct inner ih =>
      obtain ⟨middle, rfl⟩ := agrees'.symm.table_of_table
      obtain ⟨lower, rfl⟩ := agrees.symm.table_of_table
      simp only [overlay_table]
      have hlower := left.distinct
      have hmiddle := mid.distinct
      refine congrArg _ (Keyed.ext_get?
        (nodup_keys_overlayEntries (nodup_keys_overlayEntries hlower middle) upper) ?_ fun key => ?_)
      · have hnew : (Keyed.keys upper).filter
              (· ∉ Keyed.keys lower ++ (Keyed.keys middle).filter (· ∉ Keyed.keys lower)) =
            ((Keyed.keys upper).filter (· ∉ Keyed.keys middle)).filter (· ∉ Keyed.keys lower) := by
          rw [List.filter_filter]
          refine List.filter_congr fun key _ => ?_
          by_cases hkey : key ∈ Keyed.keys lower <;> simp [hkey]
        rw [keys_overlayEntries distinct, keys_overlayEntries hmiddle,
          keys_overlayEntries (nodup_keys_overlayEntries hmiddle upper), keys_overlayEntries distinct,
          List.append_assoc, List.filter_append, hnew]
      · rw [get?_overlayEntries distinct, get?_overlayEntries hmiddle,
          get?_overlayEntries (nodup_keys_overlayEntries hmiddle upper), get?_overlayEntries distinct]
        cases hupper : Keyed.get? upper key with
        | none => rfl
        | some e =>
            cases hmid : Keyed.get? middle key with
            | none => simp [overlayFound]
            | some d =>
                cases hlow : Keyed.get? lower key with
                | none => simp [overlayFound]
                | some x =>
                    refine congrArg some (ih _ (Keyed.mem_of_get? hupper) (left.found hlow)
                      (mid.found hmid) ?_ ?_)
                    · exact agrees.below ((get?_table _ _).trans hlow) ((get?_table _ _).trans hmid)
                    · exact agrees'.below ((get?_table _ _).trans hmid) ((get?_table _ _).trans hupper)

/-! ## All layers -/

theorem mergeLayers_eq {layers : List Layer} {fragments : List (List (String × Datum))}
    (contents : layers.map (·.content) = fragments.map .table) (lower : List (String × Datum)) :
    mergeLayers lower layers = .ok (fragments.foldl overlayEntries lower) := by
  induction layers generalizing fragments lower with
  | nil =>
      obtain rfl := List.map_eq_nil_iff.1 contents.symm
      rfl
  | cons l rest ih =>
      obtain ⟨f, others, rfl, hcontent, hrest⟩ := List.map_eq_cons_iff.1 contents.symm
      have hentries : l.entries = .ok f := by
        obtain ⟨description, content⟩ := l
        obtain rfl : .table f = content := hcontent
        rfl
      rw [mergeLayers, hentries]
      exact ih hrest.symm _

/-- A layer with nothing below it stays as it is. -/
theorem overlayEntries_nil {upper : List (String × Datum)} (distinct : (Keyed.keys upper).Nodup) :
    overlayEntries [] upper = upper := by
  have hnil : (Keyed.keys ([] : List (String × Datum))).Nodup := List.nodup_nil
  refine Keyed.ext_get? (nodup_keys_overlayEntries hnil upper) ?_ fun key => ?_
  · rw [keys_overlayEntries distinct]
    simp [Keyed.keys]
  · rw [get?_overlayEntries distinct]
    cases Keyed.get? upper key <;> simp [overlayFound]

/-- The tables are mappings, and no path leads to a table in one and to something else in another. -/
structure AreLayers (fragments : List (List (String × Datum))) : Prop where
  tidy : ∀ f ∈ fragments, (Datum.table f).Tidy
  agree : ∀ f ∈ fragments, ∀ g ∈ fragments, (Datum.table f).Agrees (.table g)

/-- At every path the merged table has the value of the last table that has a value there, a table where
any of them has one, and nothing where none has anything. -/
structure Prevails (fragments : List (List (String × Datum))) (merged : List (String × Datum)) : Prop where
  value : ∀ path v, (Datum.table merged).holds? path = some (.value v) ↔
    ∃ before f after, fragments = before ++ f :: after ∧ (Datum.table f).holds? path = some (.value v) ∧
      ∀ g ∈ after, ∀ w, (Datum.table g).holds? path ≠ some (.value w)
  table : ∀ path, (Datum.table merged).holds? path = some .table ↔
    ∃ f ∈ fragments, (Datum.table f).holds? path = some .table
  nothing : ∀ path, (Datum.table merged).holds? path = none ↔
    ∀ f ∈ fragments, (Datum.table f).holds? path = none

theorem AreLayers.of_subset {fragments others : List (List (String × Datum))} (h : AreLayers fragments)
    (subset : others ⊆ fragments) : AreLayers others :=
  ⟨fun f hf => h.tidy f (subset hf), fun f hf g hg => h.agree f (subset hf) g (subset hg)⟩

/-- At every path stands what the last layer has there that has anything there. -/
theorem holds?_foldl {bottom : List (String × Datum)} {fragments : List (List (String × Datum))}
    (layers : AreLayers (bottom :: fragments)) (path : List String) :
    (Datum.table (fragments.foldl overlayEntries bottom)).holds? path =
      (bottom :: fragments).reverse.findSome? fun f => (Datum.table f).holds? path := by
  induction fragments using List.reverseRecOn generalizing path with
  | nil => cases h : (Datum.table bottom).holds? path <;> simp [h]
  | append_singleton lower upper ih =>
      have hlower : AreLayers (bottom :: lower) :=
        layers.of_subset (List.cons_subset_cons _ (List.subset_append_left _ _))
      have hupper : upper ∈ bottom :: (lower ++ [upper]) := by simp
      have hagrees : (Datum.table (lower.foldl overlayEntries bottom)).Agrees (.table upper) := by
        intro path x y hx hy
        rw [ih hlower] at hx
        obtain ⟨f, hf, hfound⟩ := List.exists_of_findSome?_eq_some hx
        have hmem : f ∈ bottom :: (lower ++ [upper]) :=
          List.cons_subset_cons _ (List.subset_append_left _ _) (List.mem_reverse.1 hf)
        exact layers.agree f hmem upper hupper path x y hfound hy
      rw [List.foldl_append, List.foldl_cons, List.foldl_nil, ← overlay_table,
        holds?_overlay hagrees (layers.tidy upper hupper), ih hlower, ← List.cons_append,
        List.reverse_append, List.reverse_singleton, List.singleton_append, List.findSome?_cons]
      cases (Datum.table upper).holds? path <;> rfl

theorem prevails_foldl {bottom : List (String × Datum)} {fragments : List (List (String × Datum))}
    (layers : AreLayers (bottom :: fragments)) :
    Prevails (bottom :: fragments) (fragments.foldl overlayEntries bottom) where
  value path v := by
    rw [holds?_foldl layers, List.findSome?_eq_some_iff]
    constructor
    · rintro ⟨after, f, before, hsplit, hfound, hnone⟩
      refine ⟨before.reverse, f, after.reverse, ?_, hfound, fun g hg w hw => ?_⟩
      · simpa using congrArg List.reverse hsplit
      · rw [hnone g (List.mem_reverse.1 hg)] at hw
        cases hw
    · rintro ⟨before, f, after, hsplit, hfound, hlast⟩
      refine ⟨after.reverse, f, before.reverse, by simp [hsplit], hfound, fun g hg => ?_⟩
      have hg := List.mem_reverse.1 hg
      cases hheld : (Datum.table g).holds? path with
      | none => rfl
      | some y =>
          -- A table there would be at odds with the value in `f`.
          cases y with
          | value w => exact absurd hheld (hlast g hg w)
          | table =>
              have hkind := layers.agree f (by simp [hsplit]) g (by simp [hsplit, hg]) path _ _ hfound hheld
              cases hkind.2 rfl
  table path := by
    rw [holds?_foldl layers]
    constructor
    · intro hheld
      obtain ⟨f, hf, hfound⟩ := List.exists_of_findSome?_eq_some hheld
      exact ⟨f, List.mem_reverse.1 hf, hfound⟩
    · rintro ⟨f, hf, hfound⟩
      cases hheld : (bottom :: fragments).reverse.findSome? fun f => (Datum.table f).holds? path with
      | none =>
          rw [List.findSome?_eq_none_iff.1 hheld f (List.mem_reverse.2 hf)] at hfound
          cases hfound
      | some x =>
          obtain ⟨g, hg, hother⟩ := List.exists_of_findSome?_eq_some hheld
          have hkind := layers.agree f hf g (List.mem_reverse.1 hg) path _ _ hfound hother
          rw [hkind.1 rfl]
  nothing path := by
    rw [holds?_foldl layers, List.findSome?_eq_none_iff]
    simp only [List.mem_reverse]

/-- Layers that are not at odds: the last one decides at every path, a layer over itself is that layer,
and layers may be put together in groups. -/
theorem mergeLayers_prevails {layers : List Layer} {fragments : List (List (String × Datum))}
    (contents : layers.map (·.content) = fragments.map .table) (nonempty : fragments ≠ [])
    (areLayers : AreLayers fragments) :
    (∃ merged, mergeLayers [] layers = .ok merged ∧ Prevails fragments merged) ∧
    (∀ f ∈ fragments, overlayEntries f f = f) ∧
    ∀ f ∈ fragments, ∀ g ∈ fragments, ∀ h ∈ fragments,
      overlayEntries (overlayEntries f g) h = overlayEntries f (overlayEntries g h) := by
  refine ⟨?_, fun f hf => ?_, fun f hf g hg h hh => ?_⟩
  · obtain ⟨bottom, others, rfl⟩ := List.exists_cons_of_ne_nil nonempty
    have hbottom := (areLayers.tidy bottom List.mem_cons_self).distinct
    refine ⟨others.foldl overlayEntries bottom, ?_, prevails_foldl areLayers⟩
    rw [mergeLayers_eq contents, List.foldl_cons, overlayEntries_nil hbottom]
  · have hself := overlay_self (areLayers.tidy f hf)
    rw [overlay_table] at hself
    exact Datum.table.inj hself
  · have hassoc := overlay_assoc (areLayers.tidy f hf) (areLayers.tidy g hg) (areLayers.tidy h hh)
      (areLayers.agree f hf g hg) (areLayers.agree g hg h hh)
    simp only [overlay_table] at hassoc
    exact Datum.table.inj hassoc

-- Where layers are at odds it matters in which groups they are put together.
example :
    let lower := [("shfmt", Datum.table [("enabled", .bool true)])]
    let middle := [("shfmt", Datum.null)]
    let upper := [("shfmt", Datum.table [])]
    overlayEntries (overlayEntries lower middle) upper ≠
      overlayEntries lower (overlayEntries middle upper) := by
  intro lower middle upper h
  cases h

/-- The tables of three layers; the second names another formatter, and the third another width. -/
def threeFragments : List (List (String × Datum)) :=
  [[("shfmt", .table [("enabled", .bool true), ("path", .text "shfmt")]), ("editor_tab_size", .int 4)],
    [("shfmt", .table [("path", .text "/opt/shfmt")])],
    [("editor_tab_size", .int 2), ("shellcheck", .table [("shell", .text "bash")])]]

theorem mergeLayers_prevails_three :
    AreLayers threeFragments ∧ ∃ merged,
      mergeLayers [] (threeFragments.map fun f => ⟨"a file", .table f⟩) = .ok merged ∧
      Prevails threeFragments merged ∧
      (Datum.table merged).holds? ["shfmt", "path"] = some (.value (.text "/opt/shfmt")) := by
  have hlayers : AreLayers threeFragments := by
    refine ⟨fun f hf => tidy_of_isTidy _ ?_, fun f hf g hg => agrees_of_isAtOdds ?_⟩
    · have hall : ∀ f ∈ threeFragments, (Datum.table f).isTidy = true := by
        decide
      exact hall f hf
    · have hall : ∀ f ∈ threeFragments, ∀ g ∈ threeFragments,
          (Datum.table f).isAtOdds (.table g) = false := by
        decide
      exact hall f hf g hg
  have hcontents : (threeFragments.map fun f => (⟨"a file", .table f⟩ : Layer)).map (·.content) =
      threeFragments.map .table := rfl
  obtain ⟨⟨merged, hmerged, hprevails⟩, -, -⟩ :=
    mergeLayers_prevails hcontents (by simp [threeFragments]) hlayers
  refine ⟨hlayers, merged, hmerged, hprevails, (hprevails.value _ _).2 ?_⟩
  refine ⟨[_], _, [_], rfl, rfl, fun g hg w => ?_⟩
  obtain rfl := List.mem_singleton.1 hg
  exact nofun

end Shellwright.Settings
