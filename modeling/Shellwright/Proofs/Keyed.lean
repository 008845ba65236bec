import Mathlib.Data.List.Induction
import Shellwright.Keyed
/-!
# Looking up in keyed lists

What is found under a key after a change under another one, and where keys come from.
-/

namespace Shellwright.Keyed

variable {κ ν : Type} [DecidableEq κ]

@[simp] theorem get?_nil (key : κ) : get? ([] : Keyed κ ν) key = none := rfl

theorem get?_cons (e : κ × ν) (rest : Keyed κ ν) (key : κ) :
    get? (e :: rest) key = if e.1 = key then some e.2 else rest.get? key := by
  by_cases h : e.1 = key <;> simp [get?, h]

theorem lookup_eq (entries : Keyed κ ν) (key : κ) : List.lookup key entries = entries.get? key := by
  induction entries with
  | nil => rfl
  | cons e rest ih =>
      obtain ⟨other, value⟩ := e
      rw [get?_cons, List.lookup_cons, ih]
      by_cases h : other = key
      · simp [h]
      · have hkey : (key == other) = false := beq_false_of_ne (Ne.symm h)
        simp [h, hkey]

theorem get?_put (entries : Keyed κ ν) (key other : κ) (value : ν) :
    (entries.put key value).get? other =
      if other = key then some value else entries.get? other := by
  by_cases h : other = key
  · subst h
    rw [if_pos rfl, get?_put_self]
  · rw [if_neg h, get?_put_of_ne value h]

theorem get?_drop (entries : Keyed κ ν) (key other : κ) :
    (entries.drop key).get? other =
      if other = key then none else entries.get? other := by
  induction entries with
  | nil => simp [drop, get?]
  | cons e rest ih =>
      by_cases he : e.1 = key
      · have hdrop : drop (e :: rest) key = drop rest key := by simp [drop, he]
        rw [hdrop, ih]
        by_cases ho : other = key
        · simp [ho]
        · have hne : ¬ e.1 = other := by
            rw [he]
            exact fun h => ho h.symm
          simp [get?, ho, hne]
      · have hdrop : drop (e :: rest) key = e :: drop rest key := by simp [drop, he]
        rw [hdrop]
        by_cases ho : e.1 = other
        · have hne : other ≠ key := by
            rw [← ho]
            exact he
          simp [get?, ho, hne]
        · simpa [get?, ho] using ih

theorem get?_change (entries : Keyed κ ν) (key other : κ) (f : ν → ν) :
    (entries.change key f).get? other =
      if other = key then (entries.get? other).map f else entries.get? other := by
  induction entries with
  | nil => simp [change, get?]
  | cons e rest ih =>
      have hchange : change (e :: rest) key f =
          (if e.1 = key then (e.1, f e.2) else e) :: change rest key f := rfl
      rw [hchange]
      by_cases ho : e.1 = other
      · by_cases hk : other = key
        · simp [get?, ho, hk]
        · simp [get?, ho, hk]
      · have hne : ¬ (if e.1 = key then (e.1, f e.2) else e).1 = other := by
          split <;> exact ho
        simpa [get?, ho, hne] using ih

@[simp] theorem keys_change (entries : Keyed κ ν) (key : κ) (f : ν → ν) :
    (entries.change key f).keys = entries.keys := by
  unfold change keys
  rw [List.map_map]
  refine List.map_congr_left fun e _ => ?_
  change (if e.1 = key then (e.1, f e.2) else e).1 = e.1
  split <;> rfl

theorem has_iff (entries : Keyed κ ν) (key : κ) :
    entries.has key = true ↔ ∃ value, entries.get? key = some value := by
  induction entries with
  | nil => simp [has, get?]
  | cons e rest ih =>
      by_cases he : e.1 = key
      · simp [has, get?, he]
      · simpa [has, get?, he] using ih

theorem has_eq_false_iff (entries : Keyed κ ν) (key : κ) :
    entries.has key = false ↔ entries.get? key = none := by
  rw [← Bool.not_eq_true, has_iff]
  cases entries.get? key <;> simp

/-- Putting a value where it is already changes nothing. -/
theorem put_found {entries : Keyed κ ν} {key : κ} {value : ν}
    (h : entries.get? key = some value) : entries.put key value = entries := by
  induction entries with
  | nil => cases h
  | cons e rest ih =>
      by_cases he : e.1 = key
      · have hvalue : e.2 = value := by simpa [get?, he] using h
        rw [put, if_pos he, ← he, ← hvalue]
      · have hrest : get? rest key = some value := by simpa [get?, he] using h
        rw [put, if_neg he, ih hrest]

theorem mem_of_get? {entries : Keyed κ ν} {key : κ} {value : ν}
    (h : entries.get? key = some value) : (key, value) ∈ entries := by
  obtain ⟨e, he, rfl⟩ := Option.map_eq_some_iff.1 h
  have hkey : e.1 = key := by simpa using List.find?_some he
  rw [← hkey]
  exact List.mem_of_find?_eq_some he

theorem get?_of_mem {entries : Keyed κ ν} (distinct : entries.keys.Nodup) {key : κ} {value : ν}
    (h : (key, value) ∈ entries) : entries.get? key = some value := by
  induction entries with
  | nil => cases h
  | cons e rest ih =>
      obtain ⟨hfirst, hrest⟩ := List.nodup_cons.1 distinct
      rcases List.mem_cons.1 h with rfl | hmem
      · simp [get?]
      · have hne : e.1 ≠ key := by
          rintro rfl
          exact hfirst (List.mem_map.2 ⟨_, hmem, rfl⟩)
        simpa [get?, hne] using ih hrest hmem

theorem has_of_mem_keys {entries : Keyed κ ν} {key : κ} (h : key ∈ entries.keys) :
    entries.has key = true := by
  obtain ⟨e, he, rfl⟩ := List.mem_map.1 h
  exact List.any_eq_true.2 ⟨e, he, by simp⟩

theorem keys_put (entries : Keyed κ ν) (key : κ) (value : ν) :
    (entries.put key value).keys =
      if entries.has key then entries.keys else entries.keys ++ [key] := by
  induction entries with
  | nil => rfl
  | cons e rest ih =>
      by_cases he : e.1 = key
      · simp [put, has, keys, he]
      · have hhas : has (e :: rest) key = has rest key := by simp [has, he]
        have hput : put (e :: rest) key value = e :: put rest key value := by simp [put, he]
        rw [hput, hhas]
        change e.1 :: keys (put rest key value) = _
        rw [ih]
        split <;> rfl

theorem nodup_keys_put {entries : Keyed κ ν} (h : entries.keys.Nodup) (key : κ) (value : ν) :
    (entries.put key value).keys.Nodup := by
  rw [keys_put]
  split
  · exact h
  · rename_i hhas
    rw [List.nodup_append]
    refine ⟨h, by simp, ?_⟩
    rintro x hx y hy rfl
    rw [List.mem_singleton] at hy
    subst hy
    exact hhas (has_of_mem_keys hx)

theorem get?_eq_none_iff {entries : Keyed κ ν} {key : κ} :
    entries.get? key = none ↔ key ∉ entries.keys := by
  rw [← has_eq_false_iff, ← Bool.not_eq_true, not_iff_not]
  refine ⟨fun h => ?_, has_of_mem_keys⟩
  obtain ⟨value, hvalue⟩ := (has_iff _ _).1 h
  exact List.mem_map.2 ⟨_, mem_of_get? hvalue, rfl⟩

/-- Entries are told by their keys, in order, and by what is found under each. -/
theorem ext_get? {entries others : Keyed κ ν} (distinct : entries.keys.Nodup)
    (keys : entries.keys = others.keys) (found : ∀ key, entries.get? key = others.get? key) :
    entries = others := by
  induction entries generalizing others with
  | nil =>
      cases others with
      | nil => rfl
      | cons o rest => cases keys
  | cons e rest ih =>
      cases others with
      | nil => cases keys
      | cons o rest' =>
          obtain ⟨key, value⟩ := e
          obtain ⟨key', value'⟩ := o
          obtain ⟨hnew, hdistinct⟩ := List.nodup_cons.1 distinct
          obtain ⟨rfl, hkeys⟩ : key = key' ∧ Keyed.keys rest = Keyed.keys rest' :=
            List.cons.inj keys
          obtain rfl : value = value' := by simpa [get?_cons] using found key
          refine congrArg _ (ih hdistinct hkeys fun other => ?_)
          by_cases hother : key = other
          · subst hother
            rw [get?_eq_none_iff.2 hnew, get?_eq_none_iff.2 (hkeys ▸ hnew)]
          · simpa [get?_cons, hother] using found other

theorem nodup_keys_ofList (pairs : List (κ × ν)) : (ofList pairs).keys.Nodup := by
  have hfold : ∀ (pairs : List (κ × ν)) (start : Keyed κ ν), start.keys.Nodup →
      (pairs.foldl (fun entries p => put entries p.1 p.2) start).keys.Nodup := by
    intro pairs
    induction pairs with
    | nil => exact fun _ h => h
    | cons e rest ih => exact fun start h => ih _ (nodup_keys_put h e.1 e.2)
  exact hfold pairs [] List.nodup_nil

/-- What holds of all pairs that a keyed list is made of holds of what is found in it. -/
theorem get?_ofList {pairs : List (κ × ν)} {P : κ → ν → Prop}
    (hpairs : ∀ e ∈ pairs, P e.1 e.2) {key : κ} {value : ν}
    (h : (ofList pairs).get? key = some value) : P key value := by
  have hfold : ∀ (pairs : List (κ × ν)) (start : Keyed κ ν), (∀ e ∈ pairs, P e.1 e.2) →
      (∀ key value, start.get? key = some value → P key value) →
      ∀ key value, (pairs.foldl (fun entries p => put entries p.1 p.2) start).get? key =
        some value → P key value := by
    intro pairs
    induction pairs with
    | nil => exact fun _ _ hstart => hstart
    | cons e rest ih =>
        intro start hmem hstart
        refine ih _ (fun e' he' => hmem e' (by simp [he'])) ?_
        intro key value hfound
        rw [get?_put] at hfound
        split at hfound
        · rename_i heq
          cases hfound
          rw [heq]
          exact hmem e (by simp)
        · exact hstart key value hfound
  exact hfold pairs [] hpairs (by simp) key value h

end Shellwright.Keyed

namespace Shellwright

theorem mem_distinct {α : Type} [DecidableEq α] {xs : List α} {a : α} : a ∈ distinct xs ↔ a ∈ xs := by
  induction xs with
  | nil => rfl
  | cons x rest ih =>
      unfold distinct
      by_cases h : a = x <;> simp [h, ih]

theorem nodup_distinct {α : Type} [DecidableEq α] (xs : List α) : (distinct xs).Nodup := by
  induction xs with
  | nil => simp [distinct]
  | cons y rest ih =>
      rw [distinct, List.nodup_cons]
      exact ⟨by simp, ih.filter _⟩

theorem distinct_concat {α : Type} [DecidableEq α] (xs : List α) (a : α) :
    distinct (xs ++ [a]) = if a ∈ xs then distinct xs else distinct xs ++ [a] := by
  induction xs with
  | nil => rfl
  | cons x rest ih =>
      rw [List.cons_append, distinct, ih, distinct]
      by_cases hrest : a ∈ rest
      · rw [if_pos hrest, if_pos (List.mem_cons_of_mem x hrest)]
      · rw [if_neg hrest, List.filter_append]
        by_cases hx : a = x
        · rw [if_pos (List.mem_cons.2 (.inl hx))]
          simp [hx]
        · rw [if_neg (by simp [hx, hrest])]
          simp [hx]

namespace Keyed

variable {κ ν : Type} [DecidableEq κ]

theorem ofList_concat (pairs : List (κ × ν)) (e : κ × ν) :
    ofList (pairs ++ [e]) = (ofList pairs).put e.1 e.2 := by
  unfold ofList
  rw [List.foldl_append]
  rfl

/-- Keys stand in the order in which they come first. -/
theorem keys_ofList (pairs : List (κ × ν)) : (ofList pairs).keys = distinct (pairs.map Prod.fst) := by
  induction pairs using List.reverseRecOn with
  | nil => rfl
  | append_singleton pairs e ih =>
      have hhas : (ofList pairs).has e.1 = true ↔ e.1 ∈ pairs.map Prod.fst := by
        rw [← mem_distinct, ← ih]
        exact ⟨fun h => List.mem_map.2 ⟨_, mem_of_get? ((has_iff _ _).1 h).choose_spec, rfl⟩,
          has_of_mem_keys⟩
      rw [ofList_concat, keys_put, List.map_append, List.map_singleton, distinct_concat, ih]
      exact if_congr hhas rfl rfl

/-- The last value of a key is found. -/
theorem find_ofList (pairs : List (κ × ν)) (key : κ) :
    (ofList pairs).get? key = ((pairs.filter (·.1 == key)).getLast?).map Prod.snd := by
  induction pairs using List.reverseRecOn with
  | nil => rfl
  | append_singleton pairs e ih =>
      rw [ofList_concat, get?_put, List.filter_append]
      by_cases hkey : e.1 = key
      · simp [hkey]
      · rw [if_neg (Ne.symm hkey), ih]
        simp [hkey]

end Keyed

end Shellwright
