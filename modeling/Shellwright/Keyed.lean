/-!
# Keyed lists

Values under distinct keys, in the order in which the keys were first put. Putting a value under a
known key keeps the key's place.
-/

namespace Shellwright

/-- Pairs of a key and its value. -/
abbrev Keyed (κ ν : Type) := List (κ × ν)

namespace Keyed

variable {κ ν : Type} [DecidableEq κ]

def get? (entries : Keyed κ ν) (key : κ) : Option ν :=
  (entries.find? fun e => e.1 == key).map Prod.snd

def has (entries : Keyed κ ν) (key : κ) : Bool :=
  entries.any fun e => e.1 == key

def put : Keyed κ ν → κ → ν → Keyed κ ν
  | [], key, value => [(key, value)]
  | e :: rest, key, value =>
    if e.1 = key then (key, value) :: rest else e :: put rest key value

def drop (entries : Keyed κ ν) (key : κ) : Keyed κ ν :=
  entries.filter fun e => e.1 != key

def change (entries : Keyed κ ν) (key : κ) (f : ν → ν) : Keyed κ ν :=
  entries.map fun e => if e.1 = key then (e.1, f e.2) else e

def keys (entries : Keyed κ ν) : List κ :=
  entries.map Prod.fst

def values (entries : Keyed κ ν) : List ν :=
  entries.map Prod.snd

/-- Later values win; a key keeps the place of its first value. -/
def ofList (pairs : List (κ × ν)) : Keyed κ ν :=
  pairs.foldl (fun entries p => put entries p.1 p.2) []

theorem get?_put_self (entries : Keyed κ ν) (key : κ) (value : ν) :
    (entries.put key value).get? key = some value := by
  induction entries with
  | nil => simp [put, get?]
  | cons e rest ih =>
    by_cases h : e.1 = key
    · simp [put, get?, h]
    · simp only [put, h, if_false]
      simpa [get?, h] using ih

theorem get?_put_of_ne {entries : Keyed κ ν} {key other : κ} (value : ν) (h : other ≠ key) :
    (entries.put key value).get? other = entries.get? other := by
  induction entries with
  | nil => simp [put, get?, Ne.symm h]
  | cons e rest ih =>
    by_cases he : e.1 = key
    · subst he
      simp [put, get?, Ne.symm h]
    · simp only [put, he, if_false]
      by_cases ho : e.1 = other
      · simp [get?, ho]
      · simpa [get?, ho] using ih

end Keyed

/-- The elements without later repetitions. -/
def distinct {α : Type} [DecidableEq α] : List α → List α
  | [] => []
  | x :: rest => x :: (distinct rest).filter (· != x)

end Shellwright
