import Shellwright.Proofs.Keyed
import Shellwright.Wire.Datum
/-!
# Values at paths

A path leads from a table to what stands under a key of it, and on from there. Two values are at odds
where one has a table and the other has something else; whether they are can be computed.
-/

namespace Shellwright.Datum

/-! ## What stands at a path -/

/-- Every table has distinct keys, as a table has that is a mapping. -/
inductive Tidy : Datum → Prop
  | table (entries : List (String × Datum)) (distinct : (Keyed.keys entries).Nodup)
      (inner : ∀ e ∈ entries, e.2.Tidy) : Tidy (.table entries)
  | other (d : Datum) (solid : ∀ entries, d ≠ .table entries) : Tidy d

/-- The value at a path, which leads through tables only. -/
def at? (d : Datum) : List String → Option Datum
  | [] => some d
  | key :: path => (d.get? key).bind (·.at? path)

inductive Held
  | table
  | value (d : Datum)

def held : Datum → Held
  | .table _ => .table
  | d => .value d

/-- What stands at a path: a table, any other value, or nothing. -/
def holds? (d : Datum) (path : List String) : Option Held :=
  (d.at? path).map held

/-- Where both hold something, either both hold a table or neither does. -/
def Agrees (a b : Datum) : Prop :=
  ∀ path x y, a.holds? path = some x → b.holds? path = some y → (x = .table ↔ y = .table)

variable {a b c d : Datum} {entries : List (String × Datum)} {key : String}

theorem get?_table (entries : List (String × Datum)) (key : String) :
    (table entries).get? key = Keyed.get? entries key :=
  Keyed.lookup_eq entries key

theorem get?_of_solid (solid : ∀ entries, d ≠ .table entries) (key : String) : d.get? key = none := by
  cases d with
  | table entries => exact absurd rfl (solid entries)
  | _ => rfl

theorem holds?_cons (d : Datum) (key : String) (path : List String) :
    d.holds? (key :: path) = (d.get? key).bind (·.holds? path) := by
  rw [holds?, at?]
  cases d.get? key <;> rfl

theorem Tidy.distinct (h : (Datum.table entries).Tidy) : (Keyed.keys entries).Nodup := by
  cases h with
  | table _ distinct _ => exact distinct
  | other _ solid => exact absurd rfl (solid entries)

theorem Tidy.found (h : (Datum.table entries).Tidy) (found : Keyed.get? entries key = some d) :
    d.Tidy := by
  cases h with
  | table _ _ inner => exact inner _ (Keyed.mem_of_get? found)
  | other _ solid => exact absurd rfl (solid entries)

theorem Agrees.symm (h : a.Agrees b) : b.Agrees a :=
  fun path x y hx hy => (h path y x hy hx).symm

theorem Agrees.below (h : a.Agrees b) (left : a.get? key = some c) (right : b.get? key = some d) :
    c.Agrees d := by
  intro path x y hx hy
  refine h (key :: path) x y ?_ ?_
  · rw [holds?_cons, left]
    exact hx
  · rw [holds?_cons, right]
    exact hy

/-- What agrees with a table is a table. -/
theorem Agrees.table_of_table (h : (table entries).Agrees d) : ∃ others, d = .table others := by
  have hheld : d.held = .table := (h [] _ _ rfl rfl).1 rfl
  cases d with
  | table others => exact ⟨others, rfl⟩
  | _ => cases hheld

theorem Agrees.solid_of_solid (h : a.Agrees d) (solid : ∀ entries, d ≠ .table entries) :
    ∀ entries, a ≠ .table entries := by
  rintro entries rfl
  obtain ⟨others, hd⟩ := h.table_of_table
  exact solid others hd

/-! ## Telling by computation -/

mutual

def isTidy : Datum → Bool
  | .table entries => decide (Keyed.keys entries).Nodup && entriesTidy entries
  | _ => true

def entriesTidy : List (String × Datum) → Bool
  | [] => true
  | (_, d) :: rest => isTidy d && entriesTidy rest

end

mutual

theorem tidy_of_isTidy : ∀ d : Datum, d.isTidy = true → d.Tidy
  | .table entries, h =>
      have hboth := Bool.and_eq_true_iff.1 h
      .table entries (of_decide_eq_true hboth.1) (inner_of_entriesTidy entries hboth.2)
  | .null, _ => .other _ nofun
  | .bool _, _ => .other _ nofun
  | .int _, _ => .other _ nofun
  | .float _, _ => .other _ nofun
  | .text _, _ => .other _ nofun
  | .list _, _ => .other _ nofun
  | .moment _, _ => .other _ nofun

theorem inner_of_entriesTidy : ∀ entries : List (String × Datum), entriesTidy entries = true →
    ∀ e ∈ entries, e.2.Tidy
  | [], _ => nofun
  | (_, d) :: rest, h =>
      have hboth := Bool.and_eq_true_iff.1 h
      List.forall_mem_cons.2 ⟨tidy_of_isTidy d hboth.1, inner_of_entriesTidy rest hboth.2⟩

end

mutual

/-- One of the two has a table where the other has something else. -/
def isAtOdds : Datum → Datum → Bool
  | .table lower, .table upper => entriesAtOdds lower upper
  | .table _, _ => true
  | _, .table _ => true
  | _, _ => false

def entriesAtOdds : List (String × Datum) → List (String × Datum) → Bool
  | [], _ => false
  | (key, c) :: rest, upper =>
    ((Keyed.get? upper key).any fun d => isAtOdds c d) || entriesAtOdds rest upper

end

theorem isAtOdds_of_found {lower upper : List (String × Datum)} (h : entriesAtOdds lower upper = false)
    (left : Keyed.get? lower key = some c) (right : Keyed.get? upper key = some d) :
    c.isAtOdds d = false := by
  induction lower with
  | nil => cases left
  | cons e rest ih =>
      obtain ⟨first, c'⟩ := e
      rw [entriesAtOdds, Bool.or_eq_false_iff] at h
      rw [Keyed.get?_cons] at left
      by_cases hkey : first = key
      · subst hkey
        obtain rfl : c' = c := by simpa using left
        simpa [right] using h.1
      · exact ih h.2 (by simpa [hkey] using left)

theorem agrees_of_isAtOdds (h : a.isAtOdds b = false) : a.Agrees b := by
  intro path
  induction path generalizing a b with
  | nil =>
      rintro x y ⟨⟩ ⟨⟩
      cases a <;> cases b <;> simp_all [isAtOdds, held]
  | cons key path ih =>
      intro x y hx hy
      rw [holds?_cons, Option.bind_eq_some_iff] at hx hy
      obtain ⟨c, hc, hx⟩ := hx
      obtain ⟨d, hd, hy⟩ := hy
      cases a with
      | table lower =>
          cases b with
          | table upper =>
              rw [get?_table] at hc hd
              exact ih (isAtOdds_of_found h hc hd) x y hx hy
          | _ => cases hd
      | _ => cases hc

end Shellwright.Datum
