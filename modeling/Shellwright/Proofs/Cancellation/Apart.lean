import Mathlib.Data.List.Basic
import Shellwright.Proofs.Cancellation.Effects
/-!
# Tokens with and without one listener

Two users of the same tokens see the same of them, but for a callback that only one of them has seen
registered. Nothing that others do tells them further apart.
-/

namespace Shellwright.Cancellation

variable {σ ω : Type} [DecidableEq σ] [DecidableEq ω]

def Source.without (s : Source σ ω) (callback : ω) : Source σ ω :=
  { s with listeners := s.listeners.erase (.callback callback) }

/-- The deed neither registers the callback nor takes it back. -/
def Deed.Spares (d : Deed σ ω) (callback : ω) : Prop :=
  ∀ id, d ≠ .registers id callback ∧ d ≠ .withdraws id callback

namespace Ledger

/-- The callback listens to no source. -/
def Unheard (l : Ledger σ ω) (callback : ω) : Prop :=
  ∀ id s, l.source? id = some s → .callback callback ∉ s.listeners

/-- The sources are the same, but for a callback that only the first ledger may have, at one place. -/
def Apart (callback : ω) (place : Option σ) (l l' : Ledger σ ω) : Prop :=
  ∀ id, l'.source? id = if place = some id then (l.source? id).map (·.without callback) else l.source? id

variable {l l' : Ledger σ ω} {callback other : ω} {place : Option σ} {id : σ} {d : Deed σ ω}
  {listener : Listener σ ω} {f : Source σ ω → Source σ ω} {s : Source σ ω}

/-! ## The callback is unheard -/

omit [DecidableEq ω] in
theorem Unheard.put (h : l.Unheard callback) (unheard : .callback callback ∉ s.listeners) :
    (l.put id s).Unheard callback := by
  intro x s' hs'
  simp only [Ledger.put] at hs'
  split at hs'
  · cases hs'
    exact unheard
  · exact h x s' hs'

omit [DecidableEq ω] in
theorem Unheard.change (h : l.Unheard callback)
    (unheard : ∀ s : Source σ ω, .callback callback ∉ s.listeners → .callback callback ∉ (f s).listeners) :
    (l.change id f).Unheard callback := by
  intro x s hs
  simp only [Ledger.change] at hs
  split at hs
  · obtain ⟨s', hs', rfl⟩ := Option.map_eq_some_iff.1 hs
    exact unheard s' (h x s' hs')
  · exact h x s hs

omit [DecidableEq ω] in
theorem Unheard.addListener (h : l.Unheard callback) (ne : listener ≠ .callback callback) :
    (l.addListener id listener).Unheard callback :=
  h.change fun s hs => by simp [hs, Ne.symm ne]

theorem Unheard.removeListener (h : l.Unheard callback) : (l.removeListener id listener).Unheard callback :=
  h.change fun _ hs hmem => hs (List.mem_of_mem_erase hmem)

theorem Unheard.after (h : l.Unheard callback) (spares : d.Spares callback) :
    (l.after d).Unheard callback := by
  cases d with
  | rests => exact h
  | makes id parent =>
      cases parent with
      | none => exact h.put (by simp)
      | some p =>
          simp only [Ledger.after]
          split
          · exact h.put (by simp)
          · exact (h.put (by simp)).addListener (by simp)
  | cancels id =>
      simp only [Ledger.after]
      split
      · exact h
      · split
        · exact h
        · exact h.put (by simp)
  | detaches id =>
      simp only [Ledger.after]
      split
      · exact h
      · refine Unheard.removeListener (h.change ?_)
        exact fun _ hs => hs
  | registers id other =>
      simp only [Ledger.after]
      split
      · exact h
      · refine h.addListener fun heq => (spares id).1 ?_
        cases heq
        rfl
  | withdraws id other => exact h.removeListener
  | calls other => exact h

/-! ## Deeds of others -/

theorem Apart.isCancelled (h : Apart callback place l l') (id : σ) :
    l'.isCancelled id = l.isCancelled id := by
  unfold Ledger.isCancelled
  rw [h id]
  split
  · cases l.source? id <;> rfl
  · rfl

theorem Apart.parent? (h : Apart callback place l l') (id : σ) : l'.parent? id = l.parent? id := by
  unfold Ledger.parent?
  rw [h id]
  split
  · cases l.source? id <;> rfl
  · rfl

theorem Apart.put (h : Apart callback place l l') (silent : s.listeners = []) :
    Apart callback place (l.put id s) (l'.put id s) := by
  have hwithout : s.without callback = s := by
    unfold Source.without
    rw [silent, List.erase_nil, ← silent]
  intro x
  by_cases hx : x = id
  · simp [Ledger.put, hx, hwithout]
  · simpa [Ledger.put, hx] using h x

theorem Apart.change (h : Apart callback place l l')
    (commutes : ∀ s : Source σ ω, (f s).without callback = f (s.without callback)) :
    Apart callback place (l.change id f) (l'.change id f) := by
  intro x
  by_cases hx : x = id
  · simp only [Ledger.change, hx, if_true]
    rw [h id]
    split
    · cases l.source? id with
      | none => rfl
      | some s => exact congrArg some (commutes s).symm
    · rfl
  · simpa [Ledger.change, hx] using h x

theorem Apart.addListener (h : Apart callback place l l') (ne : listener ≠ .callback callback) :
    Apart callback place (l.addListener id listener) (l'.addListener id listener) := by
  refine h.change fun s => ?_
  unfold Source.without
  congr 1
  rw [List.erase_append]
  split
  · rfl
  · rename_i hunheard
    rw [List.erase_of_not_mem hunheard, List.erase_of_not_mem (by simpa using Ne.symm ne)]

theorem Apart.removeListener (h : Apart callback place l l') (listener : Listener σ ω) :
    Apart callback place (l.removeListener id listener) (l'.removeListener id listener) := by
  refine h.change fun s => ?_
  unfold Source.without
  congr 1
  exact List.erase_comm ..

theorem Apart.after (h : Apart callback place l l') (spares : d.Spares callback) :
    Apart callback place (l.after d) (l'.after d) := by
  cases d with
  | rests => exact h
  | makes id parent =>
      cases parent with
      | none => exact h.put rfl
      | some p =>
          simp only [Ledger.after, h.isCancelled]
          split
          · exact h.put rfl
          · exact (h.put rfl).addListener (by simp)
  | cancels id =>
      cases hs : l.source? id with
      | none =>
          have hs' : l'.source? id = none := by
            rw [h id, hs]
            split <;> rfl
          simp only [Ledger.after, hs, hs']
          exact h
      | some s =>
          -- Cancelling leaves nothing of the listeners.
          obtain ⟨s', hs', hcancelled, hrest⟩ : ∃ s', l'.source? id = some s' ∧
              s'.cancelled = s.cancelled ∧ s'.parent = s.parent := by
            rw [h id, hs]
            split <;> exact ⟨_, rfl, rfl, rfl⟩
          simp only [Ledger.after, hs, hs', hcancelled, hrest]
          split
          · exact h
          · exact h.put rfl
  | detaches id =>
      simp only [Ledger.after, h.parent?]
      split
      · exact h
      · exact (h.change fun _ => rfl).removeListener _
  | registers id other =>
      simp only [Ledger.after, h.isCancelled]
      split
      · exact h
      · refine h.addListener fun heq => (spares id).1 ?_
        cases heq
        rfl
  | withdraws id other => exact h.removeListener _
  | calls other => exact h

/-! ## Listening for a time -/

theorem apart_self (l : Ledger σ ω) (callback : ω) : Apart callback none l l :=
  fun _ => rfl

theorem Apart.source?_eq (h : Apart callback none l l') (id : σ) : l.source? id = l'.source? id :=
  (h id).symm

theorem Unheard.without_eq (h : l.Unheard callback) (id : σ) :
    (l.source? id).map (·.without callback) = l.source? id := by
  cases hs : l.source? id with
  | none => rfl
  | some s =>
      rw [Option.map_some, Source.without, List.erase_of_not_mem (h id s hs)]

theorem Apart.registers (h : Apart callback none l l') (unheard : l.Unheard callback) (id : σ) :
    Apart callback (some id) (l.after (.registers id callback)) l' := by
  have hsource : ∀ x, l'.source? x = l.source? x := h
  intro x
  rw [hsource]
  cases hcancelled : l.isCancelled id with
  | true =>
      simp only [Ledger.after, hcancelled, if_true, Ledger.call]
      rw [unheard.without_eq, ite_self]
  | false =>
      simp only [Ledger.after, hcancelled, Bool.false_eq_true, if_false, Ledger.addListener,
        Ledger.change, Option.some.injEq]
      by_cases hx : x = id
      · subst hx
        simp only [if_true]
        cases hs : l.source? x with
        | none => rfl
        | some s =>
            rw [Option.map_some, Option.map_some, Source.without, List.erase_append,
              if_neg (unheard x s hs), List.erase_cons_head, List.append_nil]
      · simp [hx, Ne.symm hx]

theorem Apart.withdraws (h : Apart callback (some id) l l') :
    Apart callback none (l.after (.withdraws id callback)) l' := by
  intro x
  rw [h x]
  by_cases hx : x = id
  · subst hx
    simp [Ledger.after, Ledger.removeListener, Ledger.change, Source.without]
  · simp [Ledger.after, Ledger.removeListener, Ledger.change, hx, Ne.symm hx]

end Ledger

end Shellwright.Cancellation
