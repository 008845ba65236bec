import Shellwright.Command.Session
/-!
# Steps of a command

A command is a row of steps of which each may stop it.
-/

namespace Shellwright.Command

variable {α β : Type} {s s₁ s' : Session}

theorem Work.bind_of_ok {x : Work α} {a : α} (h : x s = (.ok a, s₁)) (f : α → Work β) :
    (x >>= f) s = f a s₁ := by
  change (match x s with | (result, s₁) => ExceptT.bindCont f result s₁) = f a s₁
  rw [h]
  rfl

theorem Work.bind_of_error {x : Work α} {e : Stop} (h : x s = (.error e, s₁)) (f : α → Work β) :
    (x >>= f) s = (.error e, s₁) := by
  change (match x s with | (result, s₁) => ExceptT.bindCont f result s₁) = (.error e, s₁)
  rw [h]
  rfl

/-- The rest of a command sees only how its first step ends. -/
theorem Work.bind_congr {x y : Work α} (h : x s = y s₁) (f : α → Work β) : (x >>= f) s = (y >>= f) s₁ := by
  change (match x s with | (result, s₁) => ExceptT.bindCont f result s₁) =
    (match y s₁ with | (result, s₁) => ExceptT.bindCont f result s₁)
  rw [h]

/-- A command stops with its first step, or goes on from what that has brought. -/
theorem Work.bind_cases {P : Except Stop β × Session → Prop} {x : Work α} {f : α → Work β}
    (stops : ∀ e s₁, x s = (.error e, s₁) → P (.error e, s₁))
    (goes : ∀ a s₁, x s = (.ok a, s₁) → P (f a s₁)) : P ((x >>= f) s) := by
  cases hx : x s with
  | mk result s₁ =>
      cases result with
      | ok a =>
          rw [Work.bind_of_ok hx]
          exact goes a s₁ hx
      | error e =>
          rw [Work.bind_of_error hx]
          exact stops e s₁ hx

/-- Two commands with the same first step. -/
theorem Work.bind_cases₂ {γ : Type} {R : Except Stop β × Session → Except Stop γ × Session → Prop} {x : Work α}
    {f : α → Work β} {g : α → Work γ} (stops : ∀ e s₁, x s = (.error e, s₁) → R (.error e, s₁) (.error e, s₁))
    (goes : ∀ a s₁, x s = (.ok a, s₁) → R (f a s₁) (g a s₁)) : R ((x >>= f) s) ((x >>= g) s) := by
  cases hx : x s with
  | mk result s₁ =>
      cases result with
      | ok a =>
          rw [Work.bind_of_ok hx, Work.bind_of_ok hx]
          exact goes a s₁ hx
      | error e =>
          rw [Work.bind_of_error hx, Work.bind_of_error hx]
          exact stops e s₁ hx

/-- A command that came to its end has come to the end of its first step, too. -/
theorem Work.of_bind {x : Work α} {f : α → Work β} {b : β} (h : (x >>= f) s = (.ok b, s')) :
    ∃ a s₁, x s = (.ok a, s₁) ∧ f a s₁ = (.ok b, s') := by
  cases hx : x s with
  | mk result s₁ =>
      cases result with
      | ok a => exact ⟨a, s₁, rfl, (Work.bind_of_ok hx f) ▸ h⟩
      | error e =>
          rw [Work.bind_of_error hx f] at h
          cases h

theorem Work.exists_bind {x : Work α} {a : α} (h : x s = (.ok a, s₁)) {f : α → Work β}
    {P : β → Session → Prop} (rest : ∃ b s', f a s₁ = (.ok b, s') ∧ P b s') :
    ∃ b s', (x >>= f) s = (.ok b, s') ∧ P b s' := by
  rw [Work.bind_of_ok h]
  exact rest

/-- What is done before the rest of a command if it is wanted. -/
theorem Work.of_optional {wanted : Prop} [Decidable wanted] {x : Work Unit} {y : Work β} {b : β}
    (h : (if wanted then x >>= fun _ => y else y : Work β) s = (.ok b, s')) :
    ∃ s₁, (if wanted then x else pure () : Work Unit) s = (.ok (), s₁) ∧ y s₁ = (.ok b, s') := by
  by_cases hwanted : wanted
  · rw [if_pos hwanted] at h ⊢
    obtain ⟨_, s₁, hx, hrest⟩ := Work.of_bind h
    exact ⟨s₁, hx, hrest⟩
  · rw [if_neg hwanted] at h ⊢
    exact ⟨s, rfl, h⟩

/-- What may be done before a value is handed out does not change it. -/
theorem Work.eq_of_optional {wanted : Prop} [Decidable wanted] {x : Work Unit} {a b : α}
    (h : (if wanted then x >>= fun _ => pure a else pure a : Work α) s = (.ok b, s')) : b = a := by
  obtain ⟨_, _, hpure⟩ := Work.of_optional h
  cases hpure
  rfl

/-- The step leaves the files and the bench as they are. -/
def Spares (x : Work α) : Prop :=
  ∀ s, (x s).2.files = s.files ∧ (x s).2.bench = s.bench

namespace Spares

theorem pure (a : α) : Spares (Pure.pure a : Work α) :=
  fun _ => ⟨rfl, rfl⟩

theorem throw (e : Stop) : Spares (MonadExcept.throw e : Work α) :=
  fun _ => ⟨rfl, rfl⟩

theorem get : Spares (MonadState.get : Work Session) :=
  fun _ => ⟨rfl, rfl⟩

theorem bind {x : Work α} {f : α → Work β} (h : Spares x) (rest : ∀ a, Spares (f a)) : Spares (x >>= f) := by
  intro s
  obtain ⟨hfiles, hbench⟩ := h s
  refine Work.bind_cases (P := fun r => r.2.files = s.files ∧ r.2.bench = s.bench) (fun e s₁ hx => ?_)
    fun a s₁ hx => ?_
  · rw [hx] at hfiles hbench
    exact ⟨hfiles, hbench⟩
  · rw [hx] at hfiles hbench
    exact ⟨(rest a s₁).1.trans hfiles, (rest a s₁).2.trans hbench⟩

theorem notify (tone : Console.Tone) (message : String) : Spares (notify tone message) := by
  intro s
  change (s.notify tone message).files = s.files ∧ (s.notify tone message).bench = s.bench
  unfold Session.notify
  dsimp only
  split <;> exact ⟨rfl, rfl⟩

theorem printTable (t : Console.Table) : Spares (printTable t) := by
  unfold Command.printTable
  split
  · exact fun _ => ⟨rfl, rfl⟩
  · exact throw _

theorem printTimings : Spares printTimings :=
  get.bind fun _ => printTable _

end Spares

end Shellwright.Command
