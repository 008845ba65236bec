import Shellwright.Proofs.Cancellation.Script
/-!
# What a deed changes

Who is cancelled, who follows whom and who waits after a deed, when a source that is made is a new one.
-/

namespace Shellwright.Cancellation

namespace Ledger

variable {σ ω : Type}

theorem knows_of_isCancelled {l : Ledger σ ω} {id : σ} (h : l.isCancelled id = true) : l.Knows id := by
  obtain ⟨s, hs, -⟩ := (Option.any_eq_true _ _).1 h
  exact ⟨s, hs⟩

theorem knows_of_parent? {l : Ledger σ ω} {id p : σ} (h : l.parent? id = some p) : l.Knows id := by
  obtain ⟨s, hs, -⟩ := Option.bind_eq_some_iff.1 h
  exact ⟨s, hs⟩

theorem isCancelled_of_not_knows {l : Ledger σ ω} {x : σ} (h : ¬ l.Knows x) : l.isCancelled x = false :=
  Bool.eq_false_iff.2 fun hcancelled => h (knows_of_isCancelled hcancelled)

theorem parent?_of_not_knows {l : Ledger σ ω} {x : σ} (h : ¬ l.Knows x) : l.parent? x = none :=
  Option.eq_none_iff_forall_ne_some.2 fun _ hp => h (knows_of_parent? hp)

theorem listeners_of_not_knows {l : Ledger σ ω} {x : σ} (h : ¬ l.Knows x) : l.listeners x = [] := by
  unfold listeners
  cases hs : l.source? x with
  | none => rfl
  | some s => exact absurd ⟨s, hs⟩ h

/-- The listeners that a deed sets off. -/
def opened (l : Ledger σ ω) : Deed σ ω → List (Listener σ ω)
  | .cancels id => if l.isCancelled id then [] else l.listeners id
  | _ => []

theorem mem_opened {l : Ledger σ ω} {d : Deed σ ω} {listener : Listener σ ω} : listener ∈ l.opened d ↔
    ∃ id, d = .cancels id ∧ l.isCancelled id = false ∧ listener ∈ l.listeners id := by
  constructor
  · intro h
    cases d with
    | cancels id =>
        unfold opened at h
        simp only at h
        split at h
        · cases h
        · rename_i hopen
          exact ⟨id, rfl, Bool.eq_false_iff.2 hopen, h⟩
    | _ => cases h
  · rintro ⟨id, rfl, hopen, hmem⟩
    unfold opened
    simp only [hopen, Bool.false_eq_true, if_false]
    exact hmem

@[simp] theorem isCancelled_call (l : Ledger σ ω) (callback : ω) (x : σ) :
    (l.call callback).isCancelled x = l.isCancelled x := rfl

@[simp] theorem parent?_call (l : Ledger σ ω) (callback : ω) (x : σ) :
    (l.call callback).parent? x = l.parent? x := rfl

@[simp] theorem listeners_call (l : Ledger σ ω) (callback : ω) (x : σ) :
    (l.call callback).listeners x = l.listeners x := rfl

variable [DecidableEq σ] (l : Ledger σ ω) (id x : σ)

/-! ## Single changes -/

/-- What is seen of a source after another one has been put. -/
theorem view_put {α : Type} (view : Option (Source σ ω) → α) (s : Source σ ω) :
    view ((l.put id s).source? x) = if x = id then view (some s) else view (l.source? x) :=
  apply_ite view (x = id) (some s) (l.source? x)

/-- What a change leaves as it is. -/
theorem view_change {α : Type} (view : Option (Source σ ω) → α) {f : Source σ ω → Source σ ω}
    (same : ∀ s, view (some (f s)) = view (some s)) :
    view ((l.change id f).source? x) = view (l.source? x) := by
  unfold change
  simp only
  split
  · cases l.source? x with
    | none => rfl
    | some s => exact same s
  · rfl

@[simp] theorem isCancelled_put (s : Source σ ω) :
    (l.put id s).isCancelled x = if x = id then s.cancelled else l.isCancelled x :=
  l.view_put id x (Option.any (·.cancelled)) s

@[simp] theorem parent?_put (s : Source σ ω) :
    (l.put id s).parent? x = if x = id then s.parent else l.parent? x :=
  l.view_put id x (Option.bind · (·.parent)) s

@[simp] theorem listeners_put (s : Source σ ω) :
    (l.put id s).listeners x = if x = id then s.listeners else l.listeners x :=
  l.view_put id x (fun s => (s.map Source.listeners).getD []) s

@[simp] theorem isCancelled_addListener (listener : Listener σ ω) :
    (l.addListener id listener).isCancelled x = l.isCancelled x :=
  l.view_change id x (Option.any (·.cancelled)) fun _ => rfl

@[simp] theorem parent?_addListener (listener : Listener σ ω) :
    (l.addListener id listener).parent? x = l.parent? x :=
  l.view_change id x (Option.bind · (·.parent)) fun _ => rfl

variable {l id x} in
theorem listeners_addListener (known : l.Knows id) (listener : Listener σ ω) (x : σ) :
    (l.addListener id listener).listeners x =
      if x = id then l.listeners x ++ [listener] else l.listeners x := by
  obtain ⟨s, hs⟩ := known
  unfold listeners addListener change
  simp only
  split
  · rename_i h
    rw [h, hs]
    rfl
  · rfl

variable [DecidableEq ω]

@[simp] theorem isCancelled_removeListener (listener : Listener σ ω) :
    (l.removeListener id listener).isCancelled x = l.isCancelled x :=
  l.view_change id x (Option.any (·.cancelled)) fun _ => rfl

@[simp] theorem parent?_removeListener (listener : Listener σ ω) :
    (l.removeListener id listener).parent? x = l.parent? x :=
  l.view_change id x (Option.bind · (·.parent)) fun _ => rfl

@[simp] theorem listeners_removeListener (listener : Listener σ ω) :
    (l.removeListener id listener).listeners x =
      if x = id then (l.listeners x).erase listener else l.listeners x := by
  unfold listeners removeListener change
  simp only
  split
  · cases l.source? x <;> rfl
  · rfl

/-! ## Deeds -/

/-- A source that is made is a new one, and what is followed or listened to is there. -/
structure Admits (l : Ledger σ ω) (d : Deed σ ω) : Prop where
  fresh : ∀ id p, d = .makes id p → ¬ l.Knows id
  parent : ∀ id p, d = .makes id (some p) → l.Knows p
  registers : ∀ id callback, d = .registers id callback → l.Knows id

variable {l : Ledger σ ω} {d : Deed σ ω} {id x p : σ} {parent : Option σ}

/-- A source that is cancelled already, or not there, stays as it is. -/
theorem after_cancels (l : Ledger σ ω) (id : σ) :
    l.after (.cancels id) = l ∧ (l.Knows id → l.isCancelled id = true) ∨
      ∃ s, l.source? id = some s ∧ s.cancelled = false ∧ l.after (.cancels id) =
        { l.put id { s with cancelled := true, listeners := [] } with
          waiting := s.listeners ++ l.waiting } := by
  unfold Knows isCancelled
  cases hs : l.source? id with
  | none => exact .inl ⟨by simp only [after, hs], nofun⟩
  | some s =>
      cases hcancelled : s.cancelled with
      | true => exact .inl ⟨by simp only [after, hs, hcancelled, if_true], fun _ => hcancelled⟩
      | false =>
          exact .inr ⟨s, rfl, hcancelled, by
            simp only [after, hs, hcancelled, Bool.false_eq_true, if_false]⟩

/-- After a deed those wait that waited before, and those that it sets off come first. -/
theorem waiting_after : (l.after d).waiting = l.opened d ++ l.waiting := by
  cases d with
  | makes id parent =>
      cases parent with
      | none => rfl
      | some p =>
          simp only [after]
          split <;> rfl
  | cancels id =>
      change _ = (if l.isCancelled id then [] else l.listeners id) ++ l.waiting
      rcases l.after_cancels id with ⟨hsame, hknown⟩ | ⟨s, hs, hcancelled, hafter⟩
      · rw [hsame]
        split
        · rfl
        · rename_i hopen
          rw [listeners_of_not_knows fun h => hopen (hknown h)]
          rfl
      · have hopen : l.isCancelled id = false := by
          unfold isCancelled
          rw [hs]
          exact hcancelled
        rw [hafter, hopen]
        unfold listeners
        rw [hs]
        rfl
  | detaches id =>
      simp only [after]
      split <;> rfl
  | registers id callback =>
      simp only [after]
      split <;> rfl
  | rests => rfl
  | withdraws id callback => rfl
  | calls callback => rfl

/-! ## Who is cancelled -/

theorem isCancelled_makes : (l.after (.makes id parent)).isCancelled x =
    if x = id then parent.any l.isCancelled else l.isCancelled x := by
  cases parent with
  | none => exact l.isCancelled_put id x {}
  | some p =>
      cases hp : l.isCancelled p with
      | true => simp only [after, hp, if_true, isCancelled_put, Option.any_some]
      | false => simp only [after, hp, Bool.false_eq_true, if_false, isCancelled_addListener,
          isCancelled_put, Option.any_some]

theorem isCancelled_cancels : (l.after (.cancels id)).isCancelled x = true ↔
    l.isCancelled x = true ∨ (x = id ∧ l.Knows id) := by
  rcases l.after_cancels id with ⟨hsame, hknown⟩ | ⟨s, hs, -, hafter⟩
  · rw [hsame]
    refine ⟨.inl, ?_⟩
    rintro (hx | ⟨rfl, h⟩)
    · exact hx
    · exact hknown h
  · have hknows : l.Knows id := ⟨s, hs⟩
    rw [hafter]
    change (l.put id _).isCancelled x = true ↔ _
    rw [isCancelled_put]
    by_cases hx : x = id
    · exact iff_of_true (if_pos hx) (.inr ⟨hx, hknows⟩)
    · rw [if_neg hx, or_iff_left fun h => hx h.1]

theorem isCancelled_detaches : (l.after (.detaches id)).isCancelled x = l.isCancelled x := by
  simp only [after]
  split
  · rfl
  · rw [isCancelled_removeListener]
    exact l.view_change id x (Option.any (·.cancelled)) fun _ => rfl

theorem isCancelled_registers {callback : ω} :
    (l.after (.registers id callback)).isCancelled x = l.isCancelled x := by
  simp only [after]
  split
  · rfl
  · exact isCancelled_addListener ..

/-- A deed cancels the source that it is about, or makes one under a cancelled token. -/
theorem isCancelled_after (admits : l.Admits d) : (l.after d).isCancelled x = true ↔
    l.isCancelled x = true ∨ (d = .cancels x ∧ l.Knows x) ∨
      ∃ p, d = .makes x (some p) ∧ l.isCancelled p = true := by
  cases d with
  | rests => exact (or_iff_left (by simp)).symm
  | makes id parent =>
      rw [isCancelled_makes]
      by_cases hx : x = id
      · subst hx
        have hnew := isCancelled_of_not_knows (admits.fresh x parent rfl)
        cases parent with
        | none => simp [hnew]
        | some p => simp [hnew]
      · have hother (p : σ) : (Deed.makes id parent : Deed σ ω) ≠ .makes x (some p) := by
          rintro ⟨⟩
          exact hx rfl
        rw [if_neg hx, or_iff_left]
        rintro (⟨hd, -⟩ | ⟨p, hd, -⟩)
        · cases hd
        · exact hother p hd
  | cancels id =>
      refine isCancelled_cancels.trans (or_congr_right ?_)
      constructor
      · rintro ⟨rfl, hknown⟩
        exact .inl ⟨rfl, hknown⟩
      · rintro (⟨hd, hknown⟩ | ⟨p, hd, -⟩)
        · cases hd
          exact ⟨rfl, hknown⟩
        · cases hd
  | detaches id =>
      rw [isCancelled_detaches]
      exact (or_iff_left (by simp)).symm
  | registers id callback =>
      rw [isCancelled_registers]
      exact (or_iff_left (by simp)).symm
  | withdraws id callback =>
      simp only [after, isCancelled_removeListener]
      exact (or_iff_left (by simp)).symm
  | calls callback => exact (or_iff_left (by simp)).symm

/-! ## Who follows whom -/

theorem parent?_makes : (l.after (.makes id parent)).parent? x =
    if x = id then parent.filter (fun p => !l.isCancelled p) else l.parent? x := by
  cases parent with
  | none => exact l.parent?_put id x {}
  | some p =>
      cases hp : l.isCancelled p with
      | true => simp only [after, hp, if_true, parent?_put, Option.filter_some, Bool.not_true,
          Bool.false_eq_true, if_false]
      | false => simp only [after, hp, Bool.false_eq_true, if_false, parent?_addListener, parent?_put,
          Option.filter_some, Bool.not_false, if_true]

theorem parent?_cancels : (l.after (.cancels id)).parent? x = l.parent? x := by
  rcases l.after_cancels id with ⟨hsame, -⟩ | ⟨s, hs, -, hafter⟩
  · rw [hsame]
  · rw [hafter]
    change (l.put id _).parent? x = _
    rw [parent?_put]
    split
    · rename_i h
      rw [h]
      unfold parent?
      rw [hs]
      rfl
    · rfl

theorem parent?_detaches (l : Ledger σ ω) (id x : σ) :
    (l.after (.detaches id)).parent? x = if x = id then none else l.parent? x := by
  cases hparent : l.parent? id with
  | none =>
      simp only [after, hparent]
      split
      · rename_i h
        rw [h, hparent]
      · rfl
  | some q =>
      simp only [after, hparent, parent?_removeListener]
      unfold change parent?
      simp only
      split
      · cases l.source? x <;> rfl
      · rfl

theorem parent?_registers {callback : ω} :
    (l.after (.registers id callback)).parent? x = l.parent? x := by
  simp only [after]
  split
  · rfl
  · exact parent?_addListener ..

/-- Who is made under a token that is not cancelled follows it until it is detached. -/
theorem parent?_after (admits : l.Admits d) : (l.after d).parent? x = some p ↔
    (l.parent? x = some p ∧ d ≠ .detaches x) ∨
      (d = .makes x (some p) ∧ l.isCancelled p = false) := by
  cases d with
  | rests => simp [after]
  | makes id parent =>
      rw [parent?_makes]
      by_cases hx : x = id
      · subst hx
        have hnew := parent?_of_not_knows (admits.fresh x parent rfl)
        simp [hnew, Option.filter_eq_some_iff]
      · have hother : (Deed.makes id parent : Deed σ ω) ≠ .makes x (some p) := by
          rintro ⟨⟩
          exact hx rfl
        rw [if_neg hx, or_iff_left fun h => hother h.1]
        simp
  | cancels id =>
      rw [parent?_cancels]
      simp
  | detaches id =>
      rw [parent?_detaches]
      by_cases hx : x = id
      · simp [hx]
      · simp [hx, Ne.symm hx]
  | registers id callback =>
      rw [parent?_registers]
      simp
  | withdraws id callback => simp [after]
  | calls callback => simp [after]

/-! ## Listeners -/

theorem listeners_makes (admits : l.Admits (.makes id parent)) : (l.after (.makes id parent)).listeners x =
    if parent = some x ∧ l.isCancelled x = false then l.listeners x ++ [.source id]
    else l.listeners x := by
  have fresh := admits.fresh id parent rfl
  have hput {s : Source σ ω} (hs : s.listeners = []) : (l.put id s).listeners x = l.listeners x := by
    rw [listeners_put]
    split
    · rename_i h
      rw [hs, h, listeners_of_not_knows fresh]
    · rfl
  cases parent with
  | none =>
      rw [if_neg (by simp)]
      exact hput rfl
  | some p =>
      have known := admits.parent id p rfl
      cases hp : l.isCancelled p with
      | true =>
          simp only [after, hp, if_true]
          rw [hput rfl, if_neg]
          rintro ⟨h, hx⟩
          cases h
          cases hp.symm.trans hx
      | false =>
          simp only [after, hp, Bool.false_eq_true, if_false]
          rw [listeners_addListener (knows_put.2 (.inr known)), hput rfl]
          by_cases hx : x = p
          · subst hx
            rw [if_pos rfl, if_pos ⟨rfl, hp⟩]
          · rw [if_neg hx, if_neg]
            rintro ⟨h, -⟩
            cases h
            exact hx rfl

theorem listeners_cancels : (l.after (.cancels id)).listeners x =
    if x = id ∧ l.isCancelled id = false then [] else l.listeners x := by
  rcases l.after_cancels id with ⟨hsame, hknown⟩ | ⟨s, hs, hcancelled, hafter⟩
  · rw [hsame]
    split
    · rename_i h
      obtain ⟨rfl, hopen⟩ := h
      refine listeners_of_not_knows fun hx => ?_
      cases hopen.symm.trans (hknown hx)
    · rfl
  · have hopen : l.isCancelled id = false := by
      unfold isCancelled
      rw [hs]
      exact hcancelled
    rw [hafter]
    change (l.put id _).listeners x = _
    rw [listeners_put]
    split
    · rename_i hx
      rw [if_pos ⟨hx, hopen⟩]
    · rename_i hx
      rw [if_neg fun h => hx h.1]

theorem listeners_detaches : (l.after (.detaches id)).listeners x =
    if l.parent? id = some x then (l.listeners x).erase (.source id) else l.listeners x := by
  cases hparent : l.parent? id with
  | none => simp only [after, hparent, reduceCtorEq, if_false]
  | some p =>
      simp only [after, hparent, listeners_removeListener]
      have hchange : (l.change id fun s => { s with parent := none }).listeners x = l.listeners x :=
        l.view_change id x (fun s => (s.map Source.listeners).getD []) fun _ => rfl
      rw [hchange]
      by_cases hx : x = p
      · rw [if_pos hx, if_pos (congrArg some hx.symm)]
      · rw [if_neg hx, if_neg]
        rintro ⟨⟩
        exact hx rfl

theorem listeners_registers {callback : ω} (admits : l.Admits (.registers id callback)) :
    (l.after (.registers id callback)).listeners x =
      if x = id ∧ l.isCancelled id = false then l.listeners x ++ [.callback callback]
      else l.listeners x := by
  cases hid : l.isCancelled id with
  | true =>
      simp only [after, hid, if_true]
      rw [if_neg (by simp)]
      rfl
  | false =>
      simp only [after, hid, Bool.false_eq_true, if_false, and_true]
      exact listeners_addListener (admits.registers id callback rfl) _ x

theorem listeners_withdraws {callback : ω} : (l.after (.withdraws id callback)).listeners x =
    if x = id then (l.listeners x).erase (.callback callback) else l.listeners x :=
  listeners_removeListener ..

end Ledger

/-! ## Scripts -/

/-- The source that a user calls by its name. -/
def Deed.named? {σ ω : Type} : Deed σ ω → Option σ
  | .makes _ parent => parent
  | .cancels id => some id
  | .detaches id => some id
  | .registers id _ => some id
  | _ => none

theorem Tokens.ComesTo.named {σ ω ρ : Type} [DecidableEq ρ] {t : Tokens σ ω ρ} {users : Users σ ω ρ}
    {a : Action ω ρ} {d : Deed σ ω} {id : σ} (h : t.ComesTo users a d) (hd : d.named? = some id) :
    ∃ name, t.names.get? name = some id := by
  cases h with
  | nothing => cases hd
  | makes name followed parent hparent => exact hparent id hd
  | cancels name id h =>
      cases hd
      exact ⟨name, h⟩
  | detaches name id h =>
      cases hd
      exact ⟨name, h⟩
  | subscribes name registration callback id h =>
      cases hd
      exact ⟨name, h⟩
  | again name registration earlier id callback h =>
      cases hd
      exact ⟨name, h⟩
  | unsubscribes => cases hd

namespace Script

variable {σ ω ρ : Type} [DecidableEq σ] [DecidableEq ω] [DecidableEq ρ] {s : Script σ ω ρ} {t : Nat}

/-- What is called by its name is there, or it is due to be told. -/
theorem knows_of_named {id : σ} (h : (s.deed t).named? = some id) :
    (s.tokens t).ledger.Knows id ∨ .source id ∈ (s.tokens t).due := by
  rcases s.deed_cases t with ⟨listener, hdue, hd⟩ | ⟨-, hd | ⟨a, -, hcomes⟩⟩
  · rw [hd] at h
    cases listener with
    | source other =>
        cases h
        rw [hdue]
        exact .inr (List.mem_singleton_self _)
    | callback c => cases h
  · rw [hd] at h
    cases h
  · obtain ⟨name, hname⟩ := hcomes.named h
    exact .inl (s.named hname)

/-- Every deed of a script is about sources that are there, and makes new ones. -/
theorem admits (distinct : Function.Injective s.users.source) (t : Nat) :
    (s.tokens t).begun.Admits (s.deed t) where
  fresh id p h := fresh distinct h
  parent id p h := by
    refine (knows_of_named (by rw [h]; rfl)).resolve_right fun hdue => ?_
    cases h.symm.trans (deed_of_due hdue)
  registers id callback h := by
    refine (knows_of_named (by rw [h]; rfl)).resolve_right fun hdue => ?_
    cases h.symm.trans (deed_of_due hdue)

end Script

end Shellwright.Cancellation
