import Shellwright.Proofs.Cancellation.Effects
import Shellwright.Proofs.Cancellation.Effort
/-!
# Withdrawn callbacks

A callback that is registered once is in one place at a time: among the listeners of its token, or among
those that wait to be told, or it has been told. So it is told once at most, and once exactly when its
token is cancelled and it is not withdrawn, whatever the other callbacks do. To withdraw it takes it from
the listeners of its token; when it waits to be told already it is not found there, and is told all the
same.
-/

namespace Shellwright.Cancellation

variable {σ ω ρ : Type} [DecidableEq σ] [DecidableEq ω]

/-! ## Where a callback is -/

namespace Ledger

/-- The callbacks that a deed tells. -/
def tells (l : Ledger σ ω) : Deed σ ω → List ω
  | .calls c => [c]
  | .registers id c => if l.isCancelled id then [c] else []
  | _ => []

/-- How often a callback has been told, is to be told, or listens to `id`. -/
def places (l : Ledger σ ω) (id : σ) (c : ω) : Nat :=
  l.told.count c + l.waiting.count (.callback c) + (l.listeners id).count (.callback c)

variable {l : Ledger σ ω} {d : Deed σ ω} {id x : σ} {c : ω}

theorem told_after : (l.after d).told = l.told ++ l.tells d := by
  have hother (h : (l.after d).told = l.told) (hd : l.tells d = []) :
      (l.after d).told = l.told ++ l.tells d := by
    rw [h, hd, List.append_nil]
  cases d with
  | rests => exact hother rfl rfl
  | makes id parent =>
      refine hother ?_ rfl
      cases parent with
      | none => rfl
      | some p =>
          simp only [after]
          split <;> rfl
  | cancels id =>
      refine hother ?_ rfl
      rcases l.after_cancels id with ⟨hsame, -⟩ | ⟨s, -, -, hafter⟩
      · rw [hsame]
      · rw [hafter]
        rfl
  | detaches id =>
      refine hother ?_ rfl
      simp only [after]
      split <;> rfl
  | registers id callback =>
      simp only [after, tells]
      split
      · rfl
      · exact (List.append_nil _).symm
  | withdraws id callback => exact hother rfl rfl
  | calls callback => rfl

/-- Who listens is a callback that was registered or a source that was made, at a source that is not
cancelled. -/
theorem mem_listeners_after {listener : Listener σ ω} (admits : l.Admits d)
    (h : listener ∈ (l.after d).listeners x) : listener ∈ l.listeners x ∨ l.isCancelled x = false ∧
      ((∃ c, listener = .callback c ∧ d = .registers x c) ∨
        ∃ id, listener = .source id ∧ d = .makes id (some x)) := by
  cases d with
  | rests => exact .inl h
  | makes id parent =>
      rw [listeners_makes admits] at h
      split at h
      · rename_i hx
        refine (List.mem_append.1 h).imp_right fun h => ⟨hx.2, .inr ⟨id, List.mem_singleton.1 h, ?_⟩⟩
        rw [hx.1]
      · exact .inl h
  | cancels id =>
      rw [listeners_cancels] at h
      split at h
      · cases h
      · exact .inl h
  | detaches id =>
      rw [listeners_detaches] at h
      split at h
      · exact .inl (List.mem_of_mem_erase h)
      · exact .inl h
  | registers id c =>
      rw [listeners_registers admits] at h
      split at h
      · rename_i hx
        obtain ⟨rfl, hopen⟩ := hx
        exact (List.mem_append.1 h).imp_right fun h =>
          ⟨hopen, .inl ⟨c, List.mem_singleton.1 h, rfl⟩⟩
      · exact .inl h
  | withdraws id c =>
      rw [listeners_withdraws] at h
      split at h
      · exact .inl (List.mem_of_mem_erase h)
      · exact .inl h
  | calls c => exact .inl h

/-- A cancelled source has no listeners. -/
theorem listeners_cancelled_after (admits : l.Admits d)
    (emptied : ∀ x, l.isCancelled x = true → l.listeners x = [])
    (h : (l.after d).isCancelled x = true) : (l.after d).listeners x = [] := by
  rcases (isCancelled_after admits).1 h with hbefore | ⟨rfl, -⟩ | ⟨p, rfl, -⟩
  · refine List.eq_nil_iff_forall_not_mem.2 fun listener hmem => ?_
    rcases mem_listeners_after admits hmem with hmem | ⟨hopen, -⟩
    · rw [emptied x hbefore] at hmem
      cases hmem
    · cases hbefore.symm.trans hopen
  · rw [listeners_cancels]
    split
    · rfl
    · rename_i hx
      refine emptied x ?_
      rwa [and_iff_right rfl, Bool.not_eq_false] at hx
  · have fresh := admits.fresh x (some p) rfl
    rw [listeners_makes admits, if_neg, listeners_of_not_knows fresh]
    rintro ⟨hp, -⟩
    cases hp
    exact fresh (admits.parent x x rfl)

/-- A cancellation sets off the callbacks that it takes from the listeners. -/
theorem moves_cancels (only : ∀ x, .callback c ∈ l.listeners x → x = id) :
    (l.opened (.cancels x)).count (.callback c) +
        ((l.after (.cancels x)).listeners id).count (.callback c) =
      (l.listeners id).count (.callback c) := by
  rw [listeners_cancels]
  cases hx : l.isCancelled x with
  | true => simp [opened, hx]
  | false =>
      have hopened : l.opened (.cancels x) = l.listeners x := if_neg (by simp [hx])
      rw [hopened]
      by_cases hid : id = x
      · rw [if_pos ⟨hid, rfl⟩, hid, List.count_nil, Nat.add_zero]
      · have hnone : (l.listeners x).count (.callback c) = 0 :=
          List.count_eq_zero.2 fun hmem => hid (only x hmem).symm
        rw [if_neg fun h => hid h.1, hnone, Nat.zero_add]

/-- A callback that is registered is told or listens. -/
theorem moves_registers {callback : ω} (admits : l.Admits (.registers x callback))
    (named : callback = c → x = id) :
    (l.tells (.registers x callback)).count c +
        ((l.after (.registers x callback)).listeners id).count (.callback c) =
      (l.listeners id).count (.callback c) + if callback = c then 1 else 0 := by
  rw [listeners_registers admits]
  unfold tells
  simp only
  by_cases hc : callback = c
  · subst hc
    obtain rfl := named rfl
    cases hx : l.isCancelled x with
    | true => simp [Nat.add_comm]
    | false => simp
  · cases hx : l.isCancelled x with
    | true => simp [hc]
    | false =>
        by_cases hid : id = x
        · simp [hc, hid]
        · simp [hc, hid]

/-- A callback that is withdrawn is taken from the listeners when it is there. -/
theorem moves_withdraws (l : Ledger σ ω) (id x : σ) (callback c : ω) :
    ((l.after (.withdraws x callback)).listeners id).count (.callback c) +
        (if (x = id ∧ callback = c) ∧ .callback c ∈ l.listeners id then 1 else 0) =
      (l.listeners id).count (.callback c) := by
  rw [listeners_withdraws]
  by_cases hd : x = id ∧ callback = c
  · obtain ⟨rfl, rfl⟩ := hd
    rw [if_pos rfl]
    by_cases hmem : .callback callback ∈ l.listeners x
    · have hpos := List.count_pos_iff.2 hmem
      rw [if_pos ⟨⟨rfl, rfl⟩, hmem⟩, List.count_erase_self]
      omega
    · rw [if_neg fun h => hmem h.2, List.erase_of_not_mem hmem, Nat.add_zero]
  · have hnone : (if (x = id ∧ callback = c) ∧ .callback c ∈ l.listeners id then 1 else 0) = 0 :=
      if_neg fun h => hd h.1
    rw [hnone, Nat.add_zero]
    split
    · rename_i hx
      refine List.count_erase_of_ne fun h => hd ?_
      cases h
      exact ⟨hx.symm, rfl⟩
    · rfl

theorem moves_after (admits : l.Admits d) (only : ∀ x, .callback c ∈ l.listeners x → x = id)
    (named : ∀ x, d = .registers x c → x = id) :
    (l.tells d).count c + (l.opened d).count (.callback c) +
        ((l.after d).listeners id).count (.callback c) +
        (if d = .withdraws id c ∧ .callback c ∈ l.listeners id then 1 else 0) =
      (l.listeners id).count (.callback c) +
        ((if d = .calls c then 1 else 0) + (if d = .registers id c then 1 else 0)) := by
  cases d with
  | rests => simp [tells, opened, after]
  | makes x parent =>
      rw [listeners_makes admits]
      split <;> simp [tells, opened]
  | cancels x =>
      have hmoves := moves_cancels (x := x) only
      simpa [tells] using hmoves
  | detaches x =>
      rw [listeners_detaches]
      split <;> simp [tells, opened]
  | registers x callback =>
      have hmoves := moves_registers admits fun hc => named x (hc ▸ rfl)
      have hwhen : (if Deed.registers x callback = .registers id c then 1 else 0) =
          if callback = c then 1 else 0 := by
        by_cases hc : callback = c
        · rw [if_pos hc, if_pos (by rw [hc, named x (hc ▸ rfl)])]
        · rw [if_neg hc, if_neg fun h => hc (Deed.registers.inj h).2]
      rw [hwhen]
      simpa [opened] using hmoves
  | withdraws x callback =>
      have hmoves := l.moves_withdraws id x callback c
      simpa [tells, opened] using hmoves
  | calls callback => simp [tells, opened, after, List.count_singleton, Nat.add_comm]

/-- A deed moves callbacks about, except that they come to a place when they are registered or called,
and have none when they are withdrawn while they listen. -/
theorem places_after (admits : l.Admits d) (only : ∀ x, .callback c ∈ l.listeners x → x = id)
    (named : ∀ x, d = .registers x c → x = id) :
    (l.after d).places id c +
        (if d = .withdraws id c ∧ .callback c ∈ l.listeners id then 1 else 0) =
      l.places id c + ((if d = .calls c then 1 else 0) + (if d = .registers id c then 1 else 0)) := by
  have hmoves := moves_after admits only named
  unfold places
  rw [told_after, waiting_after, List.count_append, List.count_append]
  omega

end Ledger

/-! ## Scripts -/

namespace Script

variable [DecidableEq ρ] {s : Script σ ω ρ} {i t u : Nat} {id x : σ} {c : ω}

/-- A callback is called when it is its turn. -/
theorem due_count :
    (s.tokens t).due.count (.callback c) = if s.deed t = .calls c then 1 else 0 := by
  rcases s.deed_cases t with ⟨listener, hdue, hd⟩ | ⟨hdue, hd | ⟨a, -, hcomes⟩⟩
  · rw [hdue, hd, List.count_singleton]
    cases listener with
    | source other => rfl
    | callback other => simp [Listener.deed]
  · rw [hdue, hd]
    rfl
  · rw [hdue, if_neg]
    · rfl
    · intro hd
      rw [hd] at hcomes
      cases hcomes

theorem begun_places (s : Script σ ω ρ) (t : Nat) (id : σ) (c : ω) :
    (s.tokens t).begun.places id c + (if s.deed t = .calls c then 1 else 0) =
      (s.tokens t).ledger.places id c := by
  rw [← due_count]
  unfold Ledger.places
  rw [Tokens.waiting_eq, List.count_append]
  change (s.tokens t).ledger.told.count c + _ + ((s.tokens t).ledger.listeners id).count _ + _ = _
  omega

/-- No callback is registered twice. -/
def Apart (s : Script σ ω ρ) : Prop :=
  ∀ i j x y c, s.deed i = .registers x c → s.deed j = .registers y c → i = j

theorem registered_of_listens (distinct : Function.Injective s.users.source)
    (h : .callback c ∈ (s.tokens t).ledger.listeners x) : ∃ j, j < t ∧ s.deed j = .registers x c := by
  induction t with
  | zero => cases h
  | succ t ih =>
      rw [ledger_succ] at h
      rcases Ledger.mem_listeners_after (admits distinct t) h with
        h | ⟨-, ⟨c, hc, hd⟩ | ⟨id, hid, -⟩⟩
      · obtain ⟨j, hj, hd⟩ := ih h
        exact ⟨j, Nat.lt_succ_of_lt hj, hd⟩
      · cases hc
        exact ⟨t, Nat.lt_succ_self t, hd⟩
      · cases hid

theorem places_succ (distinct : Function.Injective s.users.source) (apart : s.Apart)
    (registered : s.deed i = .registers id c) : (s.tokens (t + 1)).ledger.places id c +
        (if s.deed t = .withdraws id c ∧ .callback c ∈ (s.tokens t).ledger.listeners id then 1 else 0) =
      (s.tokens t).ledger.places id c + (if t = i then 1 else 0) := by
  have honly {j : Nat} {x : σ} (hd : s.deed j = .registers x c) : x = id := by
    cases apart i j id x c registered hd
    cases registered.symm.trans hd
    rfl
  have hafter := Ledger.places_after (admits distinct t)
    (fun x hx => (registered_of_listens distinct hx).elim fun _ hj => honly hj.2) fun x hd => honly hd
  have hbegun := s.begun_places t id c
  have hwhen : (if s.deed t = .registers id c then 1 else 0) = if t = i then 1 else 0 := by
    by_cases ht : t = i
    · rw [if_pos ht, if_pos (ht ▸ registered)]
    · rw [if_neg ht, if_neg fun hd => ht (apart t i id id c hd registered)]
  rw [← ledger_succ, hwhen] at hafter
  have hmoved : (s.tokens (t + 1)).ledger.places id c +
        (if s.deed t = .withdraws id c ∧ .callback c ∈ (s.tokens t).ledger.listeners id then 1 else 0) =
      (s.tokens t).begun.places id c +
        ((if s.deed t = .calls c then 1 else 0) + (if t = i then 1 else 0)) := hafter
  omega

theorem listeners_cancelled (distinct : Function.Injective s.users.source)
    (h : (s.tokens t).isCancelled x = true) : (s.tokens t).ledger.listeners x = [] := by
  induction t generalizing x with
  | zero => cases h
  | succ t ih =>
      change (s.tokens (t + 1)).ledger.isCancelled x = true at h
      rw [ledger_succ] at h ⊢
      exact Ledger.listeners_cancelled_after (admits distinct t) (fun _ => ih) h

theorem since_succ (i t : Nat) : (if i < t + 1 then 1 else 0) =
    (if i < t then 1 else 0) + (if t = i then 1 else 0) := by
  split <;> split <;> split <;> omega

/-- A callback is in one place at most, and in none before it is registered. -/
theorem places_le (distinct : Function.Injective s.users.source) (apart : s.Apart)
    (registered : s.deed i = .registers id c) (t : Nat) :
    (s.tokens t).ledger.places id c ≤ if i < t then 1 else 0 := by
  induction t with
  | zero => exact Nat.le_refl 0
  | succ t ih =>
      have hsucc := places_succ (t := t) distinct apart registered
      rw [since_succ]
      omega

/-- A callback that is not withdrawn stays in its place. -/
theorem places_eq (distinct : Function.Injective s.users.source) (apart : s.Apart)
    (registered : s.deed i = .registers id c) (kept : ∀ j < t, s.deed j ≠ .withdraws id c) :
    (s.tokens t).ledger.places id c = if i < t then 1 else 0 := by
  induction t with
  | zero => rfl
  | succ t ih =>
      have hsucc := places_succ (t := t) distinct apart registered
      rw [if_neg fun h => kept t (Nat.lt_succ_self t) h.1,
        ih fun j hj => kept j (Nat.lt_succ_of_lt hj), ← since_succ] at hsucc
      exact hsucc

/-! ## Withdrawn callbacks -/

theorem told_mono (c : ω) (h : t ≤ u) : (s.tokens t).told.count c ≤ (s.tokens u).told.count c := by
  induction h with
  | refl => exact Nat.le_refl _
  | @step u _ ih =>
      have htold : (s.tokens (u + 1)).told = (s.tokens u).told ++ (s.tokens u).begun.tells (s.deed u) := by
        change (s.tokens (u + 1)).ledger.told = _
        rw [ledger_succ, Ledger.told_after]
        rfl
      change _ ≤ (s.tokens (u + 1)).told.count c
      rw [htold, List.count_append]
      exact Nat.le_add_right_of_le ih

/-- What a registration can take back was registered. -/
theorem registered_of_holds {registration : ρ}
    (h : (s.tokens t).registrations.get? registration = some (some (id, c))) :
    ∃ i, i < t ∧ s.deed i = .registers id c := by
  induction t with
  | zero => cases h
  | succ t ih =>
      rcases (s.keeps_succ t).registrations registration id c h with h | hd
      · obtain ⟨i, hi, hd⟩ := ih h
        exact ⟨i, Nat.lt_succ_of_lt hi, hd⟩
      · exact ⟨t, Nat.lt_succ_self t, hd⟩

theorem registered_of_withdraws (h : s.deed t = .withdraws id c) :
    ∃ i, i < t ∧ s.deed i = .registers id c := by
  rcases s.deed_cases t with ⟨listener, -, hd⟩ | ⟨-, hd | ⟨a, -, hcomes⟩⟩
  · cases listener <;> cases h.symm.trans hd
  · cases h.symm.trans hd
  · rw [h] at hcomes
    cases hcomes with
    | unsubscribes registration id callback hholds => exact registered_of_holds hholds

/-- No new place is found for a callback that has been registered. -/
theorem places_anti (distinct : Function.Injective s.users.source) (apart : s.Apart)
    (registered : s.deed i = .registers id c) (since : i < t) (h : t ≤ u) :
    (s.tokens u).ledger.places id c ≤ (s.tokens t).ledger.places id c := by
  induction h with
  | refl => exact Nat.le_refl _
  | @step u hle ih =>
      have hsucc := places_succ (t := u) distinct apart registered
      rw [if_neg (Nat.ne_of_gt (Nat.lt_of_lt_of_le since hle))] at hsucc
      change (s.tokens (u + 1)).ledger.places id c ≤ _
      omega

/-- A callback that has left its token keeps its place. -/
theorem places_left (distinct : Function.Injective s.users.source) (apart : s.Apart)
    (registered : s.deed i = .registers id c) (since : i < t) (h : t ≤ u)
    (left : .callback c ∉ (s.tokens t).ledger.listeners id) :
    .callback c ∉ (s.tokens u).ledger.listeners id ∧
      (s.tokens u).ledger.places id c = (s.tokens t).ledger.places id c := by
  induction h with
  | refl => exact ⟨left, rfl⟩
  | @step u hle ih =>
      have hlater : u ≠ i := Nat.ne_of_gt (Nat.lt_of_lt_of_le since hle)
      constructor
      · intro hmem
        rw [ledger_succ] at hmem
        rcases Ledger.mem_listeners_after (admits distinct u) hmem with
          hmem | ⟨-, ⟨c', hc, hd⟩ | ⟨id', hid, -⟩⟩
        · exact ih.1 hmem
        · cases hc
          exact hlater (apart u i id id c hd registered)
        · cases hid
      · have hsucc := places_succ (t := u) distinct apart registered
        rw [if_neg hlater, if_neg fun h => ih.1 h.2] at hsucc
        exact hsucc.trans ih.2

/-! ## How often a callback is told -/

theorem told_le_one (distinct : Function.Injective s.users.source) (apart : s.Apart)
    (registered : s.deed i = .registers id c) (t : Nat) : (s.tokens t).told.count c ≤ 1 := by
  have hplaces := places_le distinct apart registered t
  unfold Ledger.places at hplaces
  change (s.tokens t).told.count c + _ + _ ≤ _ at hplaces
  split at hplaces <;> omega

theorem told_of_cancelled (distinct : Function.Injective s.users.source) (apart : s.Apart)
    (registered : s.deed i = .registers id c) (since : i < u) (rests : s.Rests u)
    (cancelled : (s.tokens u).isCancelled id = true)
    (kept : ∀ j < u, s.deed j ≠ .withdraws id c) : (s.tokens u).told.count c = 1 := by
  have hplaces := places_eq distinct apart registered kept
  unfold Ledger.places at hplaces
  rw [if_pos since, waiting_rests rests, listeners_cancelled distinct cancelled] at hplaces
  exact hplaces

/-- A callback that is withdrawn while it waits has not been told, and waits until it is. -/
theorem waits_or_told (distinct : Function.Injective s.users.source) (apart : s.Apart)
    (withdrawn : s.deed t = .withdraws id c) (waits : .callback c ∈ (s.tokens t).ledger.waiting)
    (h : t ≤ u) : (s.tokens t).told.count c = 0 ∧
      (s.tokens u).told.count c + (s.tokens u).ledger.waiting.count (.callback c) = 1 := by
  obtain ⟨i, since, registered⟩ := registered_of_withdraws withdrawn
  have hplaces := places_le distinct apart registered t
  have hwaiting := List.count_pos_iff.2 waits
  rw [if_pos since] at hplaces
  unfold Ledger.places at hplaces
  change (s.tokens t).told.count c + _ + _ ≤ 1 at hplaces
  have hleft : .callback c ∉ (s.tokens t).ledger.listeners id := by
    rw [← List.count_eq_zero]
    omega
  obtain ⟨hleft', hsame⟩ := places_left distinct apart registered since h hleft
  unfold Ledger.places at hsame
  rw [List.count_eq_zero.2 hleft, List.count_eq_zero.2 hleft'] at hsame
  change (s.tokens u).told.count c + _ + 0 = (s.tokens t).told.count c + _ + 0 at hsame
  omega

/-- A callback that does not wait when it is withdrawn is not told any more. -/
theorem silent_of_withdraws (distinct : Function.Injective s.users.source) (apart : s.Apart)
    (withdrawn : s.deed t = .withdraws id c) (idle : .callback c ∉ (s.tokens t).ledger.waiting)
    (h : t ≤ u) : (s.tokens u).told.count c = (s.tokens t).told.count c := by
  obtain ⟨i, since, registered⟩ := registered_of_withdraws withdrawn
  rcases Nat.eq_or_lt_of_le h with rfl | hlt
  · rfl
  have hone := places_le distinct apart registered t
  have hsucc := places_succ (t := t) distinct apart registered
  have hanti := places_anti distinct apart registered (Nat.lt_succ_of_lt since) hlt
  have hmono := told_mono (s := s) c h
  rw [if_pos since] at hone
  rw [if_neg (Nat.ne_of_gt since)] at hsucc
  have hbefore : (s.tokens t).ledger.places id c =
      (s.tokens t).told.count c + ((s.tokens t).ledger.listeners id).count (.callback c) := by
    unfold Ledger.places
    rw [List.count_eq_zero.2 idle]
    rfl
  have hafter : (s.tokens u).told.count c ≤ (s.tokens u).ledger.places id c := by
    unfold Ledger.places
    change _ ≤ (s.tokens u).told.count c + _ + _
    omega
  by_cases hlistens : .callback c ∈ (s.tokens t).ledger.listeners id
  · have hpos := List.count_pos_iff.2 hlistens
    rw [if_pos ⟨withdrawn, hlistens⟩] at hsucc
    change (s.tokens u).ledger.places id c ≤ (s.tokens (t + 1)).ledger.places id c at hanti
    omega
  · rw [if_neg fun h => hlistens h.2] at hsucc
    rw [List.count_eq_zero.2 hlistens] at hbefore
    change (s.tokens u).ledger.places id c ≤ (s.tokens (t + 1)).ledger.places id c at hanti
    omega

/-- When a registered callback is told: once at most; once exactly when its token is cancelled and it is
not withdrawn; and after it was withdrawn just when it waited for its turn then and the turn came. -/
theorem withdrawn_silent_iff (s : Script σ ω ρ) (distinct : Function.Injective s.users.source)
    (apart : s.Apart) :
    (∀ i id c, s.deed i = .registers id c → (∀ t, (s.tokens t).told.count c ≤ 1) ∧
      ∀ u, i < u → s.Rests u → (s.tokens u).isCancelled id = true →
        (∀ j < u, s.deed j ≠ .withdraws id c) → (s.tokens u).told.count c = 1) ∧
    (∀ work, s.users.Bounded work → ∀ t, ∃ u, s.Returns t u) ∧
    ((∀ t id c, s.deed t = .withdraws id c →
        ∀ u, t ≤ u → (s.tokens u).told.count c = (s.tokens t).told.count c) ↔
      ¬ ∃ t id c, s.deed t = .withdraws id c ∧ .callback c ∈ (s.tokens t).ledger.waiting ∧
        ∃ u, t < u ∧ .callback c ∉ (s.tokens u).ledger.waiting) := by
  refine ⟨fun i id c registered => ⟨told_le_one distinct apart registered, fun u since rests =>
    told_of_cancelled distinct apart registered since rests⟩, fun _ bounded => exists_returns bounded,
    ?_, ?_⟩
  · rintro hsilent ⟨t, id, c, withdrawn, waits, u, hlt, hdone⟩
    obtain ⟨hnone, hplace⟩ := waits_or_told distinct apart withdrawn waits (Nat.le_of_lt hlt)
    rw [List.count_eq_zero.2 hdone, hsilent t id c withdrawn u (Nat.le_of_lt hlt), hnone] at hplace
    cases hplace
  · intro hidle t id c withdrawn u h
    by_cases waits : .callback c ∈ (s.tokens t).ledger.waiting
    · obtain ⟨hnone, hplace⟩ := waits_or_told distinct apart withdrawn waits h
      have hwaits : .callback c ∈ (s.tokens u).ledger.waiting := by
        rcases Nat.eq_or_lt_of_le h with rfl | hlt
        · exact waits
        · exact Decidable.not_not.1 fun hdone => hidle ⟨t, id, c, withdrawn, waits, u, hlt, hdone⟩
      have hpos := List.count_pos_iff.2 hwaits
      omega
    · exact silent_of_withdraws distinct apart withdrawn waits h

/-- Callbacks 0 and 1 listen to one token, and callback 0 takes the registration of callback 1 back. -/
def quarrel : Script Nat Nat Nat where
  users :=
    { source := fun n => n
      behave
        | 0 => { actions := [.unsubscribe 1] }
        | _ => {} }
  action
    | 0 => .create 0 none
    | 1 => .subscribe (.source 0) 0 0
    | 2 => .subscribe (.source 0) 1 1
    | _ => .cancel 0

theorem quarrel_apart : quarrel.Apart := by
  have hcallbacks (c : Nat) : ∀ a ∈ (quarrel.users.behave c).actions, a = .unsubscribe 1 := by
    match c with
    | 0 => exact fun a ha => List.mem_singleton.1 ha
    | _ + 1 => exact fun a ha => nomatch ha
  have huser {t registration c : Nat} {followed : Followed Nat}
      (h : .subscribe followed registration c = quarrel.action t) : t = c + 1 := by
    match t with
    | 0 => cases h
    | 1 =>
        cases h
        rfl
    | 2 =>
        cases h
        rfl
    | _ + 3 => cases h
  have hagain {t registration earlier : Nat} {followed : Followed Nat}
      (h : .subscribeAgain followed registration earlier = quarrel.action t) : False := by
    match t with
    | 0 => cases h
    | 1 => cases h
    | 2 => cases h
    | _ + 3 => cases h
  have hwhen {t x c : Nat} (h : quarrel.deed t = .registers x c) : t = c + 1 := by
    rcases quarrel.deed_cases t with ⟨listener, -, hd⟩ | ⟨-, hd | ⟨a, hacts, hcomes⟩⟩
    · cases listener <;> cases h.symm.trans hd
    · cases h.symm.trans hd
    · rw [h] at hcomes
      cases hcomes with
      | subscribes name registration callback id =>
          rcases hacts with ⟨-, ha⟩ | ⟨-, other, ha⟩
          · exact huser ha
          · cases hcallbacks other _ ha
      | again name registration earlier id callback =>
          rcases hacts with ⟨-, ha⟩ | ⟨-, other, ha⟩
          · exact (hagain ha).elim
          · cases hcallbacks other _ ha
  intro i j x y c hi hj
  rw [hwhen hi, hwhen hj]

/-- A callback is told after its registration was taken back. -/
theorem exists_withdrawn_told : ∃ s : Script Nat Nat Nat, Function.Injective s.users.source ∧ s.Apart ∧
    ∃ t id c u, s.deed t = .withdraws id c ∧ t < u ∧ s.Rests u ∧
      (s.tokens t).told.count c = 0 ∧ (s.tokens u).told.count c = 1 :=
  ⟨quarrel, fun _ _ h => h, quarrel_apart, 5, 0, 1, 10, by decide⟩

theorem quarrel_not_silent : (quarrel.tokens 10).told.count 0 = 1 ∧
    ¬ ∀ t id c, quarrel.deed t = .withdraws id c →
      ∀ u, t ≤ u → (quarrel.tokens u).told.count c = (quarrel.tokens t).told.count c := by
  obtain ⟨honce, -, hsilent⟩ := withdrawn_silent_iff quarrel (fun _ _ h => h) quarrel_apart
  constructor
  · refine (honce 1 0 0 (by decide)).2 10 (by decide) (by decide) (by decide) ?_
    decide
  · intro h
    exact hsilent.1 h ⟨5, 0, 1, by decide, by decide, 8, by decide, by decide⟩

end Script

end Shellwright.Cancellation
