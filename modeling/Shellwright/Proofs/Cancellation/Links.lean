import Mathlib.Logic.Relation
import Shellwright.Proofs.Cancellation.Effects
import Shellwright.Proofs.Cancellation.Effort
/-!
# Cancellation follows links

A source that is made under a parent is linked to it until it is detached. The links are kept in the
lists of listeners, between the callbacks of the users: a linked source is in the list of its parent, or
the parent is cancelled and the source is cancelled too or still waits for its turn. When callbacks leave
sources alone, a cancellation therefore reaches what the links lead to, and nothing else.
-/

namespace Shellwright.Cancellation

variable {σ ω ρ : Type}

/-! ## What callbacks leave alone -/

/-- An action on a source. -/
def Action.touches : Action ω ρ → Bool
  | .create _ _ => true
  | .cancel _ => true
  | .detach _ => true
  | _ => false

/-- Callbacks do not act on sources; what they do otherwise, and whether they fail, is left open. -/
def Users.Mild (users : Users σ ω ρ) : Prop :=
  ∀ c, ∀ a ∈ (users.behave c).actions, a.touches = false

/-! ## Where the links are kept -/

variable [DecidableEq σ] [DecidableEq ω]

/-- `linked` is what the sources, the listeners and those that wait say about who follows whom. -/
structure Ledger.Fits (l : Ledger σ ω) (waiting : List (Listener σ ω)) (linked : σ → σ → Prop) :
    Prop where
  there : ∀ c p, linked c p → l.Knows c ∧ l.Knows p
  follows : ∀ c p, linked c p → l.isCancelled c = true ∨ l.parent? c = some p
  parent : ∀ c p, l.parent? c = some p → linked c p
  listens : ∀ c p, (l.listeners p).count (.source c) =
    if l.parent? c = some p ∧ l.isCancelled p = false then 1 else 0
  waits : ∀ c p, l.parent? c = some p → l.isCancelled p = true →
    l.isCancelled c = true ∨ .source c ∈ waiting

namespace Ledger

variable {l : Ledger σ ω} {d : Deed σ ω} {waiting : List (Listener σ ω)}
  {linked linked' : σ → σ → Prop}

theorem Fits.mem_listeners (fits : l.Fits waiting linked) {c p : σ} :
    .source c ∈ l.listeners p ↔ l.parent? c = some p ∧ l.isCancelled p = false := by
  rw [← List.count_pos_iff, fits.listens]
  split
  · rename_i h
    exact iff_of_true Nat.one_pos h
  · rename_i h
    exact iff_of_false (Nat.lt_irrefl 0) h

theorem Fits.listens_makes (fits : l.Fits waiting linked) {id : σ} {parent : Option σ}
    (admits : l.Admits (.makes id parent)) (c p : σ) :
    ((l.after (.makes id parent)).listeners p).count (.source c) =
      if (l.after (.makes id parent)).parent? c = some p ∧
        (l.after (.makes id parent)).isCancelled p = false
      then 1 else 0 := by
  have fresh := admits.fresh id parent rfl
  rw [listeners_makes admits, parent?_makes, isCancelled_makes]
  by_cases hc : c = id
  · subst hc
    have hnone : (l.listeners p).count (.source c) = 0 := by
      rw [fits.listens, parent?_of_not_knows fresh]
      rfl
    rw [if_pos rfl]
    by_cases hp : parent = some p ∧ l.isCancelled p = false
    · obtain ⟨rfl, hopen⟩ := hp
      have hother : p ≠ c := fun h => fresh (h ▸ admits.parent c p rfl)
      rw [if_pos ⟨rfl, hopen⟩, List.count_append, hnone, List.count_singleton_self, if_neg hother,
        if_pos ⟨by simp [hopen], hopen⟩]
    · rw [if_neg hp, hnone, if_neg]
      rintro ⟨hfollows, -⟩
      rw [Option.filter_eq_some_iff] at hfollows
      exact hp ⟨hfollows.1, by simpa using hfollows.2⟩
  · have hcount : (if parent = some p ∧ l.isCancelled p = false then l.listeners p ++ [.source id]
        else l.listeners p).count (.source c) = (l.listeners p).count (.source c) := by
      split
      · rw [List.count_append, List.count_singleton]
        simp [Ne.symm hc]
      · rfl
    rw [if_neg hc, hcount, fits.listens]
    by_cases hp : p = id
    · subst hp
      have hnew : l.parent? c ≠ some p := fun h => fresh (fits.there c p (fits.parent c p h)).2
      rw [if_neg fun h => hnew h.1, if_neg fun h => hnew h.1]
    · rw [if_neg hp]

theorem Fits.listens_cancels (fits : l.Fits waiting linked) (id c p : σ) :
    ((l.after (.cancels id)).listeners p).count (.source c) =
      if (l.after (.cancels id)).parent? c = some p ∧ (l.after (.cancels id)).isCancelled p = false
      then 1 else 0 := by
  rw [listeners_cancels, parent?_cancels]
  by_cases hp : p = id ∧ l.isCancelled id = false
  · rw [if_pos hp, List.count_nil, if_neg]
    rintro ⟨hc, hopen⟩
    have hknown := (fits.there c p (fits.parent c p hc)).2
    cases hopen.symm.trans (isCancelled_cancels.2 (.inr ⟨hp.1, hp.1 ▸ hknown⟩))
  · have hsame : (l.after (.cancels id)).isCancelled p = l.isCancelled p := by
      refine Bool.eq_iff_iff.2 (isCancelled_cancels.trans (or_iff_left_of_imp ?_))
      rintro ⟨rfl, -⟩
      simpa using hp
    rw [if_neg hp, hsame, fits.listens]

theorem Fits.listens_detaches (fits : l.Fits waiting linked) (id c p : σ) :
    ((l.after (.detaches id)).listeners p).count (.source c) =
      if (l.after (.detaches id)).parent? c = some p ∧ (l.after (.detaches id)).isCancelled p = false
      then 1 else 0 := by
  rw [parent?_detaches, isCancelled_detaches, listeners_detaches]
  by_cases hc : c = id
  · subst hc
    have hno : ¬ ((none : Option σ) = some p ∧ l.isCancelled p = false) := by simp
    rw [if_pos rfl, if_neg hno]
    split
    · rw [List.count_erase_self, fits.listens]
      split <;> rfl
    · rename_i h
      rw [fits.listens, if_neg fun hlistens => h hlistens.1]
  · rw [if_neg hc, ← fits.listens]
    split
    · refine List.count_erase_of_ne fun h => hc ?_
      cases h
      rfl
    · rfl

theorem Fits.listens_after (fits : l.Fits waiting linked) (admits : l.Admits d) (c p : σ) :
    ((l.after d).listeners p).count (.source c) =
      if (l.after d).parent? c = some p ∧ (l.after d).isCancelled p = false then 1 else 0 := by
  cases d with
  | rests => exact fits.listens c p
  | makes id parent => exact fits.listens_makes admits c p
  | cancels id => exact fits.listens_cancels id c p
  | detaches id => exact fits.listens_detaches id c p
  | registers id callback =>
      rw [listeners_registers admits, parent?_registers, isCancelled_registers, ← fits.listens]
      split
      · rw [List.count_append, List.count_singleton]
        rfl
      · rfl
  | withdraws id callback =>
      simp only [after, parent?_removeListener, isCancelled_removeListener, listeners_removeListener]
      rw [← fits.listens]
      split
      · refine List.count_erase_of_ne fun h => ?_
        cases h
      · rfl
  | calls callback => exact fits.listens c p

/-- A deed that handles the listener whose turn it is keeps the links where they belong. -/
theorem Fits.after {due : List (Listener σ ω)} (fits : l.Fits (due ++ l.waiting) linked)
    (admits : l.Admits d) (handled : ∀ c, .source c ∈ due → d = .cancels c)
    (links : ∀ c p, linked' c p ↔ (linked c p ∧ d ≠ .detaches c) ∨ d = .makes c (some p)) :
    (l.after d).Fits (l.after d).waiting linked' where
  there c p h := by
    rcases (links c p).1 h with ⟨h, -⟩ | hd
    · obtain ⟨hc, hp⟩ := fits.there c p h
      exact ⟨knows_after.2 (.inl hc), knows_after.2 (.inl hp)⟩
    · exact ⟨knows_after.2 (.inr ⟨_, hd⟩), knows_after.2 (.inl (admits.parent c p hd))⟩
  follows c p h := by
    rw [isCancelled_after admits, parent?_after admits]
    rcases (links c p).1 h with ⟨h, hd⟩ | hd
    · exact (fits.follows c p h).imp .inl fun hparent => .inl ⟨hparent, hd⟩
    · cases hp : l.isCancelled p with
      | true => exact .inl (.inr (.inr ⟨p, hd, hp⟩))
      | false => exact .inr (.inr ⟨hd, rfl⟩)
  parent c p h := by
    rw [links]
    rcases (parent?_after admits).1 h with ⟨h, hd⟩ | ⟨hd, -⟩
    · exact .inl ⟨fits.parent c p h, hd⟩
    · exact .inr hd
  listens := fits.listens_after admits
  waits c p hparent hcancelled := by
    rw [isCancelled_after admits, waiting_after]
    rcases (parent?_after admits).1 hparent with ⟨hbefore, -⟩ | ⟨hd, hopen⟩
    · obtain ⟨hc, hp⟩ := fits.there c p (fits.parent c p hbefore)
      cases hopen : l.isCancelled p with
      | true =>
          rcases fits.waits c p hbefore hopen with hcancelled | hwaits
          · exact .inl (.inl hcancelled)
          · rcases List.mem_append.1 hwaits with hdue | hwaits
            · exact .inl (.inr (.inl ⟨handled c hdue, hc⟩))
            · exact .inr (List.mem_append_right _ hwaits)
      | false =>
          rcases (isCancelled_after admits).1 hcancelled with hbefore | ⟨hd, -⟩ | ⟨q, hd, -⟩
          · cases hopen.symm.trans hbefore
          · exact .inr (List.mem_append_left _
              (mem_opened.2 ⟨p, hd, hopen, fits.mem_listeners.2 ⟨hbefore, hopen⟩⟩))
          · exact absurd hp (admits.fresh p (some q) hd)
    · rcases (isCancelled_after admits).1 hcancelled with hp | ⟨hd', -⟩ | ⟨q, hd', -⟩
      · cases hopen.symm.trans hp
      · cases hd.symm.trans hd'
      · cases hd.symm.trans hd'
        exact absurd (admits.parent c c hd) (admits.fresh c (some c) hd)

end Ledger

variable [DecidableEq ρ]

namespace Script

variable {s : Script σ ω ρ} {t u : Nat}

/-! ## Links -/

/-- `c` was made under `p` and has not been detached since. -/
def Linked (s : Script σ ω ρ) (t : Nat) (c p : σ) : Prop :=
  ∃ i, i < t ∧ s.deed i = .makes c (some p) ∧ ∀ j, i < j → j < t → s.deed j ≠ .detaches c

theorem linked_succ {c p : σ} : s.Linked (t + 1) c p ↔
    (s.Linked t c p ∧ s.deed t ≠ .detaches c) ∨ s.deed t = .makes c (some p) := by
  constructor
  · rintro ⟨i, hi, hd, hkept⟩
    rcases Nat.lt_succ_iff_lt_or_eq.1 hi with hi | rfl
    · exact .inl ⟨⟨i, hi, hd, fun j hij hj => hkept j hij (Nat.lt_succ_of_lt hj)⟩,
        hkept t hi (Nat.lt_succ_self t)⟩
    · exact .inr hd
  · rintro (⟨⟨i, hi, hd, hkept⟩, hlast⟩ | hd)
    · refine ⟨i, Nat.lt_succ_of_lt hi, hd, fun j hij hj => ?_⟩
      rcases Nat.lt_succ_iff_lt_or_eq.1 hj with hj | rfl
      · exact hkept j hij hj
      · exact hlast
    · exact ⟨t, Nat.lt_succ_self t, hd, fun j hij hj => absurd hj (Nat.not_lt.2 hij)⟩

/-- The links are where they belong at any time. -/
theorem fits (distinct : Function.Injective s.users.source) (t : Nat) :
    (s.tokens t).ledger.Fits (s.tokens t).ledger.waiting (s.Linked t) := by
  induction t with
  | zero =>
      refine ⟨?_, ?_, nofun, fun _ _ => rfl, nofun⟩
      · rintro c p ⟨i, hi, -⟩
        cases hi
      · rintro c p ⟨i, hi, -⟩
        cases hi
  | succ t ih =>
      rw [ledger_succ]
      rw [Tokens.waiting_eq] at ih
      have hbegun : (s.tokens t).begun.Fits ((s.tokens t).due ++ (s.tokens t).begun.waiting)
          (s.Linked t) := ⟨ih.there, ih.follows, ih.parent, ih.listens, ih.waits⟩
      exact hbegun.after (admits distinct t) (fun c hc => deed_of_due hc) fun c p => linked_succ

/-- When nothing is under way, what is linked to a cancelled source is cancelled. -/
theorem cancelled_of_linked (distinct : Function.Injective s.users.source) (rests : s.Rests t)
    {c p : σ} (link : s.Linked t c p) (h : (s.tokens t).isCancelled p = true) :
    (s.tokens t).isCancelled c = true := by
  have hfits := fits distinct t
  rcases hfits.follows c p link with hc | hparent
  · exact hc
  · rcases hfits.waits c p hparent h with hc | hwaits
    · exact hc
    · rw [waiting_rests rests] at hwaits
      cases hwaits

theorem isCancelled_succ (distinct : Function.Injective s.users.source) {x : σ} :
    (s.tokens (t + 1)).isCancelled x = true ↔ (s.tokens t).isCancelled x = true ∨
      (s.deed t = .cancels x ∧ (s.tokens t).ledger.Knows x) ∨
      ∃ p, s.deed t = .makes x (some p) ∧ (s.tokens t).isCancelled p = true := by
  have hafter := Ledger.isCancelled_after (x := x) (admits distinct t)
  rw [← ledger_succ] at hafter
  exact hafter

/-- A source that is cancelled stays cancelled. -/
theorem cancelled_mono (distinct : Function.Injective s.users.source) {x : σ} (h : t ≤ u)
    (hcancelled : (s.tokens t).isCancelled x = true) : (s.tokens u).isCancelled x = true := by
  induction h with
  | refl => exact hcancelled
  | step _ ih => exact (isCancelled_succ distinct).2 (.inl ih)

/-- While callbacks act, sources are cancelled only when it is their turn. -/
theorem busy_deed (mild : s.users.Mild) (busy : ¬ s.Rests t) :
    (∀ id, s.deed t = .cancels id → .source id ∈ (s.tokens t).due) ∧
      (∀ id p, s.deed t ≠ .makes id p) ∧ ∀ id, s.deed t ≠ .detaches id := by
  rcases s.deed_cases t with ⟨listener, hdue, hd⟩ | ⟨-, hd | ⟨a, ⟨hrests, -⟩ | ⟨-, c, hc⟩, hcomes⟩⟩
  · rw [hd, hdue]
    cases listener with
    | source other =>
        refine ⟨fun id h => ?_, nofun, nofun⟩
        cases h
        exact List.mem_singleton_self _
    | callback c => exact ⟨nofun, nofun, nofun⟩
  · rw [hd]
    exact ⟨nofun, nofun, nofun⟩
  · exact absurd hrests busy
  · have hcalm := mild c a hc
    generalize s.deed t = d at hcomes ⊢
    cases hcomes with
    | nothing => exact ⟨nofun, nofun, nofun⟩
    | makes => cases hcalm
    | cancels => cases hcalm
    | detaches => cases hcalm
    | subscribes => exact ⟨nofun, nofun, nofun⟩
    | again => exact ⟨nofun, nofun, nofun⟩
    | unsubscribes => exact ⟨nofun, nofun, nofun⟩

/-! ## What a cancellation reaches -/

/-- What is cancelled, or is going to be, is among `A`. -/
structure Within (s : Script σ ω ρ) (A : σ → Prop) (t : Nat) : Prop where
  cancelled : ∀ x, (s.tokens t).isCancelled x = true → A x
  waiting : ∀ x, .source x ∈ (s.tokens t).ledger.waiting → A x
  linked : ∀ c p, s.Linked t c p → A p → A c

theorem Within.succ {A : σ → Prop} (distinct : Function.Injective s.users.source) (h : s.Within A t)
    (cancels : ∀ id, s.deed t = .cancels id → A id)
    (makes : ∀ c p, s.deed t = .makes c (some p) → A p → A c) : s.Within A (t + 1) where
  cancelled x hx := by
    rcases (isCancelled_succ distinct).1 hx with hx | ⟨hd, -⟩ | ⟨p, hd, hp⟩
    · exact h.cancelled x hx
    · exact cancels x hd
    · exact makes x p hd (h.cancelled p hp)
  waiting x hx := by
    rw [ledger_succ, Ledger.waiting_after] at hx
    rcases List.mem_append.1 hx with hx | hx
    · obtain ⟨id, hd, hopen, hmem⟩ := Ledger.mem_opened.1 hx
      have hfits := fits distinct t
      have hlink := hfits.parent x id (hfits.mem_listeners.1 hmem).1
      exact h.linked x id hlink (cancels id hd)
    · refine h.waiting x ?_
      rw [Tokens.waiting_eq]
      exact List.mem_append_right _ hx
  linked c p hlink hp := by
    rcases linked_succ.1 hlink with ⟨hlink, -⟩ | hd
    · exact h.linked c p hlink hp
    · exact makes c p hd hp

theorem Within.busy {A : σ → Prop} (distinct : Function.Injective s.users.source)
    (mild : s.users.Mild) (h : s.Within A t) (busy : ¬ s.Rests t) : s.Within A (t + 1) := by
  obtain ⟨hcancels, hmakes, -⟩ := busy_deed mild busy
  refine h.succ distinct (fun id hd => h.waiting id ?_) fun c p hd => absurd hd (hmakes c _)
  rw [Tokens.waiting_eq]
  exact List.mem_append_left _ (hcancels id hd)

/-- No link is given up while callbacks act. -/
theorem linked_returns (mild : s.users.Mild) (returns : s.Returns t u) {c p : σ}
    (link : s.Linked t c p) (calm : s.deed t ≠ .detaches c) : s.Linked u c p := by
  obtain ⟨i, hi, hd, hkept⟩ := link
  refine ⟨i, Nat.lt_trans hi returns.past, hd, fun j hij hj hdetaches => ?_⟩
  rcases Nat.lt_trichotomy j t with hlt | rfl | hgt
  · exact hkept j hij hlt hdetaches
  · exact calm hdetaches
  · exact (busy_deed mild (returns.busy j hgt hj)).2.2 c hdetaches

/-- The links lead from a source to another one, or to the same. -/
def Descends (s : Script σ ω ρ) (t : Nat) : σ → σ → Prop :=
  Relation.ReflTransGen (s.Linked t)

/-- When an action has come to its end, those are cancelled in addition who descend from the source that
it cancels, or the one that it makes under a cancelled token. -/
theorem cancelled_returns_iff (distinct : Function.Injective s.users.source) (mild : s.users.Mild)
    (rests : s.Rests t) (returns : s.Returns t u) (x : σ) : (s.tokens u).isCancelled x = true ↔
      (s.tokens t).isCancelled x = true ∨ (∃ id, s.deed t = .cancels id ∧ s.Descends t x id) ∨
        ∃ p, s.deed t = .makes x (some p) ∧ (s.tokens t).isCancelled p = true := by
  constructor
  · let A : σ → Prop := fun x => (s.tokens t).isCancelled x = true ∨
      (∃ id, s.deed t = .cancels id ∧ s.Descends t x id) ∨
        ∃ p, s.deed t = .makes x (some p) ∧ (s.tokens t).isCancelled p = true
    have hstart : s.Within A t := by
      refine ⟨fun x hx => .inl hx, fun x hx => ?_, fun c p hlink hp => ?_⟩
      · rw [waiting_rests rests] at hx
        cases hx
      · rcases hp with hp | ⟨id, hd, hp⟩ | ⟨q, hd, hq⟩
        · exact .inl (cancelled_of_linked distinct rests hlink hp)
        · exact .inr (.inl ⟨id, hd, hp.head hlink⟩)
        · exact absurd ((fits distinct t).there c p hlink).2 (fresh distinct hd)
    have hfirst : s.Within A (t + 1) := by
      refine hstart.succ distinct (fun id hd => .inr (.inl ⟨id, hd, .refl⟩)) fun c p hd hp => ?_
      rcases hp with hp | ⟨id, hd', -⟩ | ⟨q, hd', hq⟩
      · exact .inr (.inr ⟨p, hd, hp⟩)
      · cases hd.symm.trans hd'
      · cases hd.symm.trans hd'
        exact .inr (.inr ⟨c, hd, hq⟩)
    have hwithin (v : Nat) (hv : t + 1 ≤ v) (hle : v ≤ u) : s.Within A v := by
      induction hv with
      | refl => exact hfirst
      | step hlt ih => exact (ih (Nat.le_of_succ_le hle)).busy distinct mild (returns.busy _ hlt hle)
    exact (hwithin u returns.past (Nat.le_refl u)).cancelled x
  · rintro (hx | ⟨id, hd, hx⟩ | ⟨p, hd, hp⟩)
    · exact cancelled_mono distinct (Nat.le_of_lt returns.past) hx
    · have hknown : (s.tokens t).ledger.Knows id := by
        refine (knows_of_named (by rw [hd]; rfl)).resolve_right fun hdue => ?_
        rw [due_rests rests] at hdue
        cases hdue
      have hid : (s.tokens u).isCancelled id = true :=
        cancelled_mono distinct returns.past ((isCancelled_succ distinct).2 (.inr (.inl ⟨hd, hknown⟩)))
      induction hx using Relation.ReflTransGen.head_induction_on with
      | refl => exact hid
      | head hlink _ ih =>
          refine cancelled_of_linked distinct returns.rests (linked_returns mild returns hlink ?_) ih
          rw [hd]
          nofun
    · exact cancelled_mono distinct returns.past ((isCancelled_succ distinct).2 (.inr (.inr ⟨p, hd, hp⟩)))

/-- Cancellation follows links: what is cancelled when an action has come to its end, what is cancelled
from the start, that nothing is uncancelled, and that actions come to their end. -/
theorem cancellation_follows_links (s : Script σ ω ρ)
    (distinct : Function.Injective s.users.source) (mild : s.users.Mild) :
    (∀ t u, s.Rests t → s.Returns t u → ∀ x, (s.tokens u).isCancelled x = true ↔
      (s.tokens t).isCancelled x = true ∨ (∃ id, s.deed t = .cancels id ∧ s.Descends t x id) ∨
        ∃ p, s.deed t = .makes x (some p) ∧ (s.tokens t).isCancelled p = true) ∧
    (∀ t x p, s.deed t = .makes x (some p) → (s.tokens t).isCancelled p = true →
      (s.tokens (t + 1)).isCancelled x = true) ∧
    (∀ t u x, t ≤ u → (s.tokens t).isCancelled x = true → (s.tokens u).isCancelled x = true) ∧
    ∀ work, s.users.Bounded work → ∀ t, ∃ u, s.Returns t u :=
  ⟨fun _ _ rests returns => cancelled_returns_iff distinct mild rests returns,
    fun _ _ p hd hp => (isCancelled_succ distinct).2 (.inr (.inr ⟨p, hd, hp⟩)),
    fun _ _ _ h => cancelled_mono distinct h, fun _ bounded => exists_returns bounded⟩

/-- Source 0 is cancelled after 1 and 2 were made under it, 3 under 1, and 2 was detached. -/
def family : Script Nat Nat Nat where
  users := { source := id, behave := fun _ => {} }
  action
    | 0 => .create 0 none
    | 1 => .create 1 (some (.source 0))
    | 2 => .create 2 (some (.source 0))
    | 3 => .create 3 (some (.source 1))
    | 4 => .detach 2
    | _ => .cancel 0

theorem family_cancelled : family.Rests 5 ∧ family.Returns 5 11 ∧ family.deed 5 = .cancels 0 ∧
    family.Descends 5 3 0 ∧ ¬ family.Descends 5 2 0 := by
  have hmild : family.users.Mild := fun _ _ h => nomatch h
  have hrests : family.Rests 5 := by decide
  have hbusy : ∀ v < 11, 5 < v → ¬ family.Rests v := by decide
  have hreturns : family.Returns 5 11 := ⟨by decide, by decide, fun v hv hlt => hbusy v hlt hv⟩
  have hdeed : family.deed 5 = .cancels 0 := by decide
  have hiff := (cancellation_follows_links family Function.injective_id hmild).1 5 11 hrests hreturns
  refine ⟨hrests, hreturns, hdeed, ?_, fun hdescends => ?_⟩
  · rcases (hiff 3).1 (by decide) with hbefore | ⟨id, hd, hdescends⟩ | ⟨p, hd, -⟩
    · exact absurd hbefore (by decide)
    · cases hdeed.symm.trans hd
      exact hdescends
    · cases hdeed.symm.trans hd
  · have hcancelled := (hiff 2).2 (.inr (.inl ⟨0, hdeed, hdescends⟩))
    exact absurd hcancelled (by decide)

end Script

end Shellwright.Cancellation
