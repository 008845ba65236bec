import Mathlib.Algebra.GroupWithZero.Nat
import Shellwright.Proofs.Cancellation.Script
/-!
# What is still to be done

Every source and every listener can be told once, so what is under way comes to its end when the
callbacks, with those that they subscribe in turn, have only so much to do.
-/

namespace Shellwright.Keyed

variable {κ ν : Type} [DecidableEq κ]

/-- All values together, each with its weight. -/
def weight (entries : Keyed κ ν) (f : ν → Nat) : Nat :=
  (entries.map fun e => f e.2).sum

theorem weight_put_le (entries : Keyed κ ν) (key : κ) (value : ν) (f : ν → Nat) :
    (entries.put key value).weight f ≤ entries.weight f + f value := by
  induction entries with
  | nil => exact Nat.le_of_eq (Nat.add_comm _ _)
  | cons e rest ih =>
      change weight (if e.1 = key then (key, value) :: rest else e :: put rest key value) f ≤ _
      split
      · change f value + weight rest f ≤ f e.2 + weight rest f + f value
        omega
      · change f e.2 + weight (put rest key value) f ≤ f e.2 + weight rest f + f value
        omega

/-- A value that is replaced weighs nothing any more. -/
theorem weight_put {entries : Keyed κ ν} {key : κ} {before : ν} (h : entries.get? key = some before)
    (value : ν) (f : ν → Nat) :
    (entries.put key value).weight f + f before = entries.weight f + f value := by
  induction entries with
  | nil => cases h
  | cons e rest ih =>
      change weight (if e.1 = key then (key, value) :: rest else e :: put rest key value) f + _ = _
      by_cases he : e.1 = key
      · have hbefore : e.2 = before := by simpa [get?, he] using h
        rw [if_pos he, ← hbefore]
        change f value + weight rest f + f e.2 = f e.2 + weight rest f + f value
        omega
      · have hrest := ih (by simpa [get?, he] using h)
        rw [if_neg he]
        change f e.2 + weight (put rest key value) f + f before = f e.2 + weight rest f + f value
        omega

theorem weight_change_le {entries : Keyed κ ν} (nodup : entries.keys.Nodup) (key : κ) {f : ν → Nat}
    {g : ν → ν} {more : Nat} (h : ∀ value, f (g value) ≤ f value + more) :
    (entries.change key g).weight f ≤ entries.weight f + more := by
  induction entries with
  | nil => exact Nat.zero_le _
  | cons e rest ih =>
      obtain ⟨hnew, hrest⟩ := List.nodup_cons.1 nodup
      change f (if e.1 = key then (e.1, g e.2) else e).2 + weight (change rest key g) f ≤
        f e.2 + weight rest f + more
      by_cases he : e.1 = key
      · have hsame : change rest key g = rest := by
          refine (List.map_congr_left fun other hmem => if_neg fun hother => hnew ?_).trans
            (List.map_id rest)
          rw [he, ← hother]
          exact List.mem_map_of_mem hmem
        have hvalue := h e.2
        rw [if_pos he, hsame]
        simp only
        omega
      · have hle := ih hrest
        rw [if_neg he]
        omega

end Shellwright.Keyed

namespace Shellwright.Cancellation

variable {σ ω ρ : Type}

/-- How many steps an action leads to, at most. -/
def Action.load (work : ω → Nat) : Action ω ρ → Nat
  | .create _ _ => 3
  | .subscribe _ _ callback => work callback + 2
  | _ => 1

/-- A callback `c` has less than `work c` to do, what it subscribes included. -/
structure Users.Bounded (users : Users σ ω ρ) (work : ω → Nat) : Prop where
  actions : ∀ c, ((users.behave c).actions.map (Action.load work)).sum < work c
  callback : ∀ c n, work (users.callback c n) ≤ work c
  anew : ∀ c, ∀ a ∈ (users.behave c).actions, ∀ followed registration earlier,
    a ≠ .subscribeAgain followed registration earlier

def Listener.load (work : ω → Nat) : Listener σ ω → Nat
  | .source _ => 1
  | .callback c => work c + 1

def Source.load (work : ω → Nat) (s : Source σ ω) : Nat :=
  (if s.cancelled then 0 else 1) + (s.listeners.map (Listener.load work)).sum

def Frame.load (work : ω → Nat) : Frame σ ω ρ → Nat
  | .telling rest => (rest.map (Listener.load work)).sum + 1
  | .acting rest _ => (rest.map (Action.load work)).sum + 1
  | .registering _ => 1

theorem Frame.telling_load (work : ω → Nat) (l : Listener σ ω) (rest : List (Listener σ ω)) :
    (Frame.telling (l :: rest) : Frame σ ω ρ).load work =
      (Frame.telling rest : Frame σ ω ρ).load work + l.load work := by
  change l.load work + (rest.map (Listener.load work)).sum + 1 = _ + 1 + _
  rw [Nat.add_assoc, Nat.add_comm]

theorem Frame.acting_load (work : ω → Nat) (a : Action ω ρ) (rest : List (Action ω ρ)) (fails : Bool) :
    (Frame.acting (a :: rest) fails : Frame σ ω ρ).load work =
      (Frame.acting rest fails : Frame σ ω ρ).load work + a.load work := by
  change a.load work + (rest.map (Action.load work)).sum + 1 = _ + 1 + _
  rw [Nat.add_assoc, Nat.add_comm]

namespace Tokens

def load (work : ω → Nat) (t : Tokens σ ω ρ) : Nat :=
  t.sources.weight (Source.load work) + (t.stack.map (Frame.load work)).sum

variable {work : ω → Nat} {users : Users σ ω ρ} {t : Tokens σ ω ρ}

theorem push_load (work : ω → Nat) (t : Tokens σ ω ρ) (f : Frame σ ω ρ) :
    (t.push f).load work = t.load work + f.load work := by
  unfold load
  change _ + ((f :: t.stack).map _).sum = _
  rw [List.map_cons, List.sum_cons]
  change t.sources.weight _ + _ = _
  omega

theorem load_lt_push (t : Tokens σ ω ρ) (f : Frame σ ω ρ) : t.load work < (t.push f).load work := by
  rw [push_load]
  refine Nat.lt_add_of_pos_right ?_
  cases f <;> exact Nat.succ_pos _

/-- A failure ends some of what is under way. -/
theorem fail_load (t : Tokens σ ω ρ) (fault : Fault ρ) : (t.fail fault).load work ≤ t.load work := by
  have hthrough : ∀ frames, (t.failThrough fault frames).load work ≤
      t.sources.weight (Source.load work) + (frames.map (Frame.load work)).sum := by
    intro frames
    induction frames with
    | nil => exact Nat.le_refl _
    | cons f frames ih =>
        have hdrop : (frames.map (Frame.load work)).sum ≤
            ((f :: frames).map (Frame.load work)).sum := Nat.le_add_left _ _
        cases f with
        | telling rest => exact Nat.le_refl _
        | acting rest fails => exact Nat.le_trans ih (Nat.add_le_add_left hdrop _)
        | registering registration => exact Nat.le_trans ih (Nat.add_le_add_left hdrop _)
  exact hthrough t.stack

theorem tell_load (t : Tokens σ ω ρ) (bounded : users.Bounded work) (callback : ω) :
    (t.tell users.behave callback).load work ≤ t.load work + work callback := by
  have hpush := push_load work { t with told := t.told ++ [callback] }
    (.acting (users.behave callback).actions (users.behave callback).fails)
  have hactions := bounded.actions callback
  change (t.tell users.behave callback).load work = t.load work + (_ + 1) at hpush
  omega

/-! ## Sources -/

section Sources

variable [DecidableEq σ]

theorem put_load (t : Tokens σ ω ρ) (id : σ) (s : Source σ ω) :
    ({ t with sources := t.sources.put id s }).load work ≤ t.load work + s.load work := by
  have hput := Keyed.weight_put_le t.sources id s (Source.load work)
  have hstack := Nat.add_le_add_right hput (t.stack.map (Frame.load work)).sum
  rwa [Nat.add_right_comm] at hstack

theorem change_load (nodup : t.sources.keys.Nodup) (id : σ) {f : Source σ ω → Source σ ω} (more : Nat)
    (h : ∀ s, (f s).load work ≤ s.load work + more) :
    ({ t with sources := t.sources.change id f }).load work ≤ t.load work + more := by
  have hchange := Keyed.weight_change_le nodup id h
  have hstack := Nat.add_le_add_right hchange (t.stack.map (Frame.load work)).sum
  rwa [Nat.add_right_comm] at hstack

/-- What the listeners of a cancelled source have to do is under way from now on. -/
theorem startCancel_load (t : Tokens σ ω ρ) (id : σ) :
    (t.startCancel id).load work ≤ t.load work := by
  unfold startCancel
  cases hfound : t.source? id with
  | none => exact Nat.le_refl _
  | some s =>
      simp only
      split
      · exact Nat.le_refl _
      · rename_i hcancelled
        have hput := Keyed.weight_put hfound { s with cancelled := true, listeners := [] }
          (Source.load work)
        have hbefore : s.load work = (s.listeners.map (Listener.load work)).sum + 1 := by
          unfold Source.load
          rw [if_neg hcancelled, Nat.add_comm]
        have hafter : (Source.mk (ω := ω) true [] s.parent).load work = 0 := rfl
        rw [hbefore, hafter] at hput
        rw [push_load]
        unfold load Frame.load
        simp only
        omega

theorem addListener_load (nodup : t.sources.keys.Nodup) (id : σ) (l : Listener σ ω) :
    (t.addListener id l).load work ≤ t.load work + l.load work := by
  refine change_load nodup id (l.load work) fun s => ?_
  unfold Source.load
  rw [List.map_append, List.sum_append, List.map_singleton, List.sum_singleton]
  exact Nat.le_of_eq (Nat.add_assoc _ _ _).symm

theorem removeListener_load [DecidableEq ω] (nodup : t.sources.keys.Nodup) (id : σ)
    (l : Listener σ ω) : (t.removeListener id l).load work ≤ t.load work := by
  refine change_load nodup id 0 fun s => Nat.add_le_add_left ?_ _
  by_cases hmem : l ∈ s.listeners
  · rw [((List.perm_cons_erase hmem).map (Listener.load work)).sum_nat]
    exact Nat.le_add_left _ _
  · exact Nat.le_of_eq (by rw [List.erase_of_not_mem hmem])

theorem create_load (nodup : t.sources.keys.Nodup) (id : σ) (parent : Option (Followed σ)) :
    (t.create id parent).load work ≤ t.load work + 2 := by
  have hput (s : Source σ ω) : ({ t with sources := t.sources.put id s }).load work ≤
      t.load work + s.load work := t.put_load id s
  unfold create
  match parent with
  | none => exact Nat.le_succ_of_le (hput {})
  | some .never => exact Nat.le_succ_of_le (hput {})
  | some (.source p) =>
      simp only
      split
      · exact Nat.le_succ_of_le (Nat.le_trans (startCancel_load _ id) (hput {}))
      · exact Nat.le_trans
          (addListener_load (t := { t with sources := t.sources.put id { parent := some p } })
            (Keyed.nodup_keys_put nodup id _) p (.source id))
          (Nat.succ_le_succ (hput { parent := some p }))

theorem detach_load [DecidableEq ω] (nodup : t.sources.keys.Nodup) (id : σ) :
    (t.detach id).load work ≤ t.load work := by
  unfold detach
  split
  · exact Nat.le_refl _
  · refine Nat.le_trans (removeListener_load ?_ _ _)
      (change_load nodup id 0 fun s => Nat.le_refl _)
    rwa [Keyed.keys_change]

end Sources

/-! ## Steps -/

variable [DecidableEq ρ]

theorem withNamed_load {α : Type} (meanings : Keyed ρ α) (name : ρ) {f : α → Tokens σ ω ρ} (more : Nat)
    (h : ∀ a, (f a).load work ≤ t.load work + more) :
    (t.withNamed meanings name f).load work ≤ t.load work + more := by
  unfold withNamed
  cases meanings.get? name with
  | some a => exact h a
  | none => exact Nat.le_add_right_of_le (t.fail_load _)

variable [DecidableEq σ]

theorem register_load (nodup : t.sources.keys.Nodup) (bounded : users.Bounded work)
    (followed : Followed σ) (registration : ρ) (callback : ω) :
    (t.register users.behave followed registration callback).load work ≤
      t.load work + (work callback + 1) := by
  unfold register
  cases followed with
  | never => exact Nat.le_add_right _ _
  | source id =>
      simp only
      split
      · refine Nat.le_trans (tell_load _ bounded callback) ?_
        rw [push_load]
        exact Nat.le_of_eq (Nat.add_right_comm _ _ _)
      · exact addListener_load (t := { t with
          callbacks := t.callbacks.put registration callback
          registrations := t.registrations.put registration (some (id, callback)) }) nodup id _

variable [DecidableEq ω]

/-- An action leads to less than it counts. -/
theorem act_load (nodup : t.sources.keys.Nodup) (bounded : users.Bounded work) {a : Action ω ρ}
    (anew : ∀ followed registration earlier, a ≠ .subscribeAgain followed registration earlier) :
    (t.act users a).load work < t.load work + a.load work := by
  have hfollowed (followed : Followed ρ) {f : Followed σ → Tokens σ ω ρ} {more : Nat}
      (each : ∀ x, (f x).load work ≤ t.load work + more) :
      (t.withFollowed followed f).load work ≤ t.load work + more := by
    cases followed with
    | never => exact each _
    | source name => exact withNamed_load t.names name more fun id => each _
  have hcreate (name : ρ) (parent : Option (Followed σ)) :
      (t.createNamed users name parent).load work ≤ t.load work + 2 :=
    create_load nodup _ parent
  cases a with
  | create name parent =>
      refine Nat.lt_succ_of_le ?_
      cases parent with
      | none => exact hcreate name none
      | some parent => exact hfollowed parent fun p => hcreate name (some p)
  | cancel name => exact Nat.lt_succ_of_le (withNamed_load t.names name 0 t.startCancel_load)
  | detach name =>
      exact Nat.lt_succ_of_le (withNamed_load t.names name 0 fun id => detach_load nodup id)
  | subscribe followed registration callback =>
      refine Nat.lt_succ_of_le (hfollowed followed fun x => ?_)
      have hregister := register_load (t := { t with subscriptions := t.subscriptions + 1 }) nodup
        bounded x registration (users.callback callback t.subscriptions)
      have hcallback := bounded.callback callback t.subscriptions
      exact Nat.le_trans hregister (Nat.add_le_add_left (Nat.succ_le_succ hcallback) _)
  | subscribeAgain followed registration earlier => exact absurd rfl (anew _ _ _)
  | unsubscribe registration =>
      refine Nat.lt_succ_of_le ?_
      change (t.unregister registration).load work ≤ _
      unfold unregister
      split
      · exact t.fail_load _
      · exact Nat.le_refl _
      · exact removeListener_load nodup _ _

/-- What is under way gets less with every step. -/
theorem step_load (nodup : t.sources.keys.Nodup) (bounded : users.Bounded work)
    (behaves : t.Behaves users) (busy : t.stack ≠ []) : (t.step users).load work < t.load work := by
  obtain ⟨sources, names, callbacks, registrations, subscriptions, stack, told, contained, failed⟩ := t
  have hframe (f f' : Frame σ ω ρ) (frames : List (Frame σ ω ρ)) (more : Nat)
      (h : f.load work = f'.load work + more) :
      load work ⟨sources, names, callbacks, registrations, subscriptions, f :: frames, told, contained,
          failed⟩ =
        load work ⟨sources, names, callbacks, registrations, subscriptions, f' :: frames, told,
          contained, failed⟩ + more := by
    have hpush (f : Frame σ ω ρ) := push_load work ⟨sources, names, callbacks, registrations,
      subscriptions, frames, told, contained, failed⟩ f
    exact (hpush f).trans (by rw [h, ← Nat.add_assoc, ← hpush f']; rfl)
  match stack with
  | [] => exact absurd rfl busy
  | .telling [] :: frames => exact load_lt_push ⟨_, _, _, _, _, frames, _, _, _⟩ (.telling [])
  | .telling (.source id :: rest) :: frames =>
      rw [hframe _ _ frames _ (Frame.telling_load work (.source id) rest)]
      exact Nat.lt_succ_of_le (startCancel_load _ id)
  | .telling (.callback c :: rest) :: frames =>
      rw [hframe _ _ frames _ (Frame.telling_load work (.callback c) rest)]
      exact Nat.lt_succ_of_le (tell_load _ bounded c)
  | .acting [] false :: frames =>
      exact load_lt_push ⟨_, _, _, _, _, frames, _, _, _⟩ (.acting [] false)
  | .acting [] true :: frames =>
      exact Nat.lt_of_le_of_lt (fail_load _ _)
        (load_lt_push ⟨_, _, _, _, _, frames, _, _, _⟩ (.acting [] true))
  | .acting (a :: rest) fails :: frames =>
      obtain ⟨c, hc⟩ := behaves _ _ List.mem_cons_self
      rw [hframe _ _ frames _ (Frame.acting_load work a rest fails)]
      exact act_load (t := ⟨_, _, _, _, _, .acting rest fails :: frames, _, _, _⟩) nodup bounded
        (bounded.anew c a (hc a List.mem_cons_self))
  | .registering registration :: frames =>
      exact load_lt_push ⟨_, _, _, _, _, frames, _, _, _⟩ (.registering registration)

end Tokens

namespace Script

variable [DecidableEq σ] [DecidableEq ω] [DecidableEq ρ] {s : Script σ ω ρ} {work : ω → Nat}

theorem nodup_keys (s : Script σ ω ρ) (t : Nat) : (s.tokens t).sources.keys.Nodup := by
  induction t with
  | zero => exact List.nodup_nil
  | succ t ih =>
      rcases (s.keeps_succ t).keys with hkeys | ⟨id, p, -, hkeys⟩
      · rwa [hkeys]
      · rw [hkeys]
        exact Keyed.nodup_keys_put ih id {}

/-- What is under way comes to its end. -/
theorem exists_rests (bounded : s.users.Bounded work) (t : Nat) :
    ∃ u, t ≤ u ∧ s.Rests u ∧ ∀ v, t ≤ v → v < u → ¬ s.Rests v := by
  by_cases h : s.Rests t
  · exact ⟨t, Nat.le_refl t, h, fun v hv hlt => absurd hlt (Nat.not_lt.2 hv)⟩
  · have hload : (s.tokens (t + 1)).load work < (s.tokens t).load work := by
      rw [(tokens_busy h).1]
      exact Tokens.step_load (s.nodup_keys t) bounded (s.behaves t) h
    obtain ⟨u, hpast, hrests, hbusy⟩ := exists_rests bounded (t + 1)
    refine ⟨u, Nat.le_of_succ_le hpast, hrests, fun v hv hlt => ?_⟩
    rcases Nat.eq_or_lt_of_le hv with rfl | hv
    · exact h
    · exact hbusy v hv hlt
termination_by (s.tokens t).load work

/-- Whatever the user does comes to its end. -/
theorem exists_returns (bounded : s.users.Bounded work) (t : Nat) : ∃ u, s.Returns t u := by
  obtain ⟨u, hpast, hrests, hbusy⟩ := exists_rests bounded (t + 1)
  exact ⟨u, hpast, hrests, hbusy⟩

end Script

end Shellwright.Cancellation
