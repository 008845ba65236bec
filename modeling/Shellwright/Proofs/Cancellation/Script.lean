import Shellwright.Proofs.Cancellation.Ledger
/-!
# Scripts

A user of tokens does one thing after another, each when nothing is under way any more. What holds of
sources, names and registrations at any time of such a script, and that it comes to rest again when the
callbacks have only so much to do.
-/

namespace Shellwright.Cancellation

namespace Tokens

variable {σ ω ρ : Type}

section Acting

/-! ## Who acts -/

/-- What listeners still have to do is part of what callbacks do. -/
def Behaves (users : Users σ ω ρ) (t : Tokens σ ω ρ) : Prop :=
  ∀ rest fails, .acting rest fails ∈ t.stack → ∃ c, ∀ a ∈ rest, a ∈ (users.behave c).actions

variable {users : Users σ ω ρ} {t : Tokens σ ω ρ}

theorem Behaves.push (h : t.Behaves users) {f : Frame σ ω ρ}
    (calm : ∀ rest fails, f ≠ .acting rest fails) : (t.push f).Behaves users := by
  intro rest fails hmem
  rcases List.mem_cons.1 hmem with heq | hmem
  · exact absurd heq.symm (calm rest fails)
  · exact h rest fails hmem

theorem Behaves.tell (h : t.Behaves users) (callback : ω) :
    (t.tell users.behave callback).Behaves users := by
  intro rest fails hmem
  rcases List.mem_cons.1 hmem with heq | hmem
  · cases heq
    exact ⟨callback, fun a ha => ha⟩
  · exact h rest fails hmem

theorem Behaves.fail (h : t.Behaves users) (fault : Fault ρ) : (t.fail fault).Behaves users := by
  have hthrough : ∀ frames, (∀ f ∈ frames, f ∈ t.stack) →
      (t.failThrough fault frames).Behaves users := by
    intro frames
    induction frames with
    | nil =>
        intro _ rest fails hmem
        cases hmem
    | cons f frames ih =>
        intro hframes
        cases f with
        | telling rest => exact fun rest' fails hmem => h rest' fails (hframes _ hmem)
        | acting rest fails => exact ih fun f hf => hframes f (List.mem_cons_of_mem _ hf)
        | registering registration => exact ih fun f hf => hframes f (List.mem_cons_of_mem _ hf)
  exact hthrough t.stack fun f hf => hf

theorem Behaves.startCancel [DecidableEq σ] (h : t.Behaves users) (id : σ) :
    (t.startCancel id).Behaves users := by
  unfold Tokens.startCancel
  split
  · exact h
  · split
    · exact h
    · exact Behaves.push (t := { t with sources := _ }) h (by simp)

variable [DecidableEq ρ]

theorem Behaves.withNamed {α : Type} (h : t.Behaves users) (meanings : Keyed ρ α) (name : ρ)
    {f : α → Tokens σ ω ρ} (each : ∀ a, (f a).Behaves users) :
    (t.withNamed meanings name f).Behaves users := by
  unfold Tokens.withNamed
  cases meanings.get? name with
  | some a => exact each a
  | none => exact h.fail _

variable [DecidableEq σ]

theorem Behaves.createNamed (h : t.Behaves users) (name : ρ) (parent : Option (Followed σ)) :
    (t.createNamed users name parent).Behaves users := by
  have hcreate (id : σ) : (t.create id parent).Behaves users := by
    unfold Tokens.create
    match parent with
    | none => exact h
    | some .never => exact h
    | some (.source p) =>
        simp only
        split
        · exact Behaves.startCancel (t := { t with sources := t.sources.put id {} }) h id
        · exact h
  exact hcreate _

theorem Behaves.register (h : t.Behaves users) (followed : Followed σ) (registration : ρ)
    (callback : ω) : (t.register users.behave followed registration callback).Behaves users := by
  cases followed with
  | never => exact h
  | source id =>
      unfold Tokens.register
      simp only
      split
      · exact Behaves.tell (Behaves.push (t := { t with callbacks := t.callbacks.put registration callback })
          (f := .registering registration) h (by simp)) callback
      · exact h

variable [DecidableEq ω]

theorem Behaves.act (h : t.Behaves users) (a : Action ω ρ) : (t.act users a).Behaves users := by
  have hfollowed (followed : Followed ρ) {f : Followed σ → Tokens σ ω ρ}
      (each : ∀ x, (f x).Behaves users) : (t.withFollowed followed f).Behaves users := by
    cases followed with
    | never => exact each _
    | source name => exact h.withNamed t.names name fun id => each _
  cases a with
  | create name parent =>
      cases parent with
      | none => exact h.createNamed name none
      | some parent => exact hfollowed parent fun p => h.createNamed name (some p)
  | cancel name => exact h.withNamed t.names name h.startCancel
  | detach name =>
      refine h.withNamed t.names name fun id => ?_
      unfold Tokens.detach
      split
      · exact h
      · exact h
  | subscribe followed registration callback =>
      exact hfollowed followed fun x =>
        Behaves.register (t := { t with subscriptions := t.subscriptions + 1 }) h x registration _
  | subscribeAgain followed registration earlier =>
      exact hfollowed followed fun x =>
        h.withNamed t.callbacks earlier fun callback => h.register x registration callback
  | unsubscribe registration =>
      change (t.unregister registration).Behaves users
      unfold Tokens.unregister
      split
      · exact h.fail _
      · exact h
      · exact h

theorem Behaves.step (h : t.Behaves users) : (t.step users).Behaves users := by
  obtain ⟨sources, names, callbacks, registrations, subscriptions, stack, told, contained, failed⟩ := t
  have hrest {f : Frame σ ω ρ} {frames : List (Frame σ ω ρ)} (hstack : stack = f :: frames)
      (rest : List (Action ω ρ)) (fails : Bool) (hmem : .acting rest fails ∈ frames) :
      ∃ c, ∀ a ∈ rest, a ∈ (users.behave c).actions :=
    h rest fails (hstack ▸ List.mem_cons_of_mem f hmem)
  have htelling {f : Frame σ ω ρ} {frames : List (Frame σ ω ρ)} (hstack : stack = f :: frames)
      (rest : List (Listener σ ω)) : Behaves users ⟨sources, names, callbacks, registrations,
        subscriptions, .telling rest :: frames, told, contained, failed⟩ :=
    Behaves.push (t := ⟨sources, names, callbacks, registrations, subscriptions, frames, told,
      contained, failed⟩) (hrest hstack) (by simp)
  match stack with
  | [] => exact h
  | .telling [] :: frames => exact hrest rfl
  | .telling (.source id :: rest) :: frames => exact (htelling rfl rest).startCancel id
  | .telling (.callback c :: rest) :: frames => exact (htelling rfl rest).tell c
  | .acting [] false :: frames => exact hrest rfl
  | .acting [] true :: frames =>
      exact Behaves.fail (t := ⟨sources, names, callbacks, registrations, subscriptions, frames, told,
        contained, failed⟩) (hrest rfl) _
  | .acting (a :: rest) fails :: frames =>
      refine Behaves.act (t := ⟨sources, names, callbacks, registrations, subscriptions,
        .acting rest fails :: frames, told, contained, failed⟩) (fun rest' fails' hmem => ?_) a
      rcases List.mem_cons.1 hmem with heq | hmem
      · cases heq
        obtain ⟨c, hc⟩ := h _ _ List.mem_cons_self
        exact ⟨c, fun b hb => hc b (List.mem_cons_of_mem a hb)⟩
      · exact hrest rfl rest' fails' hmem
  | .registering registration :: frames => exact hrest rfl

end Acting

/-! ## Names and registrations -/

variable [DecidableEq σ]

theorem knows_iff (t : Tokens σ ω ρ) (id : σ) : t.ledger.Knows id ↔ id ∈ t.sources.keys := by
  constructor
  · rintro ⟨source, hsource⟩
    exact List.mem_map.2 ⟨_, Keyed.mem_of_get? hsource, rfl⟩
  · exact fun hmem => (Keyed.has_iff _ _).1 (Keyed.has_of_mem_keys hmem)

theorem keys_addListener (t : Tokens σ ω ρ) (id : σ) (l : Listener σ ω) :
    (t.addListener id l).sources.keys = t.sources.keys := by
  simp only [addListener, Keyed.keys_change]

theorem keys_removeListener [DecidableEq ω] (t : Tokens σ ω ρ) (id : σ) (l : Listener σ ω) :
    (t.removeListener id l).sources.keys = t.sources.keys := by
  simp only [removeListener, Keyed.keys_change]

/-- To cancel a source leaves it at the sources that there are. -/
theorem startCancel_same (t : Tokens σ ω ρ) (id : σ) :
    (t.startCancel id).sources.keys = t.sources.keys ∧ (t.startCancel id).names = t.names ∧
      (t.startCancel id).registrations = t.registrations := by
  unfold startCancel
  cases hfound : t.source? id with
  | none => exact ⟨rfl, rfl, rfl⟩
  | some s =>
      simp only
      split
      · exact ⟨rfl, rfl, rfl⟩
      · refine ⟨?_, rfl, rfl⟩
        exact (Keyed.keys_put t.sources id _).trans (if_pos ((Keyed.has_iff _ _).2 ⟨s, hfound⟩))

/-- A source is made, whatever it follows. -/
theorem create_same (t : Tokens σ ω ρ) (id : σ) (parent : Option (Followed σ)) :
    (t.create id parent).sources.keys = (t.sources.put id {}).keys ∧
      (t.create id parent).names = t.names ∧
      (t.create id parent).registrations = t.registrations := by
  unfold create
  match parent with
  | none => exact ⟨rfl, rfl, rfl⟩
  | some .never => exact ⟨rfl, rfl, rfl⟩
  | some (.source p) =>
      simp only
      split
      · exact startCancel_same _ id
      · refine ⟨(keys_addListener _ p _).trans ?_, rfl, rfl⟩
        rw [Keyed.keys_put, Keyed.keys_put]

variable [DecidableEq ρ]

/-- What is known of sources, names and registrations after a deed. -/
structure Keeps (t t' : Tokens σ ω ρ) (d : Deed σ ω) : Prop where
  keys : t'.sources.keys = t.sources.keys ∨
    ∃ id p, d = .makes id p ∧ t'.sources.keys = (t.sources.put id {}).keys
  names : ∀ name id, t'.names.get? name = some id →
    t.names.get? name = some id ∨ ∃ p, d = .makes id p
  registrations : ∀ registration id callback,
    t'.registrations.get? registration = some (some (id, callback)) →
      t.registrations.get? registration = some (some (id, callback)) ∨ d = .registers id callback

variable {t t' : Tokens σ ω ρ} {d : Deed σ ω}

theorem Keeps.of_eq (keys : t'.sources.keys = t.sources.keys) (names : t'.names = t.names)
    (registrations : t'.registrations = t.registrations) : t.Keeps t' d where
  keys := .inl keys
  names name id h := .inl (by rwa [names] at h)
  registrations registration id callback h := .inl (by rwa [registrations] at h)

theorem fail_keeps (t : Tokens σ ω ρ) (fault : Fault ρ) : t.Keeps (t.fail fault) d := by
  have hthrough : ∀ frames, (t.failThrough fault frames).sources = t.sources ∧
      (t.failThrough fault frames).names = t.names ∧
      (t.failThrough fault frames).registrations = t.registrations := by
    intro frames
    induction frames with
    | nil => exact ⟨rfl, rfl, rfl⟩
    | cons f frames ih =>
        cases f with
        | telling rest => exact ⟨rfl, rfl, rfl⟩
        | acting rest fails => exact ih
        | registering registration => exact ih
  obtain ⟨hsources, hnames, hregistrations⟩ := hthrough t.stack
  exact .of_eq (congrArg Keyed.keys hsources) hnames hregistrations

theorem withNamed_keeps {α : Type} (meanings : Keyed ρ α) (name : ρ) {f : α → Tokens σ ω ρ}
    {d : α → Deed σ ω} (h : ∀ a, t.Keeps (f a) (d a)) :
    t.Keeps (t.withNamed meanings name f) (match meanings.get? name with
      | some a => d a
      | none => .rests) := by
  unfold withNamed
  cases meanings.get? name with
  | some a => exact h a
  | none => exact t.fail_keeps _

theorem startCancel_keeps (t : Tokens σ ω ρ) (id : σ) : t.Keeps (t.startCancel id) d := by
  obtain ⟨hkeys, hnames, hregistrations⟩ := t.startCancel_same id
  exact .of_eq hkeys hnames hregistrations

theorem createNamed_keeps (t : Tokens σ ω ρ) (users : Users σ ω ρ) (name : ρ)
    (parent : Option (Followed σ)) (p : Option σ) :
    t.Keeps (t.createNamed users name parent) (.makes (users.source t.sources.length) p) := by
  obtain ⟨hkeys, hnames, hregistrations⟩ := t.create_same (users.source t.sources.length) parent
  refine ⟨.inr ⟨_, p, rfl, hkeys⟩, fun other id h => ?_, fun registration id callback h => .inl ?_⟩
  · change ((t.create _ parent).names.put name _).get? other = some id at h
    rw [hnames, Keyed.get?_put] at h
    split at h
    · cases h
      exact .inr ⟨p, rfl⟩
    · exact .inl h
  · rw [← hregistrations]
    exact h

/-- A registration that is settled holds nothing any more. -/
theorem Keeps.settled (keys : t'.sources.keys = t.sources.keys) (names : t'.names = t.names)
    {registration : ρ} (registrations : t'.registrations = t.registrations.put registration none) :
    t.Keeps t' d := by
  refine ⟨.inl keys, fun name id h => .inl (by rwa [names] at h), fun other id callback h => ?_⟩
  rw [registrations, Keyed.get?_put] at h
  split at h
  · cases h
  · exact .inl h

theorem register_keeps (t : Tokens σ ω ρ) (behave : ω → Behaviour ω ρ) (id : σ) (registration : ρ)
    (callback : ω) :
    t.Keeps (t.register behave (.source id) registration callback) (.registers id callback) := by
  unfold register
  simp only
  split
  · exact .of_eq rfl rfl rfl
  · refine ⟨.inl (keys_addListener _ _ _), fun _ _ h => .inl h, fun other id' callback' h => ?_⟩
    change (t.registrations.put registration _).get? other = _ at h
    rw [Keyed.get?_put] at h
    split at h
    · cases h
      exact .inr rfl
    · exact .inl h

variable [DecidableEq ω]

theorem detach_keeps (t : Tokens σ ω ρ) (id : σ) : t.Keeps (t.detach id) d := by
  unfold detach
  split
  · exact .of_eq rfl rfl rfl
  · refine .of_eq ?_ rfl rfl
    simp only [keys_removeListener, Keyed.keys_change]

theorem unregister_keeps (t : Tokens σ ω ρ) (registration : ρ) :
    t.Keeps (t.unregister registration) d := by
  unfold unregister
  split
  · exact t.fail_keeps _
  · exact .of_eq rfl rfl rfl
  · exact .settled (keys_removeListener _ _ _) rfl rfl

theorem act_keeps (t : Tokens σ ω ρ) (users : Users σ ω ρ) (a : Action ω ρ) :
    t.Keeps (t.act users a) (t.deed users a) := by
  cases a with
  | create name parent =>
      match parent with
      | none => exact t.createNamed_keeps users name none none
      | some .never => exact t.createNamed_keeps users name (some .never) none
      | some (.source p) =>
          exact withNamed_keeps t.names p fun id => t.createNamed_keeps users name _ (some id)
  | cancel name => exact withNamed_keeps t.names name fun id => t.startCancel_keeps id
  | detach name => exact withNamed_keeps t.names name fun id => t.detach_keeps id
  | subscribe followed registration callback =>
      cases followed with
      | never => exact .settled rfl rfl rfl
      | source name =>
          refine withNamed_keeps t.names name fun id => ?_
          have hkeeps := register_keeps { t with subscriptions := t.subscriptions + 1 } users.behave id
            registration (users.callback callback t.subscriptions)
          exact ⟨hkeeps.keys, hkeeps.names, hkeeps.registrations⟩
  | subscribeAgain followed registration earlier =>
      cases followed with
      | never =>
          change t.Keeps (t.withNamed t.callbacks earlier _) .rests
          unfold withNamed
          cases t.callbacks.get? earlier with
          | some callback => exact .settled rfl rfl rfl
          | none => exact t.fail_keeps _
      | source name =>
          refine withNamed_keeps t.names name fun id => ?_
          exact withNamed_keeps t.callbacks earlier fun callback => t.register_keeps _ id _ callback
  | unsubscribe registration => exact t.unregister_keeps registration

theorem step_keeps (t : Tokens σ ω ρ) (users : Users σ ω ρ) :
    t.Keeps (t.step users) (t.nextDeed users) := by
  obtain ⟨sources, names, callbacks, registrations, subscriptions, stack, told, contained, failed⟩ := t
  have hstack (stack' : List (Frame σ ω ρ)) {t' : Tokens σ ω ρ} {d : Deed σ ω}
      (h : Keeps ⟨sources, names, callbacks, registrations, subscriptions, stack', told, contained,
        failed⟩ t' d) :
      Keeps ⟨sources, names, callbacks, registrations, subscriptions, stack, told, contained, failed⟩
        t' d := ⟨h.keys, h.names, h.registrations⟩
  match stack with
  | [] => exact .of_eq rfl rfl rfl
  | .telling [] :: frames => exact .of_eq rfl rfl rfl
  | .telling (.source id :: rest) :: frames => exact hstack _ (startCancel_keeps _ id)
  | .telling (.callback c :: rest) :: frames => exact .of_eq rfl rfl rfl
  | .acting [] false :: frames => exact .of_eq rfl rfl rfl
  | .acting [] true :: frames => exact hstack _ (fail_keeps _ _)
  | .acting (a :: rest) fails :: frames => exact hstack _ (act_keeps _ users a)
  | .registering registration :: frames => exact .settled rfl rfl rfl

end Tokens

/-- What a user brings along, and does at a time if nothing is under way. -/
structure Script (σ ω ρ : Type) where
  users : Users σ ω ρ
  action : Nat → Action ω ρ

namespace Script

variable {σ ω ρ : Type} [DecidableEq σ] [DecidableEq ω] [DecidableEq ρ]

/-- The tokens after the first `t` turns. -/
def tokens (s : Script σ ω ρ) : Nat → Tokens σ ω ρ
  | 0 => {}
  | t + 1 =>
    match (s.tokens t).stack with
    | [] => (s.tokens t).act s.users (s.action t)
    | _ => (s.tokens t).step s.users

/-- Nothing is under way. -/
def Rests (s : Script σ ω ρ) (t : Nat) : Prop :=
  (s.tokens t).stack = []

instance (s : Script σ ω ρ) (t : Nat) : Decidable (s.Rests t) :=
  inferInstanceAs (Decidable ((s.tokens t).stack = []))

/-- What turn `t` comes to. -/
def deed (s : Script σ ω ρ) (t : Nat) : Deed σ ω :=
  match (s.tokens t).stack with
  | [] => (s.tokens t).deed s.users (s.action t)
  | _ => (s.tokens t).nextDeed s.users

/-- What the user does at time `t` has come to its end at time `u`. -/
structure Returns (s : Script σ ω ρ) (t u : Nat) : Prop where
  past : t < u
  rests : s.Rests u
  busy : ∀ v, t < v → v < u → ¬ s.Rests v

variable {s : Script σ ω ρ} {t u : Nat}

theorem tokens_rests (h : s.Rests t) :
    s.tokens (t + 1) = (s.tokens t).act s.users (s.action t) ∧
      s.deed t = (s.tokens t).deed s.users (s.action t) := by
  unfold Rests at h
  rw [tokens, deed, h]
  exact ⟨rfl, rfl⟩

theorem tokens_busy (h : ¬ s.Rests t) :
    s.tokens (t + 1) = (s.tokens t).step s.users ∧ s.deed t = (s.tokens t).nextDeed s.users := by
  unfold Rests at h
  rw [tokens, deed]
  cases hstack : (s.tokens t).stack with
  | nil => exact absurd hstack h
  | cons f frames => exact ⟨rfl, rfl⟩

theorem due_rests (h : s.Rests t) : (s.tokens t).due = [] := by
  unfold Rests at h
  unfold Tokens.due
  rw [h]

theorem waiting_rests (h : s.Rests t) : (s.tokens t).ledger.waiting = [] := by
  unfold Rests at h
  unfold Tokens.ledger
  rw [h]
  rfl

theorem ledger_succ (s : Script σ ω ρ) (t : Nat) :
    (s.tokens (t + 1)).ledger = (s.tokens t).begun.after (s.deed t) := by
  by_cases h : s.Rests t
  · obtain ⟨htokens, hdeed⟩ := tokens_rests h
    rw [htokens, hdeed, Tokens.act_ledger]
    unfold Tokens.begun
    rw [due_rests h]
    rfl
  · obtain ⟨htokens, hdeed⟩ := tokens_busy h
    rw [htokens, hdeed, Tokens.step_ledger]

theorem keeps_succ (s : Script σ ω ρ) (t : Nat) :
    (s.tokens t).Keeps (s.tokens (t + 1)) (s.deed t) := by
  by_cases h : s.Rests t
  · obtain ⟨htokens, hdeed⟩ := tokens_rests h
    rw [htokens, hdeed]
    exact Tokens.act_keeps _ _ _
  · obtain ⟨htokens, hdeed⟩ := tokens_busy h
    rw [htokens, hdeed]
    exact Tokens.step_keeps _ _

theorem deed_of_due {listener : Listener σ ω} (h : listener ∈ (s.tokens t).due) :
    s.deed t = listener.deed := by
  by_cases hrests : s.Rests t
  · rw [due_rests hrests] at h
    cases h
  · rw [(tokens_busy hrests).2]
    exact Tokens.deed_of_due s.users h

/-! ## What holds at any time -/

theorem behaves (s : Script σ ω ρ) (t : Nat) : (s.tokens t).Behaves s.users := by
  induction t with
  | zero =>
      intro rest fails hmem
      cases hmem
  | succ t ih =>
      by_cases h : s.Rests t
      · rw [(tokens_rests h).1]
        exact ih.act _
      · rw [(tokens_busy h).1]
        exact ih.step

/-- A listener has its turn, or the user or a callback acts, or what is under way goes on. -/
theorem deed_cases (s : Script σ ω ρ) (t : Nat) :
    (∃ listener, (s.tokens t).due = [listener] ∧ s.deed t = listener.deed) ∨
      (s.tokens t).due = [] ∧ (s.deed t = .rests ∨
        ∃ a, (s.Rests t ∧ a = s.action t ∨ ¬ s.Rests t ∧ ∃ c, a ∈ (s.users.behave c).actions) ∧
          (s.tokens t).ComesTo s.users a (s.deed t)) := by
  by_cases h : s.Rests t
  · rw [(tokens_rests h).2]
    exact .inr ⟨due_rests h, .inr ⟨_, .inl ⟨h, rfl⟩, Tokens.comesTo _ _ _⟩⟩
  · rw [(tokens_busy h).2]
    unfold Tokens.nextDeed
    have hdue {k : Tokens σ ω ρ} {stack : List (Frame σ ω ρ)} (hstack : k.stack = stack) :
        k.due = ({ k with stack := stack } : Tokens σ ω ρ).due := by rw [← hstack]
    split
    · rename_i listener rest frames hstack
      exact .inl ⟨listener, hdue hstack, rfl⟩
    · rename_i a rest fails frames hstack
      obtain ⟨c, hc⟩ := s.behaves t (a :: rest) fails (hstack ▸ List.mem_cons_self)
      exact .inr ⟨hdue hstack, .inr ⟨a, .inr ⟨h, c, hc a List.mem_cons_self⟩, Tokens.comesTo _ _ _⟩⟩
    · rename_i hlistener _
      refine .inr ⟨?_, .inl rfl⟩
      unfold Tokens.due
      split
      · rename_i listener rest frames hstack
        exact absurd hstack (hlistener listener rest frames)
      · rfl

theorem deed_makes {id : σ} {p : Option σ} (h : s.deed t = .makes id p) :
    id = s.users.source (s.tokens t).sources.length ∧
      ∀ q, p = some q → ∃ name, (s.tokens t).names.get? name = some q := by
  rcases s.deed_cases t with ⟨listener, -, hd⟩ | ⟨-, hd | ⟨a, -, hcomes⟩⟩
  · cases listener <;> cases h.symm.trans hd
  · cases h.symm.trans hd
  · rw [h] at hcomes
    cases hcomes with
    | makes name followed parent hparent => exact ⟨rfl, hparent⟩

/-- The sources are those that have been made, in their order. -/
theorem keys_eq (distinct : Function.Injective s.users.source) (t : Nat) :
    (s.tokens t).sources.keys =
      (List.range (s.tokens t).sources.length).map s.users.source := by
  induction t with
  | zero => rfl
  | succ t ih =>
      have hlength (k : Tokens σ ω ρ) : k.sources.keys.length = k.sources.length := List.length_map _
      rcases (s.keeps_succ t).keys with hkeys | ⟨id, p, hdeed, hkeys⟩
      · rw [← hlength, hkeys, hlength, ih]
      · obtain rfl := (deed_makes hdeed).1
        have hnew : (s.tokens t).sources.has (s.users.source (s.tokens t).sources.length) = false := by
          rw [Keyed.has_eq_false_iff, ← Option.not_isSome_iff_eq_none, Option.isSome_iff_exists]
          intro hknown
          have hmem := (Tokens.knows_iff (s.tokens t) _).1 hknown
          rw [ih] at hmem
          obtain ⟨m, hm, heq⟩ := List.mem_map.1 hmem
          exact absurd (distinct heq) (Nat.ne_of_lt (List.mem_range.1 hm))
        rw [← hlength, hkeys, Keyed.keys_put, hnew]
        simp only [Bool.false_eq_true, if_false]
        rw [List.length_append, hlength, List.length_singleton, List.range_succ, List.map_append, ← ih]
        rfl

/-- A source that is made is a new one. -/
theorem fresh (distinct : Function.Injective s.users.source) {id : σ} {p : Option σ}
    (h : s.deed t = .makes id p) : ¬ (s.tokens t).ledger.Knows id := by
  rw [Tokens.knows_iff, keys_eq distinct, (deed_makes h).1]
  intro hmem
  obtain ⟨m, hm, heq⟩ := List.mem_map.1 hmem
  exact absurd (distinct heq) (Nat.ne_of_lt (List.mem_range.1 hm))

/-- A name stands for a source that has been made. -/
theorem named (s : Script σ ω ρ) {name : ρ} {id : σ} (h : (s.tokens t).names.get? name = some id) :
    (s.tokens t).ledger.Knows id := by
  induction t generalizing name id with
  | zero => cases h
  | succ t ih =>
      rw [ledger_succ, Ledger.knows_after]
      rcases (s.keeps_succ t).names name id h with hbefore | hmade
      · exact .inl (ih hbefore)
      · exact .inr hmade

end Script

end Shellwright.Cancellation
