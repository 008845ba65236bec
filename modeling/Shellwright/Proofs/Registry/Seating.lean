import Shellwright.Proofs.Registry.Claiming
import Shellwright.Proofs.Registry.Serial
/-!
# The lock and the calls

The lock is with a call that claims the registry, and those that wait for it are queued. When all calls
that are under way only read, the lock is free.
-/

namespace Shellwright.Registry

/-- The holder of the lock and the calls that wait for it are under way. -/
structure Seated (r : Registry) : Prop where
  holder : ∀ key, r.lock.holder = some key → r.Claims key
  waiting : ∀ key ∈ r.lock.waiting, ∃ request, r.calls.get? key = some ⟨.queued request, false⟩
  apart : ∀ key, r.lock.holder = some key → key ∉ r.lock.waiting
  distinct : r.lock.waiting.Nodup
  free : r.lock.holder = none → r.lock.waiting = []

variable {r r' r₁ core : Registry} {e : Event} {key : CallKey} {ls : List Event}
  {as : List Inquiry} {fs : List (CallKey × Outcome Reply)}

/-- Nobody holds the lock and nobody waits for it. -/
theorem Seated.unclaimed (lock : r.lock = ⟨none, []⟩) : r.Seated := by
  refine ⟨?_, ?_, ?_, ?_, ?_⟩
  · rw [lock]
    nofun
  · rw [lock]
    nofun
  · rw [lock]
    nofun
  · rw [lock]
    exact List.nodup_nil
  · rw [lock]
    exact fun _ => rfl

theorem Seated.start : Seated {} :=
  .unclaimed rfl

/-- The lock is as it was, and so are all calls but one that does not wait for it. -/
theorem Seated.aside (h : r.Seated) (lock : r'.lock = r.lock)
    (others : ∀ k, k ≠ key → r'.calls.get? k = r.calls.get? k) (unqueued : key ∉ r.lock.waiting)
    (claims : r.lock.holder = some key → r'.Claims key) : r'.Seated where
  holder k hk := by
    rw [lock] at hk
    by_cases hkey : k = key
    · subst hkey
      exact claims hk
    · obtain ⟨c, hcall, hreads⟩ := h.holder k hk
      exact ⟨c, (others k hkey).trans hcall, hreads⟩
  waiting k hk := by
    rw [lock] at hk
    obtain ⟨request, hcall⟩ := h.waiting k hk
    exact ⟨request, (others k fun heq => unqueued (heq ▸ hk)).trans hcall⟩
  apart := by
    rw [lock]
    exact h.apart
  distinct := by
    rw [lock]
    exact h.distinct
  free := by
    rw [lock]
    exact h.free

theorem Seated.same (h : r.Seated) (lock : r'.lock = r.lock) (calls : r'.calls = r.calls) :
    r'.Seated where
  holder k hk := (h.holder k (lock ▸ hk)).imp fun c hc => ⟨by rw [calls]; exact hc.1, hc.2⟩
  waiting k hk := by
    rw [calls]
    exact h.waiting k (lock ▸ hk)
  apart := by
    rw [lock]
    exact h.apart
  distinct := by
    rw [lock]
    exact h.distinct
  free := by
    rw [lock]
    exact h.free

/-- A call is over that does not wait for the lock; the first that waits follows it if it held the
lock. -/
theorem Seated.without (h : r.Seated) (lock : r'.lock = r.lock.leave key)
    (calls : r'.calls = r.calls.drop key) (unqueued : key ∉ r.lock.waiting) : r'.Seated := by
  have hothers (k : CallKey) (hk : k ≠ key) : r'.calls.get? k = r.calls.get? k := by
    rw [calls]
    exact (Keyed.get?_drop _ _ _).trans (if_neg hk)
  by_cases hholder : r.lock.holder = some key
  · have hqueued (k : CallKey) (hk : k ∈ r.lock.waiting) :
        ∃ request, r'.calls.get? k = some ⟨.queued request, false⟩ := by
      obtain ⟨request, hcall⟩ := h.waiting k hk
      exact ⟨request, (hothers k fun heq => unqueued (heq ▸ hk)).trans hcall⟩
    rw [Lock.leave, if_pos hholder] at lock
    cases hwaiting : r.lock.waiting with
    | nil =>
        rw [hwaiting] at lock
        exact .unclaimed lock
    | cons next rest =>
        have hdistinct := h.distinct
        rw [hwaiting] at lock hqueued hdistinct
        obtain ⟨hnext, hrest⟩ := List.nodup_cons.1 hdistinct
        refine ⟨?_, ?_, ?_, ?_, ?_⟩
        · rw [lock]
          rintro k ⟨⟩
          obtain ⟨request, hcall⟩ := hqueued next List.mem_cons_self
          exact ⟨_, hcall, rfl⟩
        · rw [lock]
          exact fun k hk => hqueued k (List.mem_cons_of_mem _ hk)
        · rw [lock]
          rintro k ⟨⟩
          exact hnext
        · rw [lock]
          exact hrest
        · rw [lock]
          rintro ⟨⟩
  · rw [Lock.leave, if_neg hholder] at lock
    exact h.aside lock hothers unqueued fun hk => absurd hk hholder

/-! ## Calls that begin -/

/-- The call has begun and claims the registry, or it is over at once. -/
inductive Settles (r : Registry) (key : CallKey) (r' : Registry) : Prop
  | claims (c : Call) (stage : c.stage.reads = false) (lock : r'.lock = r.lock)
      (calls : r'.calls = r.calls.put key c)
  | ended (lock : r'.lock = r.lock.leave key) (calls : r'.calls = r.calls.drop key)

theorem Leaves.settles {c : Call} (h : r'.Leaves (r.setCall key c) ls as fs)
    (stage : c.stage.reads = false) : Settles r key r' :=
  .claims c stage h.lock h.calls

theorem settle_lock (r : Registry) (purpose : ProbePurpose) (probes : List (String × Progress Bool)) :
    (r.settle purpose probes).lock = r.lock := by
  cases purpose <;> rfl

theorem startProbes_settles (h : r₁.Leaves r [] [] []) (purpose : ProbePurpose)
    (names : List String) : Settles r key (r₁.startProbes key purpose names) := by
  unfold startProbes
  split
  · obtain ⟨reply, hleaves⟩ := completeProbes_leaves h key purpose []
    refine .ended (hleaves.lock.trans ?_) (hleaves.calls.trans ?_)
    · rw [without, settle_lock]
    · rw [without, settle_calls]
  · exact ((h.setCall key _).begins key (List.range names.length)).settles rfl

theorem enter_settles (h : r₁.Leaves r [] [] []) {request : Request} (locks : request.locks = true) :
    Settles r key (r₁.enter key request) := by
  cases request with
  | activate name =>
      simp only [enter]
      split
      · have hfinish : Leaves ((r₁.unknownPlugin name).finish key (.done (.flag false))) _ _ _ _ :=
          (h.log .warning _).finish key (.done (.flag false))
        exact .ended hfinish.lock hfinish.calls
      · exact ((h.setCall key ⟨.activating name, false⟩).ask key 0 _ .available).settles rfl
  | activateAll names => exact startProbes_settles h _ _
  | reactivate names => exact startProbes_settles h _ _
  | replace plugins names => exact startProbes_settles h _ _
  | _ => cases locks

theorem Seated.settles (h : r.Seated) (unqueued : key ∉ r.lock.waiting) (settles : Settles r key r') :
    r'.Seated := by
  cases settles with
  | claims c stage lock calls =>
      refine h.aside lock ?_ unqueued fun _ => ⟨c, ?_, stage⟩
      · intro k hk
        rw [calls]
        exact Keyed.get?_put_of_ne c hk
      · rw [calls]
        exact Keyed.get?_put_self _ _ _
  | ended lock calls => exact h.without lock calls unqueued

theorem Seated.reads (h : r.Seated) (reads : Reads r key r') (unqueued : key ∉ r.lock.waiting)
    (unclaimed : ¬r.Claims key) : r'.Seated := by
  cases reads with
  | idle leaves => exact h.same leaves.lock leaves.calls
  | goes c ls as stage later asked leaves =>
      refine h.aside leaves.lock (fun k hk => ?_) unqueued fun hholder =>
        absurd (h.holder key hholder) unclaimed
      rw [leaves.calls]
      exact Keyed.get?_put_of_ne c hk
  | ends outcome leaves => exact h.without leaves.lock leaves.calls unqueued

theorem Seated.unqueued (h : r.Seated) (absent : r.calls.get? key = none) :
    key ∉ r.lock.waiting := by
  intro hmem
  obtain ⟨request, hcall⟩ := h.waiting key hmem
  rw [absent] at hcall
  cases hcall

theorem Seated.acquire (h : r.Seated) (leaves : r₁.Leaves r [] [] []) {request : Request}
    (locks : request.locks = true) (absent : r.calls.get? key = none) :
    (r₁.acquire key request).Seated := by
  have hunqueued := h.unqueued absent
  unfold Registry.acquire
  rw [leaves.lock]
  split
  · have htaken : Leaves { r₁ with lock := ⟨some key, []⟩ } { r with lock := ⟨some key, []⟩ }
        [] [] [] :=
      ⟨leaves.plugins, leaves.active, rfl, leaves.calls, leaves.laters, leaves.asks, leaves.finishes⟩
    -- Nobody holds the lock and nobody waits for it.
    have hsettles : Settles _ key _ := enter_settles htaken locks
    cases hsettles with
    | claims c stage lock calls =>
        have hcall : ({ r₁ with lock := ⟨some key, []⟩ }.enter key request).calls.get? key = some c := by
          rw [calls]
          exact Keyed.get?_put_self _ _ _
        refine ⟨?_, ?_, ?_, ?_, ?_⟩
        · rw [lock]
          rintro k ⟨⟩
          exact ⟨c, hcall, stage⟩
        · rw [lock]
          rintro k ⟨⟩
        · rw [lock]
          rintro k _ ⟨⟩
        · rw [lock]
          exact List.nodup_nil
        · rw [lock]
          rintro ⟨⟩
    | ended lock calls =>
        rw [Lock.leave, if_pos rfl] at lock
        exact .unclaimed lock
  · rename_i hbusy
    have hcalls (k : CallKey) (hk : k ≠ key) :
        (r₁.calls.put key ⟨.queued request, false⟩).get? k = r.calls.get? k := by
      rw [Keyed.get?_put_of_ne _ hk, leaves.calls]
    refine ⟨fun k hk => ?_, fun k hk => ?_, fun k hk hmem => ?_, ?_, fun hk => ?_⟩
    · obtain ⟨c, hcall, hreads⟩ := h.holder k hk
      refine ⟨c, (hcalls k ?_).trans hcall, hreads⟩
      rintro rfl
      rw [absent] at hcall
      cases hcall
    · rcases List.mem_append.1 hk with hmem | hmem
      · obtain ⟨request', hcall⟩ := h.waiting k hmem
        exact ⟨request', (hcalls k fun heq => hunqueued (heq ▸ hmem)).trans hcall⟩
      · obtain rfl := List.mem_singleton.1 hmem
        exact ⟨request, Keyed.get?_put_self _ _ _⟩
    · rcases List.mem_append.1 hmem with hmem | hmem
      · exact h.apart k hk hmem
      · obtain rfl := List.mem_singleton.1 hmem
        obtain ⟨c, hcall, -⟩ := h.holder k hk
        rw [absent] at hcall
        cases hcall
    · refine List.nodup_append.2 ⟨h.distinct, by simp, ?_⟩
      intro k hk k' hk' heq
      obtain rfl := List.mem_singleton.1 hk'
      exact hunqueued (heq ▸ hk)
    · change r.lock.holder = none at hk
      rw [hk] at hbusy
      exact absurd rfl hbusy

theorem Seated.call (h : r.Seated) (calm : r.outbox = []) (buffers : Buffers) (request : Request)
    (absent : r.calls.get? key = none) : (r.step buffers (.call key request)).Seated := by
  have hstart := Leaves.start calm
  cases request with
  | activate name => exact h.acquire hstart rfl absent
  | activateAll names => exact h.acquire hstart rfl absent
  | reactivate names => exact h.acquire hstart rfl absent
  | replace plugins names => exact h.acquire (freshPlugins_leaves hstart [] plugins) rfl absent
  | available => exact h.settles (h.unqueued absent) (startProbes_settles hstart _ _)
  | check document options =>
      exact h.reads (call_reads calm buffers rfl) (h.unqueued absent) (not_claims_of_gone absent)
  | format document options =>
      exact h.reads (call_reads calm buffers rfl) (h.unqueued absent) (not_claims_of_gone absent)

/-! ## Calls under way -/

/-- A call that waits for the lock gives up its place. -/
theorem Seated.withdraw (h : r.Seated) (lock : r'.lock =
      ({ r.lock with waiting := r.lock.waiting.filter (· != key) } : Lock).leave key)
    (calls : r'.calls = r.calls.drop key) : r'.Seated := by
  have hsub : (r.lock.waiting.filter (· != key)).Sublist r.lock.waiting := List.filter_sublist
  have hkept : Seated { r with
      lock := { r.lock with waiting := r.lock.waiting.filter (· != key) } } :=
    ⟨h.holder, fun k hk => h.waiting k (hsub.subset hk), fun k hk hmem => h.apart k hk (hsub.subset hmem),
      h.distinct.sublist hsub, fun hk => by rw [h.free hk]; rfl⟩
  exact hkept.without lock calls (by simp)

/-- An event of a call that waits for the lock, and to which the lock has not come. -/
theorem step_waiting (buffers : Buffers) {request : Request}
    (call : r.calls.get? key = some ⟨.queued request, false⟩) (event : e.key? = some key)
    (old : ∀ request, e ≠ .call key request) (waits : e ≠ .granted key) (kept : e ≠ .abort key) :
    r.step buffers e = r := by
  cases e with
  | stopped k i =>
      cases event
      simp [step, withCall, call]
  | abort k =>
      cases event
      exact absurd rfl kept
  | call k request' =>
      cases event
      exact absurd rfl (old request')
  | register p => cases event
  | unregister name => cases event
  | clear => cases event
  | deactivate name => cases event
  | deactivateAll => cases event
  | _ => exact step_queued buffers call event rfl old waits

theorem Goes.seated (h : r.Seated) (goes : Goes r e key r') (unqueued : key ∉ r.lock.waiting)
    (old : ∀ request, e ≠ .call key request) : r'.Seated := by
  have hset {c : Call} {ls : List Event} {as : List Inquiry}
      (leaves : r'.Leaves (r.setCall key c) ls as [])
      (stage : r.lock.holder = some key → c.stage.reads = false) : r'.Seated := by
    refine h.aside leaves.lock (fun k hk => ?_) unqueued fun hk => ⟨c, ?_, stage hk⟩
    · rw [leaves.calls]
      exact Keyed.get?_put_of_ne c hk
    · rw [leaves.calls]
      exact Keyed.get?_put_self _ _ _
  cases goes with
  | activating name p starts holds found leaves => exact hset leaves fun _ => rfl
  | probing purpose names starts holds distinct suits leaves => exact hset leaves fun _ => rfl
  | asking i purpose probes name progress p event call part found leaves => exact hset leaves fun _ => rfl
  | settling i c purpose probes name progress ok event call stage part leaves =>
      exact hset leaves fun _ => rfl
  | marking c event call leaves =>
      refine hset leaves fun hholder => ?_
      obtain ⟨c', hcall, hreads⟩ := h.holder key hholder
      cases call.symm.trans hcall
      exact hreads
  | reading c ls as stage since later asked leaves =>
      refine hset leaves fun hholder => ?_
      rcases since with ⟨request, heq⟩ | ⟨c₀, hcall, hreads⟩
      · exact absurd heq (old request)
      · exact absurd (h.holder key hholder) (not_claims_of_reads hcall hreads)
  | activated i c name event call stage leaves => exact h.without leaves.lock leaves.calls unqueued
  | completing purpose probes reply event leaves =>
      refine h.without (leaves.lock.trans ?_) (leaves.calls.trans ?_) unqueued
      · rw [Registry.without, settle_lock]
      · rw [Registry.without, settle_calls]
  | ending outcome leaves => exact h.without leaves.lock leaves.calls unqueued

theorem altered_lock (event : r.altered e = some core) : core.lock = r.lock := by
  cases e with
  | register p =>
      cases event
      rfl
  | unregister name =>
      cases event
      split <;> rfl
  | clear =>
      cases event
      rfl
  | deactivate name =>
      cases event
      rfl
  | deactivateAll =>
      cases event
      rfl
  | _ => cases event

theorem Seated.step (h : r.Seated) (calm : r.outbox = []) (buffers : Buffers)
    (new : ∀ key request, e = .call key request → r.calls.get? key = none)
    (granted : ∀ key c, e = .granted key → r.calls.get? key = some c →
      r.lock.holder = some key) : (r.step buffers e).Seated := by
  by_cases hnew : ∃ key request, e = .call key request
  · obtain ⟨key, request, rfl⟩ := hnew
    exact h.call calm buffers request (new key request rfl)
  have hold (key : CallKey) (request : Request) : e ≠ .call key request :=
    fun heq => hnew ⟨key, request, heq⟩
  -- An event of a call that waits can only take it out of the queue.
  by_cases hwaits : ∃ key ∈ r.lock.waiting, e.key? = some key
  · obtain ⟨key, hmem, hkey⟩ := hwaits
    obtain ⟨request, hcall⟩ := h.waiting key hmem
    by_cases habort : e = .abort key
    · subst habort
      have hlock := (Leaves.start calm).withLock
        { r.lock with waiting := r.lock.waiting.filter (· != key) }
      have hleaves := hlock.finish key .aborted
      simp only [Registry.step, withCall, hcall, Registry.abort]
      exact h.withdraw hleaves.lock hleaves.calls
    · rw [step_waiting buffers hcall hkey (hold key) ?_ habort]
      · exact h
      · rintro rfl
        exact h.apart key (granted key _ rfl hcall) hmem
  · have hunqueued (key : CallKey) (hkey : e.key? = some key) : key ∉ r.lock.waiting :=
      fun hmem => hwaits ⟨key, hmem, hkey⟩
    cases step_reacts calm buffers e with
    | changed core event leaves =>
        exact h.same (leaves.lock.trans (altered_lock event)) (leaves.calls.trans (altered_calls event))
    | idle leaves => exact h.same leaves.lock leaves.calls
    | queued key request held event busy leaves => exact absurd event (hold key request)
    | enters key request event free goes => exact absurd event (hold key request)
    | goes key goes about => exact goes.seated h (hunqueued key about) (hold key)
    | withdrawn key event leaves =>
        subst event
        exact h.withdraw leaves.lock leaves.calls

/-! ## Registries in which no call claims anything -/

theorem Seated.unlocked (h : r.Seated) (unclaimed : ∀ key, ¬r.Claims key) :
    r.lock = ⟨none, []⟩ := by
  have hholder : r.lock.holder = none := by
    cases hholder : r.lock.holder with
    | none => rfl
    | some key => exact absurd (h.holder key hholder) (unclaimed key)
  have hwaiting := h.free hholder
  generalize r.lock = lock at hholder hwaiting
  obtain ⟨holder, waiting⟩ := lock
  cases hholder
  cases hwaiting
  rfl

namespace World

variable {may : Plugin → Bool → Prop} {w : World} {os : List Replacement}

/-- No replacement is under way where all calls only read. -/
theorem Orderly.line (h : w.Orderly) (seated : w.registry.Seated)
    (unclaimed : ∀ key, ¬w.registry.Claims key) : w.Line may [] where
  orderly := h
  lock := seated.unlocked unclaimed
  distinct := List.nodup_nil
  front _ ho := nomatch ho
  rear _ ho := nomatch ho
  others key c hcall := by
    cases hreads : c.stage.reads with
    | true => exact .inl rfl
    | false => exact absurd ⟨c, hcall, hreads⟩ (unclaimed key)

/-- No replacement of the line is being called off. -/
theorem Line.aborting_of_mem (h : w.Line may os) {o : Replacement} (mem : o ∈ os) {c : Call}
    (call : w.registry.calls.get? o.key = some c) : c.aborting = false := by
  have hfirst : w.Waits o ∨ ∃ probes, Asks may w o probes := by
    cases os with
    | nil => cases mem
    | cons first rest =>
        rcases List.mem_cons.1 mem with rfl | hrest
        · exact h.front o rfl
        · exact .inl (h.rear o hrest)
  rcases hfirst with hwaits | ⟨probes, hasks⟩
  · cases call.symm.trans hwaits.call
    rfl
  · cases call.symm.trans hasks.call
    rfl

/-- A plugin that stops leaves the line as it is. -/
theorem Line.stops (h : w.Line may os) (key : CallKey) (part : Nat) :
    Advances may w os (w.registry.step w.buffers (.stopped key part)) := by
  have hstart := Leaves.start h.orderly.outbox
  have horderly : (w.after (w.registry.step w.buffers (.stopped key part))).Orderly :=
    h.orderly.react (e := .stopped key part) trivial
  have hidle (hsame : w.registry.step w.buffers (.stopped key part) = w.registry) :
      Advances may w os (w.registry.step w.buffers (.stopped key part)) := by
    rw [hsame] at horderly ⊢
    exact h.idle hstart horderly
  cases hcall : w.registry.calls.get? key with
  | none => exact hidle (step_absent w.buffers rfl nofun hcall)
  | some c =>
      rcases h.others key c hcall with hreads | hmem
      · by_cases happart : key ∈ os.map Replacement.key
        · obtain ⟨o, ho, rfl⟩ := List.mem_map.1 happart
          obtain ⟨c', hcall', hclaims⟩ := h.call_of_mem ho
          cases hcall.symm.trans hcall'
          rw [hreads] at hclaims
          cases hclaims
        · exact h.aside (step_reads h.orderly.outbox w.buffers hcall hreads rfl nofun nofun) happart
            horderly
      · obtain ⟨o, ho, rfl⟩ := List.mem_map.1 hmem
        have hkept := h.aborting_of_mem ho hcall
        exact hidle (by simp [Registry.step, withCall, hcall, hkept])

end World

end Shellwright.Registry
