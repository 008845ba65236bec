import Shellwright.Proofs.Registry.Checking
/-!
# Which call a step concerns

An event is about one call at most. Its step leaves the other calls as they are, and a call that it ends
is gone.
-/

namespace Shellwright.Registry

/-- Only the call `key` has changed, and it is gone if it has ended. -/
structure Touches (r : Registry) (key : CallKey) (r' : Registry) : Prop where
  others : ∀ k, k ≠ key → r'.calls.get? k = r.calls.get? k
  ends : r'.finishes = [] ∨
    r'.calls.get? key = none ∧ ∃ outcome, r'.finishes = [(key, outcome)]

variable {r r' r₁ core : Registry} {e : Event} {key : CallKey} {ls : List Event}
  {as : List Inquiry}

theorem Leaves.touches (h : r'.Leaves r ls as []) : Touches r key r' where
  others k _ := by rw [h.calls]
  ends := .inl h.finishes

theorem Leaves.touches_setCall {c : Call} (h : r'.Leaves (core.setCall key c) ls as [])
    (calls : core.calls = r.calls) : Touches r key r' where
  others k hk := by
    rw [h.calls]
    change (core.calls.put key c).get? k = _
    rw [Keyed.get?_put_of_ne c hk, calls]
  ends := .inl h.finishes

theorem Leaves.touches_without {outcome : Outcome Reply}
    (h : r'.Leaves (core.without key) ls as [(key, outcome)]) (calls : core.calls = r.calls) :
    Touches r key r' where
  others k hk := by
    rw [h.calls]
    change (core.calls.drop key).get? k = _
    rw [Keyed.get?_drop, if_neg hk, calls]
  ends := by
    refine .inr ⟨?_, outcome, h.finishes⟩
    rw [h.calls]
    exact (Keyed.get?_drop core.calls key key).trans (if_pos rfl)

theorem settle_calls (r : Registry) (purpose : ProbePurpose)
    (probes : List (String × Progress Bool)) : (r.settle purpose probes).calls = r.calls := by
  cases purpose <;> rfl

theorem Goes.touches (goes : Goes r₁ e key r') (calls : r₁.calls = r.calls) : Touches r key r' := by
  cases goes with
  | activating name p starts holds found leaves => exact leaves.touches_setCall calls
  | probing purpose names starts holds distinct suits leaves => exact leaves.touches_setCall calls
  | asking i purpose probes name progress p event call part found leaves =>
      exact leaves.touches_setCall calls
  | settling i c purpose probes name progress ok event call stage part leaves =>
      exact leaves.touches_setCall calls
  | marking c event call leaves => exact leaves.touches_setCall calls
  | reading c ls as stage since later asked leaves => exact leaves.touches_setCall calls
  | activated i c name event call stage leaves => exact leaves.touches_without calls
  | completing purpose probes reply event leaves =>
      exact leaves.touches_without ((settle_calls r₁ purpose probes).trans calls)
  | ending outcome leaves => exact leaves.touches_without calls

theorem acquire_touches (h : r₁.Leaves r [] [] []) {request : Request}
    (locks : request.locks = true) : Touches r key (r₁.acquire key request) := by
  have hwaits (lock : Lock) : Leaves { r₁ with lock := lock } { r with lock := lock } [] [] [] :=
    ⟨h.plugins, h.active, rfl, h.calls, h.laters, h.asks, h.finishes⟩
  unfold acquire
  rw [h.lock]
  split
  · have hstarts : Starts { r with lock := ⟨some key, []⟩ } (.call key request) key :=
      .inl ⟨request, rfl⟩
    exact (enter_goes (hwaits ⟨some key, []⟩) locks hstarts (.inl rfl)).touches rfl
  · exact ((hwaits _).setCall key ⟨.queued request, false⟩).touches_setCall rfl

theorem call_touches (h : r.Leaves r [] [] []) (buffers : Buffers) (request : Request) :
    Touches r key (r.call buffers key request) := by
  cases request with
  | activate name => exact acquire_touches h rfl
  | activateAll names => exact acquire_touches h rfl
  | reactivate names => exact acquire_touches h rfl
  | replace plugins names => exact acquire_touches (freshPlugins_leaves h [] plugins) rfl
  | available =>
      have hstarts : Starts r (.call key .available) key := .inl ⟨_, rfl⟩
      exact (startProbes_goes h hstarts (.inl rfl) (.inl rfl) (suits_of_ne (by nofun) _)).touches rfl
  | check document options =>
      exact (startCheck_goes (e := .call key (.check document options)) h buffers document options
        ⟨_, rfl⟩).touches rfl
  | format document options =>
      exact (startFormat_goes (e := .call key (.format document options)) h buffers document options
        ⟨_, rfl⟩).touches rfl

theorem begin_touches (h : r.Leaves r [] [] []) (i : Nat) (c : Call) :
    Touches r key (r.begin key i c) := by
  unfold Registry.begin
  split
  · exact (h.finish key .aborted).touches_without rfl
  · split
    · split
      · exact h.touches
      · split
        · exact (settleProbe_leaves (h.log _ _) c _ _ i false).touches_setCall rfl
        · exact ((h.setCall key _).ask key i _ .available).touches_setCall rfl
    · split
      · exact h.touches
      · exact ((h.setCall key _).ask key i _ (.check _ _)).touches_setCall rfl
    · exact h.touches

theorem askFormatter_touches (h : r₁.Leaves r [] [] []) (document : String) (options : CallOptions)
    (collected : List Verdict) (plugins : List Plugin) :
    Touches r key (r₁.askFormatter key document options collected plugins) := by
  cases plugins with
  | nil => exact (h.finish key _).touches_without rfl
  | cons p rest =>
      exact ((h.setCall key _).ask key 0 p (.format document options)).touches_setCall rfl

theorem answered_touches (h : r.Leaves r [] [] []) (buffers : Buffers) (i : Nat) (c : Call)
    (a : Answer) : Touches r key (r.answered buffers key i c a) := by
  unfold Registry.answered
  split
  · exact h.touches
  · rename_i name _
    have hleaves := (availability_leaves h name a).1
    simp only
    split
    · exact ((hleaves.withActive _).finish key (.done (.flag true))).touches_without (r := r) rfl
    · exact (hleaves.finish key (.done (.flag false))).touches_without rfl
  · split
    · exact h.touches
    · rename_i name _ _
      exact (settleProbe_leaves (availability_leaves h name a).1 c _ _ i _).touches_setCall rfl
  · split
    · exact h.touches
    · rename_i document options parts _ _ p _ _
      have hset := (checkVerdict_leaves h buffers p document a).setCall key
        { c with stage := .checking document options
                  (setPart parts i (.settled (r.checkVerdict buffers p document a).2)) }
      simp only
      split
      · exact (hset.later (.gathered key)).touches_setCall rfl
      · exact hset.touches_setCall rfl
  · rename_i document options p rest collected _
    have hleaves := formatVerdict_leaves h buffers p document a
    unfold settleFormat
    simp only
    split
    · exact askFormatter_touches hleaves document options _ rest
    · exact (hleaves.finish key _).touches_without rfl

theorem gathered_touches (h : r.Leaves r [] [] []) (c : Call) : Touches r key (r.gathered key c) := by
  unfold Registry.gathered
  split
  · exact (h.finish key .aborted).touches_without rfl
  · split
    · rename_i purpose probes _
      obtain ⟨reply, hleaves⟩ := completeProbes_leaves h key purpose probes
      exact hleaves.touches_without (settle_calls r purpose probes)
    · exact (h.finish key _).touches_without rfl
    · exact h.touches

theorem abort_touches (h : r.Leaves r [] [] []) (c : Call) : Touches r key (r.abort key c) := by
  unfold Registry.abort
  split
  · have hlock := h.withLock { r.lock with waiting := r.lock.waiting.filter (· != key) }
    exact (hlock.finish key .aborted).touches_without rfl
  · exact ((h.setCall key { c with aborting := true }).quits key _).touches_setCall rfl

theorem withCall_touches (h : r.Leaves r [] [] []) {f : Call → Registry}
    (hf : ∀ c, r.calls.get? key = some c → Touches r key (f c)) :
    Touches r key (r.withCall key f) := by
  unfold withCall
  split
  · rename_i c call
    exact hf c call
  · exact h.touches

/-- A step leaves all calls as they are but the one that its event is about. -/
theorem step_touches (h : r.outbox = []) (buffers : Buffers) (event : e.key? = some key) :
    Touches r key (r.step buffers e) := by
  have hstart := Leaves.start h
  cases e with
  | call k request =>
      cases event
      exact call_touches hstart buffers request
  | granted k =>
      cases event
      refine withCall_touches hstart fun c call => ?_
      split
      · rename_i request hstage
        by_cases hlocks : request.locks = true
        · have hstarts : Starts r (.granted key) key := .inr ⟨rfl, c, request, call, hstage⟩
          exact (enter_goes hstart hlocks hstarts (.inr rfl)).touches rfl
        · rw [enter_of_not_locks (by simpa using hlocks)]
          exact hstart.touches
      · exact hstart.touches
  | begin k i =>
      cases event
      exact withCall_touches hstart fun c _ => begin_touches hstart i c
  | answered k i a =>
      cases event
      exact withCall_touches hstart fun c _ => answered_touches hstart buffers i c a
  | stopped k i =>
      cases event
      refine withCall_touches hstart fun c _ => ?_
      split
      · exact (hstart.finish key .aborted).touches_without rfl
      · exact hstart.touches
  | gathered k =>
      cases event
      exact withCall_touches hstart fun c _ => gathered_touches hstart c
  | abort k =>
      cases event
      exact withCall_touches hstart fun c _ => abort_touches hstart c
  | _ => cases event

/-- An event of a call that is not under way does nothing. -/
theorem step_absent (buffers : Buffers) (event : e.key? = some key)
    (old : ∀ request, e ≠ .call key request) (absent : r.calls.get? key = none) :
    r.step buffers e = r := by
  cases e with
  | call k request =>
      cases event
      exact absurd rfl (old request)
  | register p => cases event
  | unregister name => cases event
  | clear => cases event
  | deactivate name => cases event
  | deactivateAll => cases event
  | _ =>
      cases event
      simp only [step, withCall, absent]

theorem step_unkeyed (h : r.outbox = []) (buffers : Buffers) (event : e.key? = none) :
    (r.step buffers e).calls = r.calls ∧ (r.step buffers e).finishes = [] := by
  have haltered : ∃ core, r.altered e = some core := by
    cases e with
    | register p => exact ⟨_, rfl⟩
    | unregister name => exact ⟨_, rfl⟩
    | clear => exact ⟨_, rfl⟩
    | deactivate name => exact ⟨_, rfl⟩
    | deactivateAll => exact ⟨_, rfl⟩
    | _ => cases event
  obtain ⟨core, haltered⟩ := haltered
  have hleaves := altered_leaves (Leaves.start h) buffers haltered
  exact ⟨hleaves.calls.trans (altered_calls haltered), hleaves.finishes⟩

/-- A call is under way after a step only if it was so before or begins with the step. -/
theorem step_calls (h : r.outbox = []) (buffers : Buffers)
    (call : (r.step buffers e).calls.get? key ≠ none) :
    r.calls.get? key ≠ none ∨ ∃ request, e = .call key request := by
  refine Classical.byContradiction fun hnot => ?_
  obtain ⟨habsent, hold⟩ := not_or.1 hnot
  have habsent : r.calls.get? key = none := Classical.not_not.1 habsent
  have hold : ∀ request, e ≠ .call key request := fun request heq => hold ⟨request, heq⟩
  cases hkey : e.key? with
  | none =>
      rw [(step_unkeyed h buffers hkey).1] at call
      exact call habsent
  | some k =>
      by_cases hk : key = k
      · subst hk
        rw [step_absent buffers hkey hold habsent] at call
        exact call habsent
      · rw [(step_touches h buffers hkey).others key hk] at call
        exact call habsent

theorem step_gone (h : r.outbox = []) (buffers : Buffers)
    (old : ∀ request, e ≠ .call key request) (gone : r.calls.get? key = none) :
    (r.step buffers e).calls.get? key = none := by
  refine Classical.byContradiction fun hcall => ?_
  rcases step_calls h buffers hcall with hbefore | ⟨request, hnew⟩
  · exact hbefore gone
  · exact old request hnew

/-- A call that a step ends is gone; it was under way or began with the step. -/
theorem step_ends (h : r.outbox = []) (buffers : Buffers) {outcome : Outcome Reply}
    (ended : (key, outcome) ∈ (r.step buffers e).finishes) :
    (r.step buffers e).calls.get? key = none ∧
      (r.calls.get? key ≠ none ∨ ∃ request, e = .call key request) := by
  cases hkey : e.key? with
  | none =>
      rw [(step_unkeyed h buffers hkey).2] at ended
      cases ended
  | some k =>
      rcases (step_touches h buffers hkey).ends with hnone | ⟨hgone, o, hone⟩
      · rw [hnone] at ended
        cases ended
      · rw [hone] at ended
        cases List.mem_singleton.1 ended
        refine ⟨hgone, ?_⟩
        by_cases hnew : ∃ request, e = .call key request
        · exact .inr hnew
        · refine .inl fun habsent => ?_
          have hold : ∀ request, e ≠ .call key request := fun request heq => hnew ⟨request, heq⟩
          rw [step_absent buffers hkey hold habsent, (Leaves.start h).finishes] at hone
          cases hone

/-! ## Other calls -/

theorem granted_of_mem_grants {lock : Lock} {l : Event} (h : l ∈ lock.grants key) :
    ∃ k, l = .granted k := by
  unfold Lock.grants at h
  split at h
  · split at h
    · cases h
    · exact ⟨_, List.mem_singleton.1 h⟩
  · cases h

theorem Goes.later (goes : Goes r e key r') :
    ∀ l ∈ r'.laters, l.key? = some key ∨ ∃ k, l = .granted k := by
  have hnone (h : r'.laters = []) : ∀ l ∈ r'.laters, l.key? = some key ∨ ∃ k, l = .granted k := by
    rw [h]
    exact fun l hl => nomatch hl
  have hgrants {lock : Lock} (h : r'.laters = lock.grants key) :
      ∀ l ∈ r'.laters, l.key? = some key ∨ ∃ k, l = .granted k := by
    rw [h]
    exact fun l hl => .inr (granted_of_mem_grants hl)
  cases goes with
  | activating name p starts holds found leaves => exact hnone leaves.laters
  | probing purpose names starts holds distinct suits leaves =>
      rw [leaves.laters]
      intro l hl
      obtain ⟨i, _, rfl⟩ := List.mem_map.1 hl
      exact .inl rfl
  | asking i purpose probes name progress p event call part found leaves => exact hnone leaves.laters
  | settling i c purpose probes name progress ok event call stage part leaves =>
      rw [leaves.laters]
      split
      · intro l hl
        obtain rfl := List.mem_singleton.1 hl
        exact .inl rfl
      · exact fun l hl => nomatch hl
  | marking c event call leaves => exact hnone leaves.laters
  | reading c ls as stage since later asked leaves =>
      rw [leaves.laters]
      intro l hl
      rcases later l hl with ⟨i, rfl⟩ | rfl
      · exact .inl rfl
      · exact .inl rfl
  | activated i c name event call stage leaves => exact hgrants leaves.laters
  | completing purpose probes reply event leaves => exact hgrants leaves.laters
  | ending outcome leaves => exact hgrants leaves.laters

/-- The call goes its way as before, but that the lock may come to it. -/
structure Unconcerned (r : Registry) (key : CallKey) (r' : Registry) : Prop where
  call : r'.calls.get? key = r.calls.get? key
  later : ∀ l ∈ r'.laters, l.key? = some key → l = .granted key
  asked : ∀ q ∈ r'.asks, q.key ≠ key
  finishes : ∀ outcome, (key, outcome) ∉ r'.finishes

theorem Leaves.unconcerned (h : r'.Leaves core [] [] [])
    (call : core.calls.get? key = r.calls.get? key) : Unconcerned r key r' where
  call := by rw [h.calls, call]
  later l hl := by
    rw [h.laters] at hl
    cases hl
  asked q hq := by
    rw [h.asks] at hq
    cases hq
  finishes outcome hended := by
    rw [h.finishes] at hended
    cases hended

theorem Goes.unconcerned {k : CallKey} (goes : Goes r₁ e k r') (calls : r₁.calls = r.calls)
    (other : key ≠ k) : Unconcerned r key r' where
  call := (goes.touches calls).others key other
  later l hl hkey := by
    rcases goes.later l hl with hk | ⟨j, rfl⟩
    · exact absurd (Option.some.inj (hkey.symm.trans hk)) other
    · cases hkey
      rfl
  asked q hq hkey := other (hkey.symm.trans (World.goes_asks goes q hq))
  finishes outcome hended := by
    rcases (goes.touches calls).ends with hnone | ⟨_, o, hone⟩
    · rw [hnone] at hended
      cases hended
    · rw [hone] at hended
      cases List.mem_singleton.1 hended
      exact other rfl

/-- An event that is not about a call. -/
theorem step_unconcerned (h : r.outbox = []) (buffers : Buffers) (foreign : e.key? ≠ some key) :
    Unconcerned r key (r.step buffers e) := by
  cases step_reacts h buffers e with
  | changed core event leaves => exact leaves.unconcerned (by rw [altered_calls event])
  | idle leaves => exact leaves.unconcerned rfl
  | queued k request held event busy leaves =>
      subst event
      have hother : key ≠ k := fun heq => foreign (heq ▸ rfl)
      exact leaves.unconcerned (Keyed.get?_put_of_ne _ hother)
  | enters k request event free goes =>
      subst event
      exact goes.unconcerned rfl fun heq => foreign (heq ▸ rfl)
  | goes k goes about => exact goes.unconcerned rfl fun heq => foreign (heq ▸ about)
  | withdrawn k event leaves =>
      subst event
      have hother : key ≠ k := fun heq => foreign (heq ▸ rfl)
      refine ⟨?_, fun l hl hkey => ?_, fun q hq => ?_, fun outcome hended => ?_⟩
      · rw [leaves.calls]
        exact (Keyed.get?_drop _ k key).trans (if_neg hother)
      · rw [leaves.laters] at hl
        obtain ⟨j, rfl⟩ := granted_of_mem_grants hl
        cases hkey
        rfl
      · rw [leaves.asks] at hq
        cases hq
      · rw [leaves.finishes] at hended
        cases List.mem_singleton.1 hended
        exact hother rfl

end Shellwright.Registry
