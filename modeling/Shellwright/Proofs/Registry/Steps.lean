import Shellwright.Proofs.Registry.World
/-!
# What one step of a registry may do

A step changes the registry, puts a call into the queue, or carries one call on. The cases are listed
once, each with all that the step wants done, so that no later proof has to look into a step. Every event
does to a registry with an empty outbox what one of them says.
-/

namespace Shellwright.Registry

def Stage.reads : Stage → Bool
  | .checking .. => true
  | .formatting .. => true
  | _ => false

/-- The calls that change what is active. -/
def Request.locks : Request → Bool
  | .activate _ => true
  | .activateAll _ => true
  | .reactivate _ => true
  | .replace .. => true
  | _ => false

/-- A replacement asks for new instances only, and these are listed under their own names. -/
def ProbePurpose.Suits (purpose : ProbePurpose) (names : List String) : Prop :=
  ∀ fresh, purpose = .replace fresh →
    (∀ name ∈ names, fresh.has name = true) ∧
      ∀ name p, fresh.get? name = some p → p.name = name

/-- The event takes up the work of the call. -/
def Starts (r : Registry) (e : Event) (key : CallKey) : Prop :=
  (∃ request, e = .call key request) ∨
    e = .granted key ∧ ∃ c request, r.calls.get? key = some c ∧ c.stage = .queued request

/-- The call holds the lock, or it comes to it with this event. -/
def Holds (r : Registry) (e : Event) (key : CallKey) : Prop :=
  r.lock.holder = some key ∨ e = .granted key

/-- The change that a call was for whose plugins have answered. -/
def settle (r : Registry) (purpose : ProbePurpose) (probes : List (String × Progress Bool)) :
    Registry :=
  let ok := probed probes true
  match purpose with
  | .activateAll => { r with active := r.active ++ ok.filter (!r.active.contains ·) }
  | .reactivate => { r with active := ok }
  | .replace fresh => { r with plugins := fresh, active := ok }
  | .available => r

def withActive (r : Registry) (name : String) : Registry :=
  { r with active := if r.isActive name then r.active else r.active ++ [name] }

/-- One call goes on. -/
inductive Goes (r : Registry) (e : Event) (key : CallKey) (r' : Registry) : Prop
  | activating (name : String) (p : Plugin) (starts : r.Starts e key) (holds : r.Holds e key)
      (found : r.get? name = some p)
      (leaves : r'.Leaves (r.setCall key ⟨.activating name, false⟩) []
        [⟨key, 0, p, .available⟩] [])
  | probing (purpose : ProbePurpose) (names : List String) (starts : r.Starts e key)
      (holds : purpose = .available ∨ r.Holds e key)
      (distinct : purpose = .available ∨ names.Nodup) (suits : purpose.Suits names)
      (leaves : r'.Leaves
        (r.setCall key ⟨.probing purpose (names.map (·, .waiting)), false⟩)
        ((List.range names.length).map (.begin key ·)) [] [])
  | asking (i : Nat) (purpose : ProbePurpose) (probes : List (String × Progress Bool))
      (name : String) (progress : Progress Bool) (p : Plugin) (event : e = .begin key i)
      (call : r.calls.get? key = some ⟨.probing purpose probes, false⟩)
      (part : probes[i]? = some (name, progress)) (found : r.probedPlugin purpose name = some p)
      (leaves : r'.Leaves
        (r.setCall key ⟨.probing purpose (setProbe probes i .asked), false⟩) []
        [⟨key, i, p, .available⟩] [])
  | settling (i : Nat) (c : Call) (purpose : ProbePurpose)
      (probes : List (String × Progress Bool)) (name : String) (progress : Progress Bool)
      (ok : Bool)
      (event : e = .begin key i ∧ ok = false ∨
        ∃ a, e = .answered key i a ∧ (ok = true → a = .available true))
      (call : r.calls.get? key = some c) (stage : c.stage = .probing purpose probes)
      (part : probes[i]? = some (name, progress))
      (leaves : r'.Leaves
        (r.setCall key { c with stage := .probing purpose (setProbe probes i (.settled ok)) })
        (if allSettled (setProbe probes i (.settled ok)) then [.gathered key] else []) [] [])
  | marking (c : Call) (event : e = .abort key) (call : r.calls.get? key = some c)
      (leaves : r'.Leaves (r.setCall key { c with aborting := true }) [] [] [])
  | reading (c : Call) (ls : List Event) (as : List Inquiry) (stage : c.stage.reads = true)
      (since : (∃ request, e = .call key request) ∨
        ∃ c₀, r.calls.get? key = some c₀ ∧ c₀.stage.reads = true)
      (later : ∀ l ∈ ls, (∃ i, l = .begin key i) ∨ l = .gathered key)
      (asked : ∀ q ∈ as, q.key = key)
      (leaves : r'.Leaves (r.setCall key c) ls as [])
  | activated (i : Nat) (c : Call) (name : String)
      (event : e = .answered key i (.available true)) (call : r.calls.get? key = some c)
      (stage : c.stage = .activating name)
      (leaves : r'.Leaves ((r.withActive name).without key) (r.lock.grants key) []
        [(key, .done (.flag true))])
  | completing (purpose : ProbePurpose) (probes : List (String × Progress Bool)) (reply : Reply)
      (event : e = .gathered key ∧ r.calls.get? key = some ⟨.probing purpose probes, false⟩ ∨
        probes = [] ∧ r.Starts e key ∧ (purpose = .available ∨ r.Holds e key) ∧
          purpose.Suits [])
      (leaves : r'.Leaves ((r.settle purpose probes).without key) (r.lock.grants key) []
        [(key, .done reply)])
  | ending (outcome : Outcome Reply)
      (leaves : r'.Leaves (r.without key) (r.lock.grants key) [] [(key, outcome)])

/-- What the registry becomes by a change of the host. -/
def altered (r : Registry) : Event → Option Registry
  | .register p =>
    some { r with
      active := if r.plugins.has p.name then r.active.filter (· != p.name) else r.active
      plugins := r.plugins.put p.name p }
  | .unregister name =>
    some (if r.plugins.has name then
        { r with active := r.active.filter (· != name), plugins := r.plugins.drop name }
      else r)
  | .clear => some { r with active := [], plugins := [] }
  | .deactivate name => some { r with active := r.active.filter (· != name) }
  | .deactivateAll => some { r with active := [] }
  | _ => none

/-- The call that an event is about. -/
def Event.key? : Event → Option CallKey
  | .call key _ => some key
  | .granted key => some key
  | .begin key _ => some key
  | .answered key _ _ => some key
  | .stopped key _ => some key
  | .gathered key => some key
  | .abort key => some key
  | _ => none

/-- One step. -/
inductive Reacts (r : Registry) (e : Event) (r' : Registry) : Prop
  | changed (core : Registry) (event : r.altered e = some core) (leaves : r'.Leaves core [] [] [])
  | idle (leaves : r'.Leaves r [] [] [])
  | queued (key : CallKey) (request held : Request) (event : e = .call key request)
      (busy : r.lock.holder ≠ none)
      (leaves : r'.Leaves
        ({ r with lock := { r.lock with waiting := r.lock.waiting ++ [key] } }.setCall key
          ⟨.queued held, false⟩) [] [] [])
  /-- The call comes to the lock at once. -/
  | enters (key : CallKey) (request : Request) (event : e = .call key request)
      (free : r.lock.holder = none)
      (goes : Goes { r with lock := ⟨some key, []⟩ } e key r')
  | goes (key : CallKey) (goes : Goes r e key r') (about : e.key? = some key := by rfl)
  /-- The call gives up its place in the queue. -/
  | withdrawn (key : CallKey) (event : e = .abort key)
      (leaves : r'.Leaves
        ({ r with lock := { r.lock with waiting := r.lock.waiting.filter (· != key) } }.without
          key)
        (({ r.lock with waiting := r.lock.waiting.filter (· != key) } : Lock).grants key) []
        [(key, .aborted)])

variable {r r₁ : Registry} {e : Event} {key : CallKey}

/-! ## Calls that complete -/

theorem Leaves.logFailed {core : Registry} {ls : List Event} {as : List Inquiry}
    {fs : List (CallKey × Outcome Reply)} (h : r₁.Leaves core ls as fs) (names : List String) :
    (r₁.logFailed names).Leaves core ls as fs := by
  unfold Registry.logFailed
  split
  · exact h
  · exact h.log _ _

theorem Leaves.withPlugins {core : Registry} {ls : List Event} {as : List Inquiry}
    {fs : List (CallKey × Outcome Reply)} (h : r₁.Leaves core ls as fs)
    (plugins : Keyed String Plugin) (active : List String) :
    Leaves { r₁ with plugins := plugins, active := active }
      { core with plugins := plugins, active := active } ls as fs :=
  ⟨rfl, rfl, h.lock, h.calls, h.laters, h.asks, h.finishes⟩

theorem Leaves.withActive {core : Registry} {ls : List Event} {as : List Inquiry}
    {fs : List (CallKey × Outcome Reply)} (h : r₁.Leaves core ls as fs) (active : List String) :
    Leaves { r₁ with active := active } { core with active := active } ls as fs :=
  ⟨h.plugins, rfl, h.lock, h.calls, h.laters, h.asks, h.finishes⟩

theorem completeProbes_leaves (h : r₁.Leaves r [] [] []) (key : CallKey) (purpose : ProbePurpose)
    (probes : List (String × Progress Bool)) :
    ∃ reply, (r₁.completeProbes key purpose probes).Leaves ((r.settle purpose probes).without key)
      (r.lock.grants key) [] [(key, .done reply)] := by
  cases purpose with
  | activateAll =>
      have hfailed := h.logFailed (probed probes false)
      refine ⟨.count (probed probes true).length, ?_⟩
      have hactive : (r₁.logFailed (probed probes false)).active = r.active := hfailed.active
      simp only [completeProbes, settle, hactive]
      exact (hfailed.withActive _).finish key _
  | reactivate =>
      refine ⟨.count (probed probes true).length, ?_⟩
      exact (((h.logFailed (probed probes false)).withActive _).log _ _).finish key _
  | replace fresh =>
      refine ⟨.count (probed probes true).length, ?_⟩
      exact ((h.withPlugins fresh _).log _ _).finish key _
  | available => exact ⟨.names (probed probes true), h.finish key _⟩

theorem startProbes_goes (h : r₁.Leaves r [] [] []) {purpose : ProbePurpose} {names : List String}
    (starts : r.Starts e key) (holds : purpose = .available ∨ r.Holds e key)
    (distinct : purpose = .available ∨ names.Nodup) (suits : purpose.Suits names) :
    Goes r e key (r₁.startProbes key purpose names) := by
  unfold startProbes
  split
  · rename_i hempty
    have hnames : names = [] := by simpa using hempty
    subst hnames
    obtain ⟨reply, hleaves⟩ := completeProbes_leaves h key purpose []
    exact .completing purpose [] reply (.inr ⟨rfl, starts, holds, suits⟩) hleaves
  · refine .probing purpose names starts holds distinct suits ?_
    simpa using (h.setCall key ⟨.probing purpose (names.map (·, .waiting)), false⟩).begins key
      (List.range names.length)

theorem settleProbe_leaves (h : r₁.Leaves r [] [] []) (c : Call) (purpose : ProbePurpose)
    (probes : List (String × Progress Bool)) (i : Nat) (ok : Bool) :
    (r₁.settleProbe key c purpose probes i ok).Leaves
      (r.setCall key { c with stage := .probing purpose (setProbe probes i (.settled ok)) })
      (if allSettled (setProbe probes i (.settled ok)) then [.gathered key] else []) [] [] := by
  have hset := h.setCall key
    { c with stage := .probing purpose (setProbe probes i (.settled ok)) }
  unfold settleProbe
  split
  · rename_i hall
    rw [if_pos hall]
    exact hset.later (.gathered key)
  · rename_i hall
    rw [if_neg hall]
    exact hset

theorem availability_leaves (h : r₁.Leaves r [] [] []) (name : String) (a : Answer) :
    (r₁.availability name a).1.Leaves r [] [] [] ∧
      ((r₁.availability name a).2 = true → a = .available true) := by
  cases a with
  | available yes =>
      cases yes with
      | true => exact ⟨h, fun _ => rfl⟩
      | false => exact ⟨h.log _ _, nofun⟩
  | checked _ => exact ⟨h.log _ _, nofun⟩
  | formatted _ => exact ⟨h.log _ _, nofun⟩
  | raised _ => exact ⟨h.log _ _, nofun⟩

/-! ## Calls that start -/

theorem Leaves.ending (h : r₁.Leaves r [] [] []) (outcome : Outcome Reply) :
    Goes r e key (r₁.finish key outcome) :=
  .ending outcome (h.finish key outcome)

theorem suits_of_ne {purpose : ProbePurpose} (h : ∀ fresh, purpose ≠ .replace fresh)
    (names : List String) : purpose.Suits names :=
  fun fresh heq => absurd heq (h fresh)

theorem nodup_wantedNames (plugins : List (String × Plugin)) (names : Option (List String)) :
    (wantedNames (Keyed.ofList plugins) names).Nodup := by
  cases names with
  | none => exact Keyed.nodup_keys_ofList plugins
  | some names => exact (nodup_distinct names).filter _

theorem suits_replace (plugins : List Plugin) (names : Option (List String)) :
    (ProbePurpose.replace (Keyed.ofList (plugins.map fun p => (p.name, p)))).Suits
      (wantedNames (Keyed.ofList (plugins.map fun p => (p.name, p))) names) := by
  rintro fresh ⟨⟩
  refine ⟨?_, ?_⟩
  · intro name hname
    cases names with
    | none => exact Keyed.has_of_mem_keys hname
    | some names => exact (List.mem_filter.1 hname).2
  · intro name p hfound
    refine Keyed.get?_ofList (P := fun name p => p.name = name) ?_ hfound
    intro pair hpair
    obtain ⟨p, _, rfl⟩ := List.mem_map.1 hpair
    rfl

theorem enter_goes (h : r₁.Leaves r [] [] []) {request : Request} (locks : request.locks = true)
    (starts : r.Starts e key) (holds : r.Holds e key) : Goes r e key (r₁.enter key request) := by
  cases request with
  | activate name =>
      have hfound : r₁.get? name = r.get? name := by
        unfold Registry.get?
        rw [h.plugins]
      simp only [enter, hfound]
      cases hget : r.get? name with
      | none => exact (h.log _ _).ending _
      | some p =>
          refine .activating name p starts holds hget ?_
          exact (h.setCall key ⟨.activating name, false⟩).ask key 0 p .available
  | activateAll names =>
      exact startProbes_goes h starts (.inr holds) (.inr (nodup_distinct names))
        (suits_of_ne (by nofun) _)
  | reactivate names =>
      exact startProbes_goes h starts (.inr holds) (.inr (nodup_distinct names))
        (suits_of_ne (by nofun) _)
  | replace plugins names =>
      exact startProbes_goes h starts (.inr holds) (.inr (nodup_wantedNames _ names))
        (suits_replace plugins names)
  | available => cases locks
  | check document options => cases locks
  | format document options => cases locks

theorem enter_of_not_locks {request : Request} (h : request.locks = false) :
    r.enter key request = r := by
  cases request with
  | activate name => cases h
  | activateAll names => cases h
  | reactivate names => cases h
  | replace plugins names => cases h
  | available => rfl
  | check document options => rfl
  | format document options => rfl

/-! ## New calls -/

theorem startCheck_goes (h : r₁.Leaves r [] [] []) (buffers : Buffers) (document : String)
    (options : CallOptions) (event : ∃ request, e = .call key request) :
    Goes r e key (r₁.startCheck buffers key document options) := by
  unfold startCheck
  split
  · exact h.ending _
  · exact h.ending _
  · rename_i plugins _ _
    refine .reading ⟨.checking document options (plugins.map (·, .waiting)), false⟩
      ((List.range plugins.length).map (.begin key ·)) [] rfl (.inl event) ?_ (by simp) ?_
    · intro l hl
      obtain ⟨i, _, rfl⟩ := List.mem_map.1 hl
      exact .inl ⟨i, rfl⟩
    · simpa using (h.setCall key
        ⟨.checking document options (plugins.map (·, .waiting)), false⟩).begins key
        (List.range plugins.length)

theorem askFormatter_goes (h : r₁.Leaves r [] [] []) (document : String) (options : CallOptions)
    (collected : List Verdict) (plugins : List Plugin)
    (since : (∃ request, e = .call key request) ∨
      ∃ c₀, r.calls.get? key = some c₀ ∧ c₀.stage.reads = true) :
    Goes r e key (r₁.askFormatter key document options collected plugins) := by
  cases plugins with
  | nil => exact h.ending _
  | cons p rest =>
      refine .reading ⟨.formatting document options p rest collected, false⟩ []
        [⟨key, 0, p, .format document options⟩] rfl since (by simp) (by simp) ?_
      exact (h.setCall key _).ask key 0 p (.format document options)

theorem startFormat_goes (h : r₁.Leaves r [] [] []) (buffers : Buffers) (document : String)
    (options : CallOptions) (event : ∃ request, e = .call key request) :
    Goes r e key (r₁.startFormat buffers key document options) := by
  unfold startFormat
  split
  · exact h.ending _
  · exact askFormatter_goes h document options [] _ (.inl event)

theorem freshPlugins_leaves (h : r₁.Leaves r [] [] []) (fresh : Keyed String Plugin)
    (plugins : List Plugin) : (r₁.freshPlugins fresh plugins).1.Leaves r [] [] [] := by
  induction plugins generalizing r₁ fresh with
  | nil => exact h
  | cons p rest ih =>
      unfold freshPlugins
      split
      · exact ih (h.log _ _) _
      · exact ih h _

theorem acquire_reacts (h : r₁.Leaves r [] [] []) {request held : Request}
    (locks : held.locks = true) (event : e = .call key request) :
    Reacts r e (r₁.acquire key held) := by
  unfold acquire
  rw [h.lock]
  split
  · rename_i hfree
    have htaken : Leaves { r₁ with lock := ⟨some key, []⟩ } { r with lock := ⟨some key, []⟩ }
        [] [] [] :=
      ⟨h.plugins, h.active, rfl, h.calls, h.laters, h.asks, h.finishes⟩
    exact .enters key request event (by simpa using hfree)
      (enter_goes htaken locks (.inl ⟨request, event⟩) (.inl rfl))
  · rename_i hbusy
    refine .queued key request held event (by simpa using hbusy) ?_
    have hwaits : Leaves { r₁ with lock := { r.lock with waiting := r.lock.waiting ++ [key] } }
        { r with lock := { r.lock with waiting := r.lock.waiting ++ [key] } } [] [] [] :=
      ⟨h.plugins, h.active, rfl, h.calls, h.laters, h.asks, h.finishes⟩
    exact hwaits.setCall key ⟨.queued held, false⟩

theorem call_reacts (h : r.Leaves r [] [] []) (buffers : Buffers) (request : Request) :
    Reacts r (.call key request) (r.call buffers key request) := by
  cases request with
  | activate name => exact acquire_reacts h rfl rfl
  | activateAll names => exact acquire_reacts h rfl rfl
  | reactivate names => exact acquire_reacts h rfl rfl
  | replace plugins names => exact acquire_reacts (freshPlugins_leaves h [] plugins) rfl rfl
  | available =>
      exact .goes key (startProbes_goes h (.inl ⟨_, rfl⟩) (.inl rfl) (.inl rfl)
        (suits_of_ne (by nofun) _))
  | check document options =>
      exact .goes key (startCheck_goes h buffers document options ⟨_, rfl⟩)
  | format document options =>
      exact .goes key (startFormat_goes h buffers document options ⟨_, rfl⟩)

/-! ## Calls under way -/

theorem begin_reacts (h : r.Leaves r [] [] []) (i : Nat) {c : Call}
    (call : r.calls.get? key = some c) : Reacts r (.begin key i) (r.begin key i c) := by
  obtain ⟨stage, aborting⟩ := c
  unfold Registry.begin
  cases aborting with
  | true => exact .goes key (h.ending _)
  | false =>
      rw [if_neg (by simp)]
      cases stage with
      | queued request => exact .idle h
      | activating name => exact .idle h
      | formatting document options p rest collected => exact .idle h
      | probing purpose probes =>
          simp only
          split
          · exact .idle h
          · rename_i name progress hpart
            split
            · have hlog : (r.unknownPlugin name).Leaves r [] [] [] := h.log _ _
              exact .goes key (.settling i _ purpose probes name progress false (.inl ⟨rfl, rfl⟩)
                call rfl hpart (settleProbe_leaves hlog _ purpose probes i false))
            · rename_i p hfound
              exact .goes key (.asking i purpose probes name progress p rfl call hpart hfound
                ((h.setCall key _).ask key i p .available))
      | checking document options parts =>
          simp only
          split
          · exact .idle h
          · rename_i p progress hpart
            exact .goes key (.reading _ [] [⟨key, i, p, .check document options⟩] rfl
              (.inr ⟨_, call, rfl⟩) (by simp) (by simp)
              ((h.setCall key _).ask key i p (.check document options)))

theorem checkVerdict_leaves (h : r.Leaves r [] [] []) (buffers : Buffers) (p : Plugin)
    (document : String) (a : Answer) :
    (r.checkVerdict buffers p document a).1.Leaves r [] [] [] := by
  cases a with
  | raised text => exact h.log _ _
  | _ => exact h

theorem formatVerdict_leaves (h : r.Leaves r [] [] []) (buffers : Buffers) (p : Plugin)
    (document : String) (a : Answer) :
    (r.formatVerdict buffers p document a).1.Leaves r [] [] [] := by
  cases a with
  | raised text => exact h.log _ _
  | _ => exact h

theorem answered_reacts (h : r.Leaves r [] [] []) (buffers : Buffers) (i : Nat) {c : Call}
    (a : Answer) (call : r.calls.get? key = some c) :
    Reacts r (.answered key i a) (r.answered buffers key i c a) := by
  obtain ⟨stage, aborting⟩ := c
  unfold Registry.answered
  cases stage with
  | queued request => exact .idle h
  | activating name =>
      obtain ⟨hleaves, hyes⟩ := availability_leaves h name a
      simp only
      split
      · rename_i hok
        rw [hyes hok] at hleaves ⊢
        refine .goes key (.activated i _ name rfl call rfl ?_)
        exact (h.withActive _).finish key (.done (.flag true))
      · exact .goes key (hleaves.ending _)
  | probing purpose probes =>
      simp only
      split
      · exact .idle h
      · rename_i name progress hpart
        obtain ⟨hleaves, hyes⟩ := availability_leaves h name a
        exact .goes key (.settling i _ purpose probes name progress _ (.inr ⟨a, rfl, hyes⟩) call
          rfl hpart (settleProbe_leaves hleaves _ purpose probes i _))
  | checking document options parts =>
      simp only
      split
      · exact .idle h
      · rename_i p progress hpart
        have hset := (checkVerdict_leaves h buffers p document a).setCall key
          ⟨.checking document options
            (setPart parts i (.settled (r.checkVerdict buffers p document a).2)), aborting⟩
        split
        · exact .goes key (.reading _ [.gathered key] [] rfl (.inr ⟨_, call, rfl⟩) (by simp)
            (by simp) (hset.later (.gathered key)))
        · exact .goes key (.reading _ [] [] rfl (.inr ⟨_, call, rfl⟩) (by simp) (by simp) hset)
  | formatting document options p rest collected =>
      have hleaves := formatVerdict_leaves h buffers p document a
      unfold settleFormat
      simp only
      split
      · exact .goes key (askFormatter_goes hleaves document options _ rest
          (.inr ⟨_, call, rfl⟩))
      · exact .goes key (hleaves.ending _)

theorem gathered_reacts (h : r.Leaves r [] [] []) {c : Call}
    (call : r.calls.get? key = some c) : Reacts r (.gathered key) (r.gathered key c) := by
  obtain ⟨stage, aborting⟩ := c
  unfold Registry.gathered
  cases aborting with
  | true => exact .goes key (h.ending _)
  | false =>
      rw [if_neg (by simp)]
      cases stage with
      | queued request => exact .idle h
      | activating name => exact .idle h
      | formatting document options p rest collected => exact .idle h
      | probing purpose probes =>
          obtain ⟨reply, hleaves⟩ := completeProbes_leaves h key purpose probes
          exact .goes key (.completing purpose probes reply (.inl ⟨rfl, call⟩) hleaves)
      | checking document options parts => exact .goes key (h.ending _)

/-- Only the lock differs. -/
theorem Leaves.withLock (h : r.Leaves r [] [] []) (lock : Lock) :
    Leaves { r with lock := lock } { r with lock := lock } [] [] [] :=
  ⟨rfl, rfl, rfl, rfl, h.laters, h.asks, h.finishes⟩

theorem abort_reacts (h : r.Leaves r [] [] []) {c : Call}
    (call : r.calls.get? key = some c) : Reacts r (.abort key) (r.abort key c) := by
  obtain ⟨stage, aborting⟩ := c
  have hmark (parts : List Nat) : Reacts r (.abort key)
      (parts.foldl (fun r i => r.emit (.quit key i)) (r.setCall key ⟨stage, true⟩)) :=
    .goes key (.marking _ rfl call ((h.setCall key ⟨stage, true⟩).quits key parts))
  unfold Registry.abort
  cases stage with
  | queued request =>
      have hlock := h.withLock { r.lock with waiting := r.lock.waiting.filter (· != key) }
      exact .withdrawn key rfl (hlock.finish key .aborted)
  | activating name => exact hmark _
  | probing purpose probes => exact hmark _
  | checking document options parts => exact hmark _
  | formatting document options p rest collected => exact hmark _

/-! ## Steps -/

theorem altered_leaves {core : Registry} (h : r.Leaves r [] [] []) (buffers : Buffers)
    (event : r.altered e = some core) : (r.step buffers e).Leaves core [] [] [] := by
  cases e with
  | register p =>
      cases event
      have hactive : Leaves (if r.plugins.has p.name then
            { r with active := r.active.filter (· != p.name) }.log .warning
              s!"plugin {p.name} already registered, replacing it" else r)
          { r with
            active := if r.plugins.has p.name then r.active.filter (· != p.name) else r.active }
          [] [] [] := by
        split
        · exact (h.withActive _).log _ _
        · exact h
      have hplugins := hactive.plugins
      refine Leaves.log ?_ _ _
      refine ⟨?_, hactive.active, hactive.lock, hactive.calls, hactive.laters, hactive.asks,
        hactive.finishes⟩
      exact congrArg (Keyed.put · p.name p) hplugins
  | unregister name =>
      cases event
      simp only [step, unregister]
      split
      · exact (h.withPlugins (r.plugins.drop name) _).log _ _
      · exact h.log _ _
  | clear =>
      cases event
      exact h.withPlugins [] []
  | deactivate name =>
      cases event
      exact h.withActive _
  | deactivateAll =>
      cases event
      exact h.withActive _
  | _ => cases event

theorem withCall_reacts (h : r.Leaves r [] [] []) {f : Call → Registry}
    (hf : ∀ c, r.calls.get? key = some c → Reacts r e (f c)) :
    Reacts r e (r.withCall key f) := by
  unfold withCall
  split
  · rename_i c call
    exact hf c call
  · exact .idle h

/-- A step of a registry with an empty outbox. -/
theorem step_reacts (h : r.outbox = []) (buffers : Buffers) (e : Event) :
    Reacts r e (r.step buffers e) := by
  have hstart := Leaves.start h
  cases e with
  | register p => exact .changed _ rfl (altered_leaves hstart buffers rfl)
  | unregister name => exact .changed _ rfl (altered_leaves hstart buffers rfl)
  | clear => exact .changed _ rfl (altered_leaves hstart buffers rfl)
  | deactivate name => exact .changed _ rfl (altered_leaves hstart buffers rfl)
  | deactivateAll => exact .changed _ rfl (altered_leaves hstart buffers rfl)
  | call key request => exact call_reacts hstart buffers request
  | granted key =>
      refine withCall_reacts hstart fun c call => ?_
      split
      · rename_i request hstage
        by_cases hlocks : request.locks = true
        · exact .goes key (enter_goes hstart hlocks (.inr ⟨rfl, c, request, call, hstage⟩)
            (.inr rfl))
        · rw [enter_of_not_locks (by simpa using hlocks)]
          exact .idle hstart
      · exact .idle hstart
  | begin key i => exact withCall_reacts hstart fun c call => begin_reacts hstart i call
  | answered key i a =>
      exact withCall_reacts hstart fun c call => answered_reacts hstart buffers i a call
  | stopped key i =>
      refine withCall_reacts hstart fun c _ => ?_
      split
      · exact .goes key (hstart.ending _)
      · exact .idle hstart
  | gathered key => exact withCall_reacts hstart fun c call => gathered_reacts hstart call
  | abort key => exact withCall_reacts hstart fun c call => abort_reacts hstart call

theorem Goes.finishes {r' : Registry} (h : Goes r e key r') :
    r'.finishes = [] ∨ ∃ outcome, r'.finishes = [(key, outcome)] := by
  cases h with
  | activating name p starts holds found leaves => exact .inl leaves.finishes
  | probing purpose names starts holds distinct suits leaves => exact .inl leaves.finishes
  | asking i purpose probes name progress p event call part found leaves =>
      exact .inl leaves.finishes
  | settling i c purpose probes name progress ok event call stage part leaves =>
      exact .inl leaves.finishes
  | marking c event call leaves => exact .inl leaves.finishes
  | reading c ls as stage since later asked leaves => exact .inl leaves.finishes
  | activated i c name event call stage leaves => exact .inr ⟨_, leaves.finishes⟩
  | completing purpose probes reply event leaves => exact .inr ⟨_, leaves.finishes⟩
  | ending outcome leaves => exact .inr ⟨_, leaves.finishes⟩

/-- To call a call off ends no other one, and this one only so. -/
theorem abort_finishes (h : r.outbox = []) (buffers : Buffers) (key : CallKey) :
    (r.step buffers (.abort key)).finishes = [] ∨
      (r.step buffers (.abort key)).finishes = [(key, .aborted)] := by
  have hstart := Leaves.start h
  have hstep : r.step buffers (.abort key) = r.withCall key (r.abort key) := rfl
  rw [hstep, withCall]
  cases call : r.calls.get? key with
  | none => exact .inl hstart.finishes
  | some c =>
      obtain ⟨stage, aborting⟩ := c
      have hmark (parts : List Nat) : (parts.foldl (fun r i => r.emit (.quit key i))
          (r.setCall key ⟨stage, true⟩)).finishes = [] :=
        ((hstart.setCall key ⟨stage, true⟩).quits key parts).finishes
      cases stage with
      | queued request =>
          have hlock := hstart.withLock { r.lock with waiting := r.lock.waiting.filter (· != key) }
          exact .inr (hlock.finish key .aborted).finishes
      | activating name => exact .inl (hmark _)
      | probing purpose probes => exact .inl (hmark _)
      | checking document options parts => exact .inl (hmark _)
      | formatting document options p rest collected => exact .inl (hmark _)

/-- No step ends more than one call. -/
theorem step_finishes (h : r.outbox = []) (buffers : Buffers) (e : Event) :
    (r.step buffers e).finishes = [] ∨
      ∃ key outcome, (r.step buffers e).finishes = [(key, outcome)] := by
  cases step_reacts h buffers e with
  | changed core event leaves => exact .inl leaves.finishes
  | idle leaves => exact .inl leaves.finishes
  | queued key request held event busy leaves => exact .inl leaves.finishes
  | withdrawn key event leaves => exact .inr ⟨key, .aborted, leaves.finishes⟩
  | enters key request event free goes => exact goes.finishes.imp_right fun h => ⟨key, h⟩
  | goes key goes => exact goes.finishes.imp_right fun h => ⟨key, h⟩

end Shellwright.Registry
