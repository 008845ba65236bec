import Shellwright.Proofs.Registry.Reacting
/-!
# Checks of availability

A call that is to activate plugins asks each of them first. What is being checked, and where a check
comes from that is under way after a step.
-/

namespace Shellwright.Registry

/-- Where a call finds the plugins that it asks: among new instances, or in the registry. -/
def ProbePurpose.source : ProbePurpose → Option (Keyed String Plugin)
  | .replace fresh => some fresh
  | _ => none

/-- The plugin that is found under a name. -/
def lookup (r : Registry) (source : Option (Keyed String Plugin)) (name : String) :
    Option Plugin :=
  match source with
  | none => r.get? name
  | some fresh => fresh.get? name

/-- The plugin of this name is being asked, or it has passed while others are being asked. -/
def Stage.Checks (source : Option (Keyed String Plugin)) (part : Nat) (name : String)
    (passed : Bool) : Stage → Prop
  | .activating n => source = none ∧ part = 0 ∧ n = name ∧ passed = false
  | .probing purpose probes => purpose ≠ .available ∧ purpose.source = source ∧
      probes[part]? = some (name, if passed then .settled true else .asked)
  | _ => False

/-- The call is under way to activate the plugin of this name. -/
def Checking (r : Registry) (key : CallKey) (source : Option (Keyed String Plugin))
    (name : String) : Prop :=
  ∃ c part passed, r.calls.get? key = some c ∧ c.stage.Checks source part name passed

/-- With this event the call makes the name active. -/
def Passes (r : Registry) (e : Event) (key : CallKey) (name : String) : Prop :=
  (∃ c i, e = .answered key i (.available true) ∧ r.calls.get? key = some c ∧
    c.stage = .activating name) ∨
  ∃ purpose probes, e = .gathered key ∧
    r.calls.get? key = some ⟨.probing purpose probes, false⟩ ∧
    (purpose = .activateAll ∨ purpose = .reactivate) ∧ name ∈ probed probes true

/-- With this event the call puts its new instances in the place of all plugins. -/
def Publishes (r : Registry) (e : Event) (key : CallKey) (fresh : Keyed String Plugin)
    (probes : List (String × Progress Bool)) : Prop :=
  e = .gathered key ∧ r.calls.get? key = some ⟨.probing (.replace fresh) probes, false⟩

theorem probedPlugin_eq_lookup {r : Registry} {purpose : ProbePurpose}
    (h : purpose ≠ .available) (name : String) :
    r.probedPlugin purpose name = r.lookup purpose.source name := by
  cases purpose with
  | available => exact absurd rfl h
  | _ => rfl

theorem mem_probed {probes : List (String × Progress Bool)} {ok : Bool} {name : String} :
    name ∈ probed probes ok ↔ ∃ i : Nat, probes[i]? = some (name, .settled ok) := by
  unfold probed
  rw [List.mem_map]
  constructor
  · rintro ⟨⟨other, progress⟩, hmem, rfl⟩
    obtain ⟨hmem, hresult⟩ := List.mem_filter.1 hmem
    obtain ⟨i, hi⟩ := List.mem_iff_getElem?.1 hmem
    refine ⟨i, ?_⟩
    cases progress with
    | settled b =>
        obtain rfl : b = ok := by simpa [Progress.result?] using hresult
        exact hi
    | waiting => cases hresult
    | asked => cases hresult
  · rintro ⟨i, hi⟩
    refine ⟨(name, .settled ok), List.mem_filter.2 ⟨List.mem_of_getElem? hi, ?_⟩, rfl⟩
    simp [Progress.result?]

theorem Stage.Checks.locks {source : Option (Keyed String Plugin)} {part : Nat} {name : String}
    {passed : Bool} {stage : Stage} (h : stage.Checks source part name passed) : stage.locks := by
  cases stage with
  | activating n => trivial
  | probing purpose probes => exact h.1
  | queued request => cases h
  | checking document options parts => cases h
  | formatting document options p rest collected => cases h

theorem Passes.checking {r : Registry} {e : Event} {key : CallKey} {name : String}
    (h : r.Passes e key name) : r.Checking key none name := by
  rcases h with ⟨c, i, _, call, stage⟩ | ⟨purpose, probes, _, call, kind, hmem⟩
  · refine ⟨c, 0, false, call, ?_⟩
    rw [stage]
    exact ⟨rfl, rfl, rfl, rfl⟩
  · obtain ⟨i, hi⟩ := mem_probed.1 hmem
    refine ⟨_, i, true, call, ?_, ?_, hi⟩
    · rcases kind with rfl | rfl <;> nofun
    · rcases kind with rfl | rfl <;> rfl

/-! ## Where checks come from -/

/-- How it comes that a plugin is being asked, or has passed, after a step. -/
inductive Since (w : World) (e : Event) (r' : Registry) (key : CallKey)
    (source : Option (Keyed String Plugin)) (part : Nat) (name : String) : Bool → Prop
  | before (passed : Bool) (c : Call) (call : w.registry.calls.get? key = some c)
      (checks : c.stage.Checks source part name passed)
      (quiet : ∀ q ∈ r'.asks, q.key = key → q.part ≠ part) :
      Since w e r' key source part name passed
  | asked (p : Plugin) (found : w.registry.lookup source name = some p) (named : p.name = name)
      (asks : r'.asks = [⟨key, part, p, .available⟩])
      (apart : ∀ q ∈ w.inquiriesOf key, q.part ≠ part)
      (plugins : r'.plugins = w.registry.plugins) : Since w e r' key source part name false
  | passed (c : Call) (event : e = .answered key part (.available true))
      (call : w.registry.calls.get? key = some c)
      (checks : c.stage.Checks source part name false) : Since w e r' key source part name true

theorem altered_calls {r core : Registry} {e : Event} (h : r.altered e = some core) :
    core.calls = r.calls := by
  cases e with
  | register p =>
      cases h
      rfl
  | unregister name =>
      cases h
      split <;> rfl
  | clear =>
      cases h
      rfl
  | deactivate name =>
      cases h
      rfl
  | deactivateAll =>
      cases h
      rfl
  | _ => cases h

namespace World

variable {w : World} {e : Event} {r r' : Registry} {key : CallKey}
  {source : Option (Keyed String Plugin)} {part : Nat} {name : String} {passed : Bool}

theorem Reaches.lookup (reaches : w.Reaches r) (source : Option (Keyed String Plugin))
    (name : String) : r.lookup source name = w.registry.lookup source name := by
  unfold Registry.lookup Registry.get?
  rw [reaches.plugins]

theorem quiet (h : r'.asks = []) : ∀ q ∈ r'.asks, q.key = key → q.part ≠ part := by
  rw [h]
  exact fun q hq => nomatch hq

/-- A probe is asked; the others have not changed. -/
theorem Orderly.asking_since (h : w.Orderly) (ready : w.Ready e) (reaches : w.Reaches r) {i : Nat}
    {purpose : ProbePurpose} {probes : List (String × Progress Bool)} {n : String}
    {progress : Progress Bool} {p : Plugin} (event : e = .begin key i)
    (call : r.calls.get? key = some ⟨.probing purpose probes, false⟩)
    (hpart : probes[i]? = some (n, progress)) (found : r.probedPlugin purpose n = some p)
    (leaves : r'.Leaves (r.setCall key ⟨.probing purpose (setProbe probes i .asked), false⟩) []
      [⟨key, i, p, .available⟩] [])
    (checks : (Stage.probing purpose (setProbe probes i .asked)).Checks source part name passed) :
    Since w e r' key source part name passed := by
  obtain ⟨hpurpose, rfl, hprobe⟩ := checks
  by_cases hi : part = i
  · subst hi
    rw [getElem?_setProbe_self hpart] at hprobe
    cases passed with
    | true => cases hprobe
    | false =>
        cases hprobe
        have hlookup : w.registry.lookup purpose.source name = some p := by
          rw [← reaches.lookup, ← probedPlugin_eq_lookup hpurpose]
          exact found
        have hprobes := (h.fits key _ (reaches.call call)).probing _ _ rfl
        have hapart := hprobes.apart ready (.inl event) (reaches.call call) rfl
        exact .asked p hlookup (h.named_of_probed reaches call found) leaves.asks hapart.2
          (leaves.plugins.trans reaches.plugins)
  · rw [getElem?_setProbe_of_ne _ _ hi] at hprobe
    refine .before passed _ (reaches.call call) ⟨hpurpose, rfl, hprobe⟩ ?_
    rw [leaves.asks]
    rintro q hq _ rfl
    obtain rfl := List.mem_singleton.1 hq
    exact hi rfl

/-- A probe has been answered, or nobody is left to ask; only a yes is a pass. -/
theorem settling_since (ready : w.Ready e) (reaches : w.Reaches r) {i : Nat} {c : Call}
    {purpose : ProbePurpose} {probes : List (String × Progress Bool)} {n : String}
    {progress : Progress Bool} {ok : Bool}
    (event : e = .begin key i ∧ ok = false ∨
      ∃ a, e = .answered key i a ∧ (ok = true → a = .available true))
    (call : r.calls.get? key = some c) (stage : c.stage = .probing purpose probes)
    (hpart : probes[i]? = some (n, progress)) (asks : r'.asks = [])
    (checks : (Stage.probing purpose (setProbe probes i (.settled ok))).Checks source part name
      passed) : Since w e r' key source part name passed := by
  obtain ⟨hpurpose, hsource, hprobe⟩ := checks
  by_cases hi : part = i
  · subst hi
    rw [getElem?_setProbe_self hpart] at hprobe
    cases passed with
    | false => cases hprobe
    | true =>
        cases hprobe
        rcases event with ⟨_, hok⟩ | ⟨a, rfl, hyes⟩
        · cases hok
        · rw [hyes rfl] at ready ⊢
          obtain ⟨_, other, hasked⟩ := ready c purpose probes (reaches.call call) stage
          rw [hpart] at hasked
          cases hasked
          refine .passed c rfl (reaches.call call) ?_
          rw [stage]
          exact ⟨hpurpose, hsource, hpart⟩
  · rw [getElem?_setProbe_of_ne _ _ hi] at hprobe
    refine .before passed c (reaches.call call) ?_ (quiet asks)
    rw [stage]
    exact ⟨hpurpose, hsource, hprobe⟩

/-- The call that goes on is the one that checks. -/
theorem Orderly.goes_since (h : w.Orderly) (ready : w.Ready e) (reaches : w.Reaches r)
    (goes : Goes r e key r') {c : Call} (call : r'.calls.get? key = some c)
    (checks : c.stage.Checks source part name passed) :
    Since w e r' key source part name passed := by
  have hset {c' : Call} {ls : List Event} {as : List Inquiry}
      {fs : List (CallKey × Outcome Reply)} (leaves : r'.Leaves (r.setCall key c') ls as fs) :
      c = c' := by
    rw [leaves.calls] at call
    exact Option.some.inj (call.symm.trans (Keyed.get?_put_self _ _ _))
  have hgone {r₁ : Registry} {ls : List Event} {as : List Inquiry}
      {fs : List (CallKey × Outcome Reply)} (leaves : r'.Leaves (r₁.without key) ls as fs) :
      Since w e r' key source part name passed := by
    rw [leaves.calls] at call
    have hnone : (r₁.without key).calls.get? key = none :=
      (Keyed.get?_drop _ key key).trans (if_pos rfl)
    rw [hnone] at call
    cases call
  cases goes with
  | activating n p starts holds found leaves =>
      obtain rfl := hset leaves
      obtain ⟨rfl, rfl, rfl, rfl⟩ := checks
      refine .asked p ?_ (reaches.named h found) leaves.asks ?_
        (leaves.plugins.trans reaches.plugins)
      · rw [← reaches.lookup]
        exact found
      · rw [(reaches.starts h ready starts).2.2.1]
        exact fun q hq => nomatch hq
  | probing purpose names starts holds distinct suits leaves =>
      obtain rfl := hset leaves
      obtain ⟨_, _, hpart⟩ := checks
      rw [List.getElem?_map] at hpart
      obtain ⟨n, _, heq⟩ := Option.map_eq_some_iff.1 hpart
      cases passed <;> cases heq
  | asking i purpose probes n progress p event hcall hpart found leaves =>
      obtain rfl := hset leaves
      exact h.asking_since ready reaches event hcall hpart found leaves checks
  | settling i c₀ purpose probes n progress ok event hcall stage hpart leaves =>
      obtain rfl := hset leaves
      exact settling_since ready reaches event hcall stage hpart leaves.asks checks
  | marking c₀ event hcall leaves =>
      obtain rfl := hset leaves
      exact .before passed c₀ (reaches.call hcall) checks (quiet leaves.asks)
  | reading c₀ ls as stage since later asked leaves =>
      obtain rfl := hset leaves
      exact absurd checks.locks (Stage.not_locks_of_reads stage)
  | activated i c₀ n event hcall stage leaves => exact hgone leaves
  | completing purpose probes reply event leaves => exact hgone leaves
  | ending outcome leaves => exact hgone leaves

theorem goes_calls (reaches : w.Reaches r) (goes : Goes r e key r') {k : CallKey} (hk : k ≠ key) :
    r'.calls.get? k = w.registry.calls.get? k := by
  have hset {c : Call} {ls : List Event} {as : List Inquiry}
      {fs : List (CallKey × Outcome Reply)} (leaves : r'.Leaves (r.setCall key c) ls as fs) :
      r'.calls.get? k = w.registry.calls.get? k := by
    rw [leaves.calls, ← reaches.calls]
    exact Keyed.get?_put_of_ne c hk
  have hgone {r₁ : Registry} {ls : List Event} {as : List Inquiry}
      {fs : List (CallKey × Outcome Reply)} (leaves : r'.Leaves (r₁.without key) ls as fs)
      (calls : r₁.calls = r.calls) : r'.calls.get? k = w.registry.calls.get? k := by
    rw [leaves.calls, ← reaches.calls, ← calls]
    exact (Keyed.get?_drop _ key k).trans (if_neg hk)
  cases goes with
  | activating n p starts holds found leaves => exact hset leaves
  | probing purpose names starts holds distinct suits leaves => exact hset leaves
  | asking i purpose probes n progress p event call part found leaves => exact hset leaves
  | settling i c purpose probes n progress ok event call stage part leaves => exact hset leaves
  | marking c event call leaves => exact hset leaves
  | reading c ls as stage since later asked leaves => exact hset leaves
  | activated i c n event call stage leaves => exact hgone leaves rfl
  | completing purpose probes reply event leaves =>
      refine hgone leaves ?_
      cases purpose <;> rfl
  | ending outcome leaves => exact hgone leaves rfl

theorem goes_asks (goes : Goes r e key r') : ∀ q ∈ r'.asks, q.key = key := by
  have hnone (h : r'.asks = []) : ∀ q ∈ r'.asks, q.key = key := by
    rw [h]
    exact fun q hq => nomatch hq
  cases goes with
  | activating n p starts holds found leaves =>
      rw [leaves.asks]
      exact fun q hq => (List.mem_singleton.1 hq) ▸ rfl
  | asking i purpose probes n progress p event call part found leaves =>
      rw [leaves.asks]
      exact fun q hq => (List.mem_singleton.1 hq) ▸ rfl
  | reading c ls as stage since later asked leaves =>
      rw [leaves.asks]
      exact asked
  | probing purpose names starts holds distinct suits leaves => exact hnone leaves.asks
  | settling i c purpose probes n progress ok event call stage part leaves =>
      exact hnone leaves.asks
  | marking c event call leaves => exact hnone leaves.asks
  | activated i c n event call stage leaves => exact hnone leaves.asks
  | completing purpose probes reply event leaves => exact hnone leaves.asks
  | ending outcome leaves => exact hnone leaves.asks

/-- A call that goes on leaves another one's check alone. -/
theorem goes_before (reaches : w.Reaches r) {k : CallKey} (goes : Goes r e k r') (hk : key ≠ k)
    {c : Call} (call : r'.calls.get? key = some c)
    (checks : c.stage.Checks source part name passed) :
    Since w e r' key source part name passed := by
  rw [goes_calls reaches goes hk] at call
  refine .before passed c call checks fun q hq hkey => ?_
  exact absurd (hkey.symm.trans (goes_asks goes q hq)) hk

theorem Orderly.since (h : w.Orderly) (ready : w.Ready e) {c : Call}
    (call : (w.react e).registry.calls.get? key = some c)
    (checks : c.stage.Checks source part name passed) :
    Since w e (w.registry.step w.buffers e) key source part name passed := by
  change (w.registry.step w.buffers e).calls.get? key = some c at call
  cases step_reacts h.outbox w.buffers e with
  | changed core event leaves =>
      rw [leaves.calls, altered_calls event] at call
      exact .before passed c call checks (quiet leaves.asks)
  | idle leaves =>
      rw [leaves.calls] at call
      exact .before passed c call checks (quiet leaves.asks)
  | queued k request held event busy leaves =>
      rw [leaves.calls] at call
      change (w.registry.calls.put k ⟨.queued held, false⟩).get? key = some c at call
      rw [Keyed.get?_put] at call
      split at call
      · cases call
        cases checks
      · exact .before passed c call checks (quiet leaves.asks)
  | withdrawn k event leaves =>
      rw [leaves.calls] at call
      change (w.registry.calls.drop k).get? key = some c at call
      rw [Keyed.get?_drop] at call
      split at call
      · cases call
      · exact .before passed c call checks (quiet leaves.asks)
  | enters k request event free goes =>
      by_cases hk : key = k
      · subst hk
        exact h.goes_since ready (reaches_taken free key) goes call checks
      · exact goes_before (reaches_taken free k) goes hk call checks
  | goes k goes =>
      by_cases hk : key = k
      · subst hk
        exact h.goes_since ready h.reaches goes call checks
      · exact goes_before h.reaches goes hk call checks

end World

end Shellwright.Registry
