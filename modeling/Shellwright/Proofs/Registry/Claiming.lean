import Shellwright.Proofs.Registry.Changes
import Shellwright.Proofs.Registry.Replacing
/-!
# Calls that claim the registry

A call that is not one that only reads claims the registry until it is over. No name becomes active but
with the end of such a call. A replacement changes nothing before it completes, and one that is called off
changes nothing at all.
-/

namespace Shellwright.Registry

section Claiming

variable {r r' r'' : Registry} {e : Event} {key : CallKey} {name : String}

/-- The call is under way, and does more than read. -/
def Claims (r : Registry) (key : CallKey) : Prop :=
  ∃ c, r.calls.get? key = some c ∧ c.stage.reads = false

theorem Claims.of_calls (h : r'.Claims key) (same : r'.calls.get? key = r.calls.get? key) :
    r.Claims key := by
  obtain ⟨c, hcall, hreads⟩ := h
  exact ⟨c, same.symm.trans hcall, hreads⟩

theorem not_claims_of_gone (gone : r.calls.get? key = none) : ¬r.Claims key := by
  rintro ⟨c, hcall, -⟩
  rw [gone] at hcall
  cases hcall

theorem not_claims_of_reads {c : Call} (call : r.calls.get? key = some c)
    (reads : c.stage.reads = true) : ¬r.Claims key := by
  rintro ⟨c', hcall, hreads⟩
  cases call.symm.trans hcall
  rw [reads] at hreads
  cases hreads

theorem Starts.claims (starts : r.Starts e key) :
    r.Claims key ∨ ∃ request, e = .call key request := by
  rcases starts with hnew | ⟨_, c, request, hcall, hstage⟩
  · exact .inr hnew
  · exact .inl ⟨c, hcall, by rw [hstage]; rfl⟩

/-! ## Claims are made by calls -/

theorem Goes.claims (goes : Goes r e key r') (claims : r'.Claims key) :
    r.Claims key ∨ ∃ request, e = .call key request := by
  cases goes with
  | activating name p starts holds found leaves => exact starts.claims
  | probing purpose names starts holds distinct suits leaves => exact starts.claims
  | asking i purpose probes name progress p event call part found leaves =>
      exact .inl ⟨_, call, rfl⟩
  | settling i c purpose probes name progress ok event call stage part leaves =>
      exact .inl ⟨c, call, by rw [stage]; rfl⟩
  | marking c event call leaves =>
      obtain ⟨c', hcall, hreads⟩ := claims
      rw [leaves.calls, setCall, Keyed.get?_put_self] at hcall
      cases hcall
      exact .inl ⟨c, call, hreads⟩
  | reading c ls as stage since later asked leaves =>
      refine absurd claims (not_claims_of_reads (c := c) ?_ stage)
      rw [leaves.calls]
      exact Keyed.get?_put_self _ _ _
  | activated i c name event call stage leaves =>
      refine absurd claims (not_claims_of_gone ?_)
      rw [leaves.calls]
      exact (Keyed.get?_drop _ _ _).trans (if_pos rfl)
  | completing purpose probes reply event leaves =>
      refine absurd claims (not_claims_of_gone ?_)
      rw [leaves.calls]
      exact (Keyed.get?_drop _ _ _).trans (if_pos rfl)
  | ending outcome leaves =>
      refine absurd claims (not_claims_of_gone ?_)
      rw [leaves.calls]
      exact (Keyed.get?_drop _ _ _).trans (if_pos rfl)

/-- A call that only reads makes no claim. -/
theorem Reads.not_claims (reads : Reads r key r') (claims : r'.Claims key) : r.Claims key := by
  cases reads with
  | idle leaves => exact claims.of_calls (by rw [leaves.calls])
  | goes c ls as stage later asked leaves =>
      refine absurd claims (not_claims_of_reads (c := c) ?_ stage)
      rw [leaves.calls]
      exact Keyed.get?_put_self _ _ _
  | ends outcome leaves =>
      refine absurd claims (not_claims_of_gone ?_)
      rw [leaves.calls]
      exact (Keyed.get?_drop _ _ _).trans (if_pos rfl)

theorem step_claims (h : r.outbox = []) (buffers : Buffers)
    (old : ∀ request, e = .call key request → request.reads = true)
    (claims : (r.step buffers e).Claims key) : r.Claims key := by
  by_cases hnew : ∃ request, e = .call key request
  · obtain ⟨request, rfl⟩ := hnew
    exact (call_reads h buffers (old request rfl)).not_claims claims
  · cases hkey : e.key? with
    | none => exact claims.of_calls (by rw [(step_unkeyed h buffers hkey).1])
    | some k =>
        by_cases hk : k = key
        · subst hk
          cases step_reacts h buffers e with
          | changed core event leaves =>
              exact claims.of_calls (by rw [leaves.calls, altered_calls event])
          | idle leaves => exact claims.of_calls (by rw [leaves.calls])
          | queued k' request held event busy leaves =>
              subst event
              cases hkey
              exact absurd ⟨request, rfl⟩ hnew
          | enters k' request event free goes =>
              subst event
              cases hkey
              exact absurd ⟨request, rfl⟩ hnew
          | goes k' goes about =>
              obtain rfl : k = k' := Option.some.inj (hkey.symm.trans about)
              exact (goes.claims claims).resolve_right hnew
          | withdrawn k' event leaves =>
              subst event
              cases hkey
              refine absurd claims (not_claims_of_gone ?_)
              rw [leaves.calls]
              exact (Keyed.get?_drop _ _ _).trans (if_pos rfl)
        · exact claims.of_calls ((step_touches h buffers hkey).others key (Ne.symm hk))

/-! ## Names become active by claims -/

theorem mem_settle_nil {purpose : ProbePurpose} (h : name ∈ (r.settle purpose []).active) :
    name ∈ r.active := by
  cases purpose with
  | activateAll => simpa [settle, probed] using h
  | reactivate => cases h
  | replace fresh => cases h
  | available => exact h

theorem Goes.activates (goes : Goes r e key r') (active : name ∈ r'.active) :
    name ∈ r.active ∨ r.Claims key ∧ r'.calls.get? key = none := by
  cases goes with
  | activated i c name' event call stage leaves =>
      refine .inr ⟨⟨c, call, by rw [stage]; rfl⟩, ?_⟩
      rw [leaves.calls]
      exact (Keyed.get?_drop _ _ _).trans (if_pos rfl)
  | completing purpose probes reply event leaves =>
      rcases event with ⟨-, call⟩ | ⟨rfl, -⟩
      · refine .inr ⟨⟨_, call, rfl⟩, ?_⟩
        rw [leaves.calls]
        exact (Keyed.get?_drop _ _ _).trans (if_pos rfl)
      · rw [leaves.active] at active
        exact .inl (mem_settle_nil active)
  | activating name' p starts holds found leaves => exact .inl (leaves.active ▸ active)
  | probing purpose names starts holds distinct suits leaves => exact .inl (leaves.active ▸ active)
  | asking i purpose probes name' progress p event call part found leaves =>
      exact .inl (leaves.active ▸ active)
  | settling i c purpose probes name' progress ok event call stage part leaves =>
      exact .inl (leaves.active ▸ active)
  | marking c event call leaves => exact .inl (leaves.active ▸ active)
  | reading c ls as stage since later asked leaves => exact .inl (leaves.active ▸ active)
  | ending outcome leaves => exact .inl (leaves.active ▸ active)

theorem step_activates (h : r.outbox = []) (buffers : Buffers)
    (active : name ∈ (r.step buffers e).active) :
    name ∈ r.active ∨ ∃ key, r.Claims key ∧ (r.step buffers e).calls.get? key = none := by
  cases step_reacts h buffers e with
  | changed core event leaves =>
      rw [leaves.active] at active
      exact .inl (altered_active event active).1
  | idle leaves => exact .inl (leaves.active ▸ active)
  | queued k request held event busy leaves => exact .inl (leaves.active ▸ active)
  | enters k request event free goes =>
      exact (goes.activates active).imp_right fun h => ⟨k, h⟩
  | goes k goes about => exact (goes.activates active).imp_right fun h => ⟨k, h⟩
  | withdrawn k event leaves => exact .inl (leaves.active ▸ active)

/-! ## Registries that are left alone -/

/-- No call has come to claim the registry, and what is active was so before or has become so with the
end of a call that claimed it. -/
structure Wanes (r r' : Registry) : Prop where
  claims : ∀ key, r'.Claims key → r.Claims key
  active : ∀ name ∈ r'.active, name ∈ r.active ∨ ∃ key, r.Claims key ∧ ¬r'.Claims key

theorem Wanes.refl (r : Registry) : r.Wanes r := ⟨fun _ h => h, fun _ h => .inl h⟩

theorem Wanes.trans (h : r.Wanes r') (h' : r'.Wanes r'') : r.Wanes r'' where
  claims key hclaims := h.claims key (h'.claims key hclaims)
  active name hactive := by
    rcases h'.active name hactive with hactive | ⟨key, hclaims, hover⟩
    · rcases h.active name hactive with hactive | ⟨key, hclaims, hover⟩
      · exact .inl hactive
      · exact .inr ⟨key, hclaims, fun hlater => hover (h'.claims key hlater)⟩
    · exact .inr ⟨key, h.claims key hclaims, hover⟩

theorem deactivateAll_wanes (r : Registry) : r.Wanes r.deactivateAll :=
  ⟨fun _ h => h, fun _ h => nomatch h⟩

/-- A step that is no new call, or a call that only reads. -/
theorem step_wanes (h : r.outbox = []) (buffers : Buffers)
    (old : ∀ key request, e = .call key request → request.reads = true) :
    r.Wanes { r.step buffers e with outbox := [] } where
  claims _ hclaims := step_claims h buffers (old _) hclaims
  active _ hactive := (step_activates h buffers hactive).imp_right fun ⟨key, hclaims, hgone⟩ =>
    ⟨key, hclaims, not_claims_of_gone (r := r.step buffers e) hgone⟩

end Claiming

/-! ## Replacements that are called off -/

/-- The call is to replace all plugins. -/
def Stage.replaces : Stage → Bool
  | .queued (.replace ..) => true
  | .probing (.replace _) _ => true
  | _ => false

variable {r r₁ r' : Registry} {e : Event} {n : Nat}

/-- What a step makes of the replacement: it goes on, completes, or has been called off. -/
inductive Replaces (r : Registry) (key : CallKey) (r' : Registry) : Prop
  | goes (c : Call) (call : r'.calls.get? key = some c) (replaces : c.stage.replaces = true)
      (plugins : r'.plugins = r.plugins) (active : r'.active = r.active) (finishes : r'.finishes = [])
  | completes (count : Nat) (finishes : r'.finishes = [(key, .done (.count count))])
  | withdrawn (gone : r'.calls.get? key = none) (plugins : r'.plugins = r.plugins)
      (active : r'.active = r.active) (finishes : r'.finishes = [(key, .aborted)])

variable {key : CallKey}

theorem Leaves.replaces_goes {c : Call} {ls : List Event} {as : List Inquiry}
    (h : r'.Leaves (r.setCall key c) ls as []) (replaces : c.stage.replaces = true) :
    Replaces r key r' := by
  refine .goes c ?_ replaces h.plugins h.active h.finishes
  rw [h.calls]
  exact Keyed.get?_put_self _ _ _

theorem Leaves.replaces_withdrawn {core : Registry} {ls : List Event}
    (h : r'.Leaves (core.without key) ls [] [(key, .aborted)]) (plugins : core.plugins = r.plugins)
    (active : core.active = r.active) : Replaces r key r' := by
  refine .withdrawn ?_ (h.plugins.trans plugins) (h.active.trans active) h.finishes
  rw [h.calls]
  exact (Keyed.get?_drop _ _ _).trans (if_pos rfl)

/-- A replacement comes to the lock. -/
theorem enter_replaces (h : r₁.Leaves r [] [] []) (plugins : List Plugin)
    (names : Option (List String)) : Replaces r (.host n) (r₁.enter (.host n) (.replace plugins names)) := by
  rcases Replacement.enter_leaves h ⟨n, plugins, names⟩ with ⟨-, hleaves⟩ | hleaves
  · exact .completes 0 hleaves.finishes
  · exact hleaves.replaces_goes rfl

/-- No step changes anything before the replacement completes. -/
theorem step_replaces (h : r.outbox = []) (buffers : Buffers) {c : Call}
    (call : r.calls.get? (.host n) = some c) (replaces : c.stage.replaces = true)
    (event : e.key? = some (.host n)) (old : ∀ request, e ≠ .call (.host n) request) :
    Replaces r (.host n) (r.step buffers e) := by
  have hstart := Leaves.start h
  have hidle : Replaces r (.host n) r := .goes c call replaces rfl rfl hstart.finishes
  have hended : Replaces r (.host n) (r.finish (.host n) .aborted) :=
    (hstart.finish (.host n) .aborted).replaces_withdrawn rfl rfl
  have hcall (f : Call → Registry) (hf : Replaces r (.host n) (f c)) :
      Replaces r (.host n) (r.withCall (.host n) f) := by
    unfold withCall
    rw [call]
    exact hf
  obtain ⟨stage, aborting⟩ := c
  cases e with
  | call k request =>
      cases event
      exact absurd rfl (old request)
  | granted k =>
      cases event
      refine hcall _ ?_
      split
      · rename_i request hstage
        change stage = .queued request at hstage
        subst hstage
        cases request with
        | replace plugins names => exact enter_replaces hstart plugins names
        | _ => cases replaces
      · exact hidle
  | begin k i =>
      cases event
      refine hcall _ ?_
      unfold Registry.begin
      split
      · exact hended
      · cases stage with
        | queued request => exact hidle
        | probing purpose probes =>
            cases purpose with
            | replace fresh =>
                simp only
                split
                · exact hidle
                · split
                  · exact (settleProbe_leaves (hstart.log _ _) _ _ probes i false).replaces_goes rfl
                  · exact ((hstart.setCall (.host n) _).ask (.host n) i _ .available).replaces_goes rfl
            | _ => cases replaces
        | _ => cases replaces
  | answered k i a =>
      cases event
      refine hcall _ ?_
      unfold Registry.answered
      cases stage with
      | queued request => exact hidle
      | probing purpose probes =>
          cases purpose with
          | replace fresh =>
              simp only
              split
              · exact hidle
              · rename_i name _ _
                exact (settleProbe_leaves (availability_leaves hstart name a).1 _ _ probes i
                  _).replaces_goes rfl
          | _ => cases replaces
      | _ => cases replaces
  | stopped k i =>
      cases event
      refine hcall _ ?_
      split
      · exact hended
      · exact hidle
  | gathered k =>
      cases event
      refine hcall _ ?_
      unfold Registry.gathered
      split
      · exact hended
      · cases stage with
        | queued request => exact hidle
        | probing purpose probes =>
            cases purpose with
            | replace fresh => exact .completes _ (completeReplacement_leaves hstart fresh probes).finishes
            | _ => cases replaces
        | _ => cases replaces
  | abort k =>
      cases event
      refine hcall _ ?_
      unfold Registry.abort
      cases stage with
      | queued request =>
          have hlock := hstart.withLock
            { r.lock with waiting := r.lock.waiting.filter (· != .host n) }
          exact (hlock.finish (.host n) .aborted).replaces_withdrawn rfl rfl
      | probing purpose probes =>
          cases purpose with
          | replace fresh =>
              exact ((hstart.setCall (.host n) ⟨.probing (.replace fresh) probes, true⟩).quits (.host n)
                _).replaces_goes rfl
          | _ => cases replaces
      | _ => cases replaces
  | _ => cases event

/-! ## One replacement among runs -/

/-- The event follows from what has been asked for, or is the check of a run. -/
def Event.follows : Event → Bool
  | .call (.run _) request => request.reads
  | .granted _ => true
  | .begin .. => true
  | .answered .. => true
  | .stopped .. => true
  | .gathered _ => true
  | _ => false

/-- What a step makes of a registry in which the host has called for one replacement at most. -/
inductive Spares (n : Nat) (r r' : Registry) : Prop
  | still (plugins : r'.plugins = r.plugins) (active : r'.active = r.active)
      (hosts : ∀ m, r'.calls.get? (.host m) = r.calls.get? (.host m))
      (ends : ∀ m outcome, (.host m, outcome) ∉ r'.finishes)
  | moves (call : r.calls.get? (.host n) ≠ none) (replaces : Replaces r (.host n) r')
      (others : ∀ m, m ≠ n → r'.calls.get? (.host m) = r.calls.get? (.host m))

theorem Reads.spares {k : Nat} (reads : Reads r (.run k) r') : Spares n r r' := by
  cases reads with
  | idle leaves =>
      refine .still leaves.plugins leaves.active (fun m => by rw [leaves.calls]) ?_
      rw [leaves.finishes]
      nofun
  | goes c ls as stage later asked leaves =>
      refine .still leaves.plugins leaves.active (fun m => ?_) ?_
      · rw [leaves.calls]
        exact Keyed.get?_put_of_ne c (by nofun)
      · rw [leaves.finishes]
        nofun
  | ends outcome leaves =>
      refine .still leaves.plugins leaves.active (fun m => ?_) fun m outcome' hended => ?_
      · rw [leaves.calls]
        exact (Keyed.get?_drop _ _ _).trans (if_neg (by nofun))
      · rw [leaves.finishes] at hended
        cases List.mem_singleton.1 hended

/-- Only the replacement can change anything, and it may be called off. -/
theorem step_spares (h : r.outbox = []) (buffers : Buffers) (runs : ∀ k, ¬r.Claims (.run k))
    (others : ∀ m, m ≠ n → r.calls.get? (.host m) = none)
    (replaces : ∀ c, r.calls.get? (.host n) = some c → c.stage.replaces = true)
    (event : e.follows = true ∨ e = .abort (.host n)) : Spares n r (r.step buffers e) := by
  have hstart := Leaves.start h
  have hidle : Spares n r r := by
    refine .still rfl rfl (fun _ => rfl) ?_
    rw [hstart.finishes]
    nofun
  have habsent {key : CallKey} (hkey : e.key? = some key) (hnone : r.calls.get? key = none)
      (hold : ∀ request, e ≠ .call key request) : Spares n r (r.step buffers e) := by
    rw [step_absent buffers hkey hold hnone]
    exact hidle
  obtain ⟨key, hkey⟩ : ∃ key, e.key? = some key := by
    rcases event with hfollows | rfl
    · cases e <;> first | exact ⟨_, rfl⟩ | cases hfollows
    · exact ⟨_, rfl⟩
  cases key with
  | run k =>
      by_cases hnew : ∃ request, e = .call (.run k) request
      · obtain ⟨request, rfl⟩ := hnew
        exact (call_reads h buffers (event.resolve_right nofun)).spares
      · have hold (request : Request) : e ≠ .call (.run k) request := fun heq => hnew ⟨request, heq⟩
        cases hcall : r.calls.get? (.run k) with
        | none => exact habsent hkey hcall hold
        | some c =>
            have hreads : c.stage.reads = true := by
              cases hreads : c.stage.reads with
              | true => rfl
              | false => exact absurd ⟨c, hcall, hreads⟩ (runs k)
            refine (step_reads h buffers hcall hreads hkey hold ?_).spares
            rintro rfl
            exact event.elim nofun nofun
  | host m =>
      have hold (request : Request) : e ≠ .call (.host m) request := by
        rintro rfl
        exact event.elim nofun nofun
      cases hcall : r.calls.get? (.host m) with
      | none => exact habsent hkey hcall hold
      | some c =>
          by_cases hm : m = n
          · subst hm
            refine .moves (by rw [hcall]; nofun)
              (step_replaces h buffers hcall (replaces c hcall) hkey hold) fun k hk => ?_
            exact (step_touches h buffers hkey).others _ fun heq => hk (CallKey.host.inj heq)
          · rw [others m hm] at hcall
            cases hcall

end Shellwright.Registry
