import Shellwright.Proofs.Registry.Replacing
/-!
# Replacements take effect in order

Every step leaves the line as it is, lets a replacement join it at its end, or lets the first of the line
put its plugins in place.
-/

namespace Shellwright.Registry

theorem mem_setProbe {probes : List (String × Progress Bool)} {i : Nat} {progress : Progress Bool}
    {entry : String × Progress Bool} (h : entry ∈ setProbe probes i progress) :
    entry ∈ probes ∨ ∃ name old, probes[i]? = some (name, old) ∧ entry = (name, progress) := by
  obtain ⟨j, hj⟩ := List.mem_iff_getElem?.1 h
  by_cases hji : j = i
  · subst hji
    cases hpart : probes[j]? with
    | none => simp [setProbe, hpart] at hj
    | some part =>
        obtain ⟨name, old⟩ := part
        rw [World.getElem?_setProbe_self hpart] at hj
        exact .inr ⟨name, old, rfl, (Option.some.inj hj).symm⟩
  · rw [World.getElem?_setProbe_of_ne probes progress hji] at hj
    exact .inl (List.mem_of_getElem? hj)

/-- While a part has not answered they have not all. -/
theorem not_allSettled {probes : List (String × Progress Bool)} {i : Nat} {name : String}
    {progress : Progress Bool} (part : probes[i]? = some (name, progress))
    (unsettled : progress.result? = none) : allSettled probes ≠ true := by
  intro hall
  have hsettled := List.all_eq_true.1 hall _ (List.mem_of_getElem? part)
  simp [unsettled] at hsettled

/-- A call that waits for the lock does nothing until the lock comes to it. -/
theorem step_queued {r : Registry} {e : Event} {key : CallKey} (buffers : Buffers)
    {request : Request} (call : r.calls.get? key = some ⟨.queued request, false⟩)
    (event : e.key? = some key) (tame : e.tame = true) (old : ∀ request, e ≠ .call key request)
    (waits : e ≠ .granted key) : r.step buffers e = r := by
  cases e with
  | call k request' =>
      cases event
      exact absurd rfl (old request')
  | granted k =>
      cases event
      exact absurd rfl waits
  | begin k i =>
      cases event
      simp [step, withCall, call, Registry.begin]
  | answered k i a =>
      cases event
      simp [step, withCall, call, Registry.answered]
  | gathered k =>
      cases event
      simp [step, withCall, call, Registry.gathered]
  | _ => cases tame

/-- A tame event begins a replacement or a call that reads, or it is about a call under way. -/
theorem Event.tame_cases {e : Event} (h : e.tame = true) :
    (∃ o : Replacement, e = .call o.key o.request) ∨
      (∃ key request, e = .call key request ∧ request.reads = true) ∨
        ∃ key, e.key? = some key ∧ (∀ request, e ≠ .call key request) ∧ e ≠ .abort key := by
  cases e with
  | call key request =>
      cases key with
      | host n =>
          cases request with
          | replace plugins names => exact .inl ⟨⟨n, plugins, names⟩, rfl⟩
          | _ => exact .inr (.inl ⟨_, _, rfl, h⟩)
      | run k => exact .inr (.inl ⟨_, _, rfl, by cases request <;> exact h⟩)
  | granted key => exact .inr (.inr ⟨key, rfl, nofun, nofun⟩)
  | begin key i => exact .inr (.inr ⟨key, rfl, nofun, nofun⟩)
  | answered key i a => exact .inr (.inr ⟨key, rfl, nofun, nofun⟩)
  | gathered key => exact .inr (.inr ⟨key, rfl, nofun, nofun⟩)
  | _ => cases h

theorem Event.replacement?_of_reads {key : CallKey} {request : Request}
    (h : request.reads = true) : (Event.call key request).replacement? = none := by
  cases key with
  | run k => rfl
  | host n =>
      cases request with
      | replace plugins names => cases h
      | _ => rfl

theorem Event.replacement?_of_old {e : Event} {key : CallKey} (event : e.key? = some key)
    (old : ∀ request, e ≠ .call key request) : e.replacement? = none := by
  cases e with
  | call k request =>
      cases event
      exact absurd rfl (old request)
  | _ => rfl

namespace World

variable {may : Plugin → Bool → Prop} {w w' : World} {e : Event} {r r₁ r' : Registry}
  {key : CallKey} {o : Replacement} {os rest : List Replacement}
  {probes : List (String × Progress Bool)} {i : Nat}

/-- The event comes as it has to for the replacements of the line. -/
structure Due (may : Plugin → Bool → Prop) (w : World) (os : List Replacement) (e : Event) :
    Prop where
  ready : w.Ready e
  early : ∀ key request, e = .call key request → .gathered key ∉ w.due
  answered : ∀ o ∈ os, ∀ probes i a name progress, e = .answered o.key i a → Asks may w o probes →
    probes[i]? = some (name, progress) → ∃ p, o.fresh.get? name = some p ∧ may p a.affirms
  gathered : ∀ o ∈ os, ∀ probes, e = .gathered o.key → Asks may w o probes →
    allSettled probes = true

/-- What a step makes of the line: the line stays, or its first replacement takes effect. -/
inductive Advances (may : Plugin → Bool → Prop) (w : World) (os : List Replacement)
    (r' : Registry) : Prop
  | stays (line : (w.after r').Line may os) (plugins : r'.plugins = w.registry.plugins)
      (active : r'.active = w.registry.active)
      (quiet : ∀ ending ∈ r'.finishes, ending.1 ∉ os.map Replacement.key)
  | replaced (o : Replacement) (rest : List Replacement) (first : os = o :: rest)
      (line : (w.after r').Line may rest) (apart : o.key ∉ rest.map Replacement.key)
      (plugins : r'.plugins = o.fresh)
      (active : ∀ available : Plugin → Bool, (∀ p ok, may p ok → ok = available p) →
        r'.active = o.passing available)
      (count : Nat) (finishes : r'.finishes = [(o.key, .done (.count count))])

/-! ## Calls beside the line -/

theorem Line.idle (h : w.Line may os) (leaves : r'.Leaves w.registry [] [] [])
    (orderly : (w.after r').Orderly) : Advances may w os r' := by
  refine .stays (h.frame orderly leaves.lock ?_ ?_) leaves.plugins leaves.active ?_
  · exact fun o _ => spares_after leaves rfl (by simp) (by simp)
  · change ∀ key c, r'.calls.get? key = some c → _
    rw [leaves.calls]
    exact h.others
  · rw [leaves.finishes]
    simp

theorem Line.aside (h : w.Line may os) (reads : Reads w.registry key r')
    (apart : key ∉ os.map Replacement.key) (orderly : (w.after r').Orderly) :
    Advances may w os r' := by
  have hne : ∀ o ∈ os, o.key ≠ key := fun o ho heq => apart (heq ▸ List.mem_map_of_mem ho)
  cases reads with
  | idle leaves => exact h.idle leaves orderly
  | goes c ls as stage later asked leaves =>
      refine .stays (h.frame orderly leaves.lock ?_ ?_) leaves.plugins leaves.active ?_
      · intro o ho
        refine spares_after leaves (Keyed.get?_put_of_ne c (hne o ho)) ?_ ?_
        · exact fun hl => hne o ho (Option.some.inj (later _ hl))
        · exact fun q hq heq => hne o ho (heq.symm.trans (asked q hq))
      · intro k c' hcall
        change r'.calls.get? k = some c' at hcall
        rw [leaves.calls] at hcall
        change (w.registry.calls.put key c).get? k = some c' at hcall
        rw [Keyed.get?_put] at hcall
        split at hcall
        · cases hcall
          exact .inl stage
        · exact h.others k c' hcall
      · rw [leaves.finishes]
        simp
  | ends outcome leaves =>
      -- The lock is with the first of the line, if with any call.
      have hholder : w.registry.lock.holder ≠ some key := by
        rw [h.lock]
        intro hhead
        obtain ⟨o, ho, hkey⟩ := Option.map_eq_some_iff.1 hhead
        exact hne o (List.mem_of_mem_head? ho) hkey
      refine .stays (h.frame orderly ?_ ?_ ?_) leaves.plugins leaves.active ?_
      · exact leaves.lock.trans (if_neg hholder)
      · intro o ho
        refine spares_after leaves ?_ (not_mem_grants _) (by simp)
        exact (Keyed.get?_drop _ _ _).trans (if_neg (hne o ho))
      · intro k c hcall
        change r'.calls.get? k = some c at hcall
        rw [leaves.calls] at hcall
        change (w.registry.calls.drop key).get? k = some c at hcall
        rw [Keyed.get?_drop] at hcall
        split at hcall
        · cases hcall
        · exact h.others k c hcall
      · rw [leaves.finishes]
        simpa using apart

/-! ## The first of the line -/

theorem Heads.enters (h : w.Heads r o rest) (leaves : r₁.Leaves r [] [] [])
    (orderly : (w.after (r₁.enter o.key o.request)).Orderly) (early : .gathered o.key ∉ w.due)
    (unasked : w.inquiriesOf o.key = []) :
    Advances may w (o :: rest) (r₁.enter o.key o.request) := by
  rcases o.enter_leaves leaves with ⟨hnone, hleaves⟩ | hleaves
  · refine .replaced o rest rfl (h.gone hleaves orderly) (List.nodup_cons.1 h.distinct).1
      hleaves.plugins ?_ 0 hleaves.finishes
    intro available _
    rw [hleaves.active, Replacement.passing, hnone]
    rfl
  · have hlater : ∀ l ∈ (List.range o.wanted.length).map (Event.begin o.key ·),
        ∃ i, l = .begin o.key i := by
      intro l hl
      obtain ⟨i, _, rfl⟩ := List.mem_map.1 hl
      exact ⟨i, rfl⟩
    refine .stays (h.asks hleaves ?_ (by simp) orderly
        (.inr ⟨o.wanted.map (·, .waiting), ?_⟩))
      (hleaves.plugins.trans h.plugins) (hleaves.active.trans h.active) ?_
    · intro l hl
      obtain ⟨i, rfl⟩ := hlater l hl
      rfl
    · refine ⟨?_, ?_, ?_, ?_, ?_⟩
      · change (r₁.enter o.key o.request).calls.get? o.key = _
        rw [hleaves.calls]
        exact Keyed.get?_put_self _ _ _
      · rw [List.map_map]
        exact List.map_id o.wanted
      · intro name ok hmem
        obtain ⟨other, _, heq⟩ := List.mem_map.1 hmem
        cases heq
      · intro q hq hkey
        have hmem : q ∈ (w.after (r₁.enter o.key o.request)).inquiriesOf o.key :=
          List.mem_filter.2 ⟨hq, by simpa using hkey⟩
        rw [inquiriesOf_after hleaves, unasked] at hmem
        cases hmem
      · intro hdue
        rcases List.mem_append.1 hdue with hdue | hdue
        · exact absurd hdue early
        · rw [hleaves.laters] at hdue
          obtain ⟨i, heq⟩ := hlater _ hdue
          cases heq
    · rw [hleaves.finishes]
      simp

/-- The instance that a replacement is to ask is a new one. -/
theorem Asks.found (h : Asks may w o probes) (orderly : w.Orderly) {name : String}
    {progress : Progress Bool} (part : probes[i]? = some (name, progress)) :
    ∃ p, o.fresh.get? name = some p ∧ p.name = name := by
  have hsuits := ((orderly.fits o.key _ h.call).probing _ _ rfl).suits o.fresh rfl
  have hmem : name ∈ probes.map Prod.fst :=
    List.mem_map.2 ⟨(name, progress), List.mem_of_getElem? part, rfl⟩
  obtain ⟨p, hfound⟩ := (Keyed.has_iff o.fresh name).1 (hsuits.1 name hmem)
  exact ⟨p, hfound, hsuits.2 name p hfound⟩

theorem Line.begins (h : w.Line may (o :: rest)) (asks : Asks may w o probes)
    (ready : w.Ready (.begin o.key i))
    (orderly : (w.after (w.registry.step w.buffers (.begin o.key i))).Orderly) :
    Advances may w (o :: rest) (w.registry.step w.buffers (.begin o.key i)) := by
  obtain ⟨_, name, hpart⟩ := ready _ _ _ asks.call rfl
  obtain ⟨p, hfound, hname⟩ := asks.found h.orderly hpart
  have hstep : w.registry.step w.buffers (.begin o.key i) = (w.registry.setCall o.key
      ⟨.probing (.replace o.fresh) (setProbe probes i .asked), false⟩).emit
        (.ask o.key i p .available) := by
    simp [Registry.step, Registry.withCall, asks.call, Registry.begin, hpart, probedPlugin, hfound]
  rw [hstep] at orderly ⊢
  have hleaves := ((Leaves.start h.orderly.outbox).setCall o.key
    ⟨.probing (.replace o.fresh) (setProbe probes i .asked), false⟩).ask o.key i p .available
  refine .stays (h.heads.asks hleaves (by simp) (by simp) orderly
    (.inr ⟨setProbe probes i .asked, ?_⟩)) rfl rfl ?_
  · refine ⟨Keyed.get?_put_self _ _ _, ?_, ?_, ?_, ?_⟩
    · rw [map_fst_setProbe, asks.names]
    · intro name' ok hmem
      rcases mem_setProbe hmem with hmem | ⟨_, _, _, heq⟩
      · exact asks.settled name' ok hmem
      · cases heq
    · intro q hq hkey
      rcases List.mem_append.1 hq with hq | hq
      · exact asks.asked q hq hkey
      · rw [hleaves.asks] at hq
        obtain rfl := List.mem_singleton.1 hq
        exact ⟨hname ▸ hfound, rfl⟩
    · intro hdue
      rcases List.mem_append.1 hdue with hdue | hdue
      · exact absurd (asks.gathered hdue) (not_allSettled hpart rfl)
      · rw [hleaves.laters] at hdue
        cases hdue
  · rw [hleaves.finishes]
    simp

theorem Line.settles (h : w.Line may (o :: rest)) (asks : Asks may w o probes) {a : Answer}
    (due : w.Due may (o :: rest) (.answered o.key i a))
    (orderly : (w.after (w.registry.step w.buffers (.answered o.key i a))).Orderly) :
    Advances may w (o :: rest) (w.registry.step w.buffers (.answered o.key i a)) := by
  obtain ⟨_, name, hpart⟩ := due.ready _ _ _ asks.call rfl
  obtain ⟨p, hfound, hmay⟩ := due.answered o List.mem_cons_self probes i a name _ rfl asks hpart
  have hstep : w.registry.step w.buffers (.answered o.key i a) =
      (w.registry.availability name a).1.settleProbe o.key
        ⟨.probing (.replace o.fresh) probes, false⟩ (.replace o.fresh) probes i a.affirms := by
    simp [Registry.step, Registry.withCall, asks.call, Registry.answered, hpart, availability_snd]
  rw [hstep] at orderly ⊢
  have hleaves : ((w.registry.availability name a).1.settleProbe o.key _ _ _ _ _).Leaves _ _ _ _ :=
    settleProbe_leaves (availability_leaves (Leaves.start h.orderly.outbox) name a).1
      ⟨.probing (.replace o.fresh) probes, false⟩ (.replace o.fresh) probes i a.affirms
  generalize (w.registry.availability name a).1.settleProbe o.key _ _ _ _ _ = r'
    at hleaves orderly
  have hlater : ∀ l ∈ if allSettled (setProbe probes i (.settled a.affirms)) then
      [Event.gathered o.key] else [], l = .gathered o.key ∧
        allSettled (setProbe probes i (.settled a.affirms)) = true := by
    intro l hl
    split at hl
    · rename_i hall
      exact ⟨List.mem_singleton.1 hl, hall⟩
    · cases hl
  refine .stays (h.heads.asks hleaves ?_ (by simp) orderly
    (.inr ⟨setProbe probes i (.settled a.affirms), ?_⟩)) hleaves.plugins hleaves.active ?_
  · intro l hl
    rw [(hlater l hl).1]
    rfl
  · refine ⟨?_, ?_, ?_, ?_, ?_⟩
    · change r'.calls.get? o.key = _
      rw [hleaves.calls]
      exact Keyed.get?_put_self _ _ _
    · rw [map_fst_setProbe, asks.names]
    · intro name' ok hmem
      rcases mem_setProbe hmem with hmem | ⟨name'', _, hpart', heq⟩
      · exact asks.settled name' ok hmem
      · rw [hpart] at hpart'
        cases hpart'
        cases heq
        exact ⟨p, hfound, hmay⟩
    · intro q hq hkey
      rcases List.mem_append.1 hq with hq | hq
      · exact asks.asked q hq hkey
      · rw [hleaves.asks] at hq
        cases hq
    · intro hdue
      rcases List.mem_append.1 hdue with hdue | hdue
      · exact absurd (asks.gathered hdue) (not_allSettled hpart rfl)
      · rw [hleaves.laters] at hdue
        exact (hlater _ hdue).2
  · rw [hleaves.finishes]
    simp

theorem Line.gathers (h : w.Line may (o :: rest)) (asks : Asks may w o probes)
    (all : allSettled probes = true)
    (orderly : (w.after (w.registry.step w.buffers (.gathered o.key))).Orderly) :
    Advances may w (o :: rest) (w.registry.step w.buffers (.gathered o.key)) := by
  have hstep : w.registry.step w.buffers (.gathered o.key) =
      w.registry.completeProbes o.key (.replace o.fresh) probes := by
    simp [Registry.step, Registry.withCall, asks.call, Registry.gathered]
  rw [hstep] at orderly ⊢
  have hleaves : (w.registry.completeProbes o.key (.replace o.fresh) probes).Leaves _ _ _ _ :=
    completeReplacement_leaves (Leaves.start h.orderly.outbox) o.fresh probes
  refine .replaced o rest rfl (h.heads.gone hleaves orderly) (List.nodup_cons.1 h.distinct).1
    hleaves.plugins ?_ _ hleaves.finishes
  intro available fixed
  rw [hleaves.active]
  exact asks.passing all fixed

/-! ## The end of the line -/

theorem Line.call_of_mem (h : w.Line may os) (mem : o ∈ os) :
    ∃ c, w.registry.calls.get? o.key = some c ∧ c.stage.reads = false := by
  have hfirst : w.Waits o ∨ ∃ probes, Asks may w o probes := by
    cases os with
    | nil => cases mem
    | cons first rest =>
        rcases List.mem_cons.1 mem with rfl | hrest
        · exact h.front o rfl
        · exact .inl (h.rear o hrest)
  rcases hfirst with hwaits | ⟨probes, hasks⟩
  · exact ⟨_, hwaits.call, rfl⟩
  · exact ⟨_, hasks.call, rfl⟩

theorem Line.apart_of_absent (h : w.Line may os) (absent : w.registry.calls.get? key = none) :
    key ∉ os.map Replacement.key := by
  intro hmem
  obtain ⟨o, ho, rfl⟩ := List.mem_map.1 hmem
  obtain ⟨c, hcall, _⟩ := h.call_of_mem ho
  rw [absent] at hcall
  cases hcall

/-- A replacement that finds others under way waits behind them. -/
theorem Line.queues (h : w.Line may os)
    (leaves : r'.Leaves ({ w.registry with
      lock := { w.registry.lock with
        waiting := w.registry.lock.waiting ++ [o.key] } }.setCall o.key ⟨.queued o.request, false⟩)
      [] [] [])
    (busy : os ≠ []) (absent : w.registry.calls.get? o.key = none)
    (early : .gathered o.key ∉ w.due) (orderly : (w.after r').Orderly) :
    Advances may w (os ++ [o]) r' := by
  have hapart := h.apart_of_absent absent
  have hspares : ∀ o' ∈ os, w.Spares (w.after r') o'.key := by
    intro o' ho'
    refine spares_after leaves (Keyed.get?_put_of_ne _ ?_) (by simp) (by simp)
    exact fun heq => hapart (heq ▸ List.mem_map_of_mem ho')
  obtain ⟨first, rest, rfl⟩ := List.exists_cons_of_ne_nil busy
  refine .stays ⟨orderly, ?_, ?_, ?_, ?_, ?_⟩ leaves.plugins leaves.active ?_
  · change r'.lock = _
    rw [leaves.lock]
    change (⟨w.registry.lock.holder, w.registry.lock.waiting ++ [o.key]⟩ : Lock) = _
    rw [h.lock]
    simp
  · rw [List.map_append, List.nodup_append]
    refine ⟨h.distinct, by simp, ?_⟩
    intro key hkey key' hkey' heq
    rw [heq, List.mem_singleton.1 hkey'] at hkey
    exact hapart hkey
  · intro o' ho'
    obtain rfl := Option.some.inj ho'
    refine (h.front first rfl).imp (·.frame (hspares first List.mem_cons_self)) ?_
    rintro ⟨probes, hasks⟩
    exact ⟨probes, hasks.frame (hspares first List.mem_cons_self)⟩
  · intro o' ho'
    rcases List.mem_append.1 ho' with ho' | ho'
    · exact (h.rear o' ho').frame (hspares o' (List.mem_cons_of_mem _ ho'))
    · obtain rfl := List.mem_singleton.1 ho'
      refine ⟨?_, fun hdue => ?_⟩
      · change r'.calls.get? o'.key = _
        rw [leaves.calls]
        exact Keyed.get?_put_self _ _ _
      · rcases List.mem_append.1 hdue with hdue | hdue
        · exact early hdue
        · rw [leaves.laters] at hdue
          cases hdue
  · intro k c hcall
    change r'.calls.get? k = some c at hcall
    rw [leaves.calls] at hcall
    change (w.registry.calls.put o.key _).get? k = some c at hcall
    rw [Keyed.get?_put] at hcall
    split at hcall
    · rename_i hk
      rw [hk]
      exact .inr (by simp)
    · refine (h.others k c hcall).imp_right fun hmem => ?_
      rw [List.map_append]
      exact List.mem_append_left _ hmem
  · rw [leaves.finishes]
    simp

theorem Line.arrives (h : w.Line may os) (o : Replacement)
    (due : w.Due may os (.call o.key o.request))
    (orderly : (w.after (w.registry.step w.buffers (.call o.key o.request))).Orderly) :
    Advances may w (os ++ [o]) (w.registry.step w.buffers (.call o.key o.request)) := by
  obtain ⟨_, habsent, _, hunasked, _⟩ := due.ready
  have hearly := due.early o.key o.request rfl
  have hfresh := freshPlugins_leaves (Leaves.start h.orderly.outbox) [] o.plugins
  change (w.after ((w.registry.freshPlugins [] o.plugins).1.acquire o.key o.request)).Orderly
    at orderly
  change Advances may w _ ((w.registry.freshPlugins [] o.plugins).1.acquire o.key o.request)
  generalize (w.registry.freshPlugins [] o.plugins).1 = r₁ at hfresh orderly
  unfold acquire at orderly ⊢
  have hlock : r₁.lock = ⟨os.head?.map Replacement.key, os.tail.map Replacement.key⟩ :=
    hfresh.lock.trans h.lock
  cases os with
  | nil =>
      rw [if_pos (by rw [hlock]; rfl)] at orderly ⊢
      have hheads : w.Heads { w.registry with lock := ⟨some o.key, []⟩ } o [] := by
        refine ⟨rfl, rfl, rfl, rfl, by simp, by simp, ?_⟩
        exact fun key c hcall => (h.others key c hcall).imp_right fun hmem => by simp at hmem
      have htaken : Leaves { r₁ with lock := ⟨some o.key, []⟩ }
          { w.registry with lock := ⟨some o.key, []⟩ } [] [] [] :=
        ⟨hfresh.plugins, hfresh.active, rfl, hfresh.calls, hfresh.laters, hfresh.asks,
          hfresh.finishes⟩
      exact hheads.enters htaken orderly hearly hunasked
  | cons first rest =>
      rw [if_neg (by rw [hlock]; simp)] at orderly ⊢
      have hwaits : Leaves { r₁ with lock := { r₁.lock with waiting := r₁.lock.waiting ++ [o.key] } }
          { w.registry with
            lock := { w.registry.lock with waiting := w.registry.lock.waiting ++ [o.key] } }
          [] [] [] :=
        ⟨hfresh.plugins, hfresh.active, by rw [hfresh.lock], hfresh.calls, hfresh.laters, hfresh.asks,
          hfresh.finishes⟩
      exact h.queues (hwaits.setCall o.key _) (by simp) habsent hearly orderly

/-! ## Every event -/

/-- An event of a replacement that waits behind another. -/
theorem Line.step_rear (h : w.Line may (o :: rest)) {o' : Replacement} (mem : o' ∈ rest)
    (ready : w.Ready e) (event : e.key? = some o'.key) (tame : e.tame = true)
    (old : ∀ request, e ≠ .call o'.key request) : w.registry.step w.buffers e = w.registry := by
  refine step_queued w.buffers (h.rear o' mem).call event tame old ?_
  rintro rfl
  have hholder := ready _ (h.rear o' mem).call
  rw [h.lock] at hholder
  exact h.heads.ne_key mem (Option.some.inj hholder).symm

/-- An event of the first replacement. -/
theorem Line.step_front (h : w.Line may (o :: rest)) (due : w.Due may (o :: rest) e)
    (event : e.key? = some o.key) (tame : e.tame = true)
    (old : ∀ request, e ≠ .call o.key request)
    (orderly : (w.after (w.registry.step w.buffers e)).Orderly) :
    Advances may w (o :: rest) (w.registry.step w.buffers e) := by
  have hstart := Leaves.start h.orderly.outbox
  rcases h.front o rfl with hwaits | ⟨probes, hasks⟩
  · by_cases hgranted : e = .granted o.key
    · subst hgranted
      have hstep : w.registry.step w.buffers (.granted o.key) =
          w.registry.enter o.key o.request := by
        simp [Registry.step, Registry.withCall, hwaits.call]
      rw [hstep] at orderly ⊢
      have hunasked := ((h.orderly.fits o.key _ hwaits.call).queued _ rfl).2
      exact h.heads.enters hstart orderly hwaits.early hunasked
    · have hstep := step_queued w.buffers hwaits.call event tame old hgranted
      rw [hstep] at orderly ⊢
      exact h.idle hstart orderly
  · cases e with
    | call k request =>
        cases event
        exact absurd rfl (old request)
    | granted k =>
        cases event
        have hstep : w.registry.step w.buffers (.granted o.key) = w.registry := by
          simp [Registry.step, Registry.withCall, hasks.call]
        rw [hstep] at orderly ⊢
        exact h.idle hstart orderly
    | begin k i =>
        cases event
        exact h.begins hasks due.ready orderly
    | answered k i a =>
        cases event
        exact h.settles hasks due orderly
    | gathered k =>
        cases event
        exact h.gathers hasks (due.gathered o List.mem_cons_self probes rfl hasks) orderly
    | _ => cases tame

/-- What one event does to the line. -/
theorem Line.advances (h : w.Line may os) (due : w.Due may os e) (tame : e.tame = true) :
    Advances may w (os ++ e.replacement?.toList) (w.registry.step w.buffers e) := by
  have horderly : (w.after (w.registry.step w.buffers e)).Orderly := h.orderly.react due.ready
  have hstart := Leaves.start h.orderly.outbox
  rcases Event.tame_cases tame with ⟨o, rfl⟩ | ⟨key, request, rfl, hreads⟩ |
    ⟨key, hkey, hold, hkept⟩
  · exact h.arrives o due horderly
  · rw [Event.replacement?_of_reads hreads, Option.toList_none, List.append_nil]
    exact h.aside (call_reads h.orderly.outbox w.buffers hreads)
      (h.apart_of_absent due.ready.2.1) horderly
  · rw [Event.replacement?_of_old hkey hold, Option.toList_none, List.append_nil]
    by_cases hmem : key ∈ os.map Replacement.key
    · obtain ⟨o', ho', rfl⟩ := List.mem_map.1 hmem
      cases os with
      | nil => cases ho'
      | cons o rest =>
          rcases List.mem_cons.1 ho' with rfl | hrest
          · exact h.step_front due hkey tame hold horderly
          · have hstep := h.step_rear hrest due.ready hkey tame hold
            rw [hstep] at horderly ⊢
            exact h.idle hstart horderly
    · cases hcall : w.registry.calls.get? key with
      | none =>
          rw [step_absent w.buffers hkey hold hcall] at horderly ⊢
          exact h.idle hstart horderly
      | some c =>
          have hreads := (h.others key c hcall).resolve_right hmem
          exact h.aside (step_reads h.orderly.outbox w.buffers hcall hreads hkey hold hkept) hmem
            horderly

/-! ## Moves -/

theorem line_start : ({} : World).Line may [] where
  orderly := orderly_start
  lock := rfl
  distinct := List.nodup_nil
  front o ho := by cases ho
  rear o ho := by cases ho
  others key c hcall := by cases hcall

/-- Answers to the question of availability are such as may be given. -/
def Fair (may : Plugin → Bool → Prop) (w : World) (m : Move) : Prop :=
  ∀ n a q, m = .answer n a → w.inquiries[n]? = some q → q.question = .available →
    may q.plugin a.affirms

theorem Line.asks_of_call (h : w.Line may os) (mem : o ∈ os)
    (call : w.registry.calls.get? o.key = some ⟨.probing (.replace o.fresh) probes, false⟩) :
    Asks may w o probes := by
  have hwaits : ¬w.Waits o := by
    intro hwaits
    rw [hwaits.call] at call
    cases call
  cases os with
  | nil => cases mem
  | cons first rest =>
      rcases List.mem_cons.1 mem with rfl | hrest
      · obtain ⟨probes', hasks⟩ := (h.front o rfl).resolve_left hwaits
        have hcall := hasks.call
        rw [call] at hcall
        cases hcall
        exact hasks
      · exact absurd (h.rear o hrest) hwaits

/-- A move finds the line ready for it. -/
theorem Line.due (h : w.Line may os) {m : Move} (fair : w.Fair may m) (event : w.event? m = some e) :
    (w.spend m).Due may os e := by
  have hready := h.orderly.ready event
  cases m with
  | host e' =>
      obtain ⟨hadmits, ⟨⟩⟩ := Option.ite_none_right_eq_some.1 event
      refine ⟨hready, ?_, ?_, ?_⟩
      · rintro key request rfl hdue
        have hnew : key ∉ w.known := by simpa [admits] using hadmits
        exact hnew ((h.orderly.due _ hdue).2 key rfl)
      · rintro o _ probes i a name progress rfl
        cases hadmits
      · rintro o _ probes rfl
        cases hadmits
  | edit b => cases event
  | next n =>
      have hmem := List.mem_of_getElem? event
      have hdue := (h.orderly.due e hmem).1
      refine ⟨hready, ?_, ?_, ?_⟩
      · rintro key request rfl
        cases hdue
      · rintro o _ probes i a name progress rfl
        cases hdue
      · rintro o ho probes rfl hasks
        exact (h.asks_of_call ho hasks.call).gathered hmem
  | answer n a =>
      obtain ⟨q, hq, rfl⟩ := Option.map_eq_some_iff.1 event
      refine ⟨hready, ?_, ?_, ?_⟩
      · rintro key request ⟨⟩
      rotate_left
      · rintro o _ probes ⟨⟩
      intro o ho probes i a' name progress heq hasks hpart
      obtain ⟨hkey, rfl, rfl⟩ := Event.answered.inj heq
      have hmem := List.mem_of_getElem? hq
      have hbefore := h.asks_of_call ho hasks.call
      obtain ⟨hfound, hquestion⟩ := hbefore.asked q hmem hkey
      have hprobes := (h.orderly.fits o.key _ hbefore.call).probing _ _ rfl
      have hasked := hprobes.asked q (List.mem_filter.2 ⟨hmem, by simpa using hkey⟩)
      rw [hpart] at hasked
      cases hasked
      exact ⟨q.plugin, hfound, fair n a q rfl hq hquestion⟩
  | stop n =>
      obtain ⟨q, _, rfl⟩ := Option.map_eq_some_iff.1 event
      refine ⟨hready, ?_, ?_, ?_⟩
      · rintro key request ⟨⟩
      · rintro o _ probes i a name progress ⟨⟩
      · rintro o _ probes ⟨⟩

end World

end Shellwright.Registry
