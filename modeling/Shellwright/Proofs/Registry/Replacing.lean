import Shellwright.Proofs.Registry.Ends
/-!
# Replacements one after another

Calls that replace all plugins come to the lock in the order in which they were made, and each of them
puts its own plugins in the place of all others. Checks and formats do not disturb them.
-/

namespace Shellwright

/-- The plugin says that it is available. -/
def Answer.affirms : Answer → Bool
  | .available yes => yes
  | _ => false

namespace Registry

def Request.reads : Request → Bool
  | .check .. => true
  | .format .. => true
  | _ => false

/-! ## Calls that read -/

/-- A check or a format has gone on or has ended; nothing else has changed. -/
inductive Reads (r : Registry) (key : CallKey) (r' : Registry) : Prop
  | idle (leaves : r'.Leaves r [] [] [])
  | goes (c : Call) (ls : List Event) (as : List Inquiry) (stage : c.stage.reads = true)
      (later : ∀ l ∈ ls, l.key? = some key) (asked : ∀ q ∈ as, q.key = key)
      (leaves : r'.Leaves (r.setCall key c) ls as [])
  | ends (outcome : Outcome Reply)
      (leaves : r'.Leaves (r.without key) (r.lock.grants key) [] [(key, outcome)])

section Reading

variable {r r₁ : Registry} {e : Event} {key : CallKey}

theorem Leaves.reads_end (h : r₁.Leaves r [] [] []) (outcome : Outcome Reply) :
    Reads r key (r₁.finish key outcome) :=
  .ends outcome (h.finish key outcome)

theorem startCheck_reads (h : r.Leaves r [] [] []) (buffers : Buffers) (document : String)
    (options : CallOptions) : Reads r key (r.startCheck buffers key document options) := by
  unfold startCheck
  split
  · exact h.reads_end _
  · exact h.reads_end _
  · rename_i plugins _ _
    have hbegins := (h.setCall key
      ⟨.checking document options (plugins.map (·, .waiting)), false⟩).begins key
      (List.range plugins.length)
    refine .goes _ _ [] rfl ?_ (by simp) hbegins
    intro l hl
    rw [List.nil_append] at hl
    obtain ⟨i, _, rfl⟩ := List.mem_map.1 hl
    rfl

theorem askFormatter_reads (h : r₁.Leaves r [] [] []) (document : String) (options : CallOptions)
    (collected : List Verdict) (plugins : List Plugin) :
    Reads r key (r₁.askFormatter key document options collected plugins) := by
  cases plugins with
  | nil => exact h.reads_end _
  | cons p rest =>
      exact .goes _ [] _ rfl (by simp) (by simp)
        ((h.setCall key ⟨.formatting document options p rest collected, false⟩).ask key 0 p
          (.format document options))

theorem call_reads (h : r.outbox = []) (buffers : Buffers) {request : Request}
    (reads : request.reads = true) : Reads r key (r.step buffers (.call key request)) := by
  have hstart := Leaves.start h
  cases request with
  | check document options => exact startCheck_reads hstart buffers document options
  | format document options =>
      simp only [step, call, startFormat]
      split
      · exact hstart.reads_end _
      · exact askFormatter_reads hstart document options [] _
  | _ => cases reads

theorem begin_reads (h : r.Leaves r [] [] []) (i : Nat) {c : Call} (reads : c.stage.reads = true) :
    Reads r key (r.begin key i c) := by
  obtain ⟨stage, aborting⟩ := c
  unfold Registry.begin
  split
  · exact h.reads_end _
  · cases stage with
    | checking document options parts =>
        simp only
        split
        · exact .idle h
        · rename_i p _ _
          exact .goes _ [] _ rfl (by simp) (by simp)
            ((h.setCall key _).ask key i p (.check document options))
    | formatting document options p rest collected => exact .idle h
    | _ => cases reads

theorem answered_reads (h : r.Leaves r [] [] []) (buffers : Buffers) (i : Nat) {c : Call}
    (a : Answer) (reads : c.stage.reads = true) : Reads r key (r.answered buffers key i c a) := by
  obtain ⟨stage, aborting⟩ := c
  unfold Registry.answered
  cases stage with
  | checking document options parts =>
      simp only
      split
      · exact .idle h
      · rename_i p _ _
        have hset := (checkVerdict_leaves h buffers p document a).setCall key
          ⟨.checking document options
            (setPart parts i (.settled (r.checkVerdict buffers p document a).2)), aborting⟩
        split
        · exact .goes _ [.gathered key] [] rfl (by simp [Event.key?]) (by simp)
            (hset.later (.gathered key))
        · exact .goes _ [] [] rfl (by simp) (by simp) hset
  | formatting document options p rest collected =>
      have hleaves := formatVerdict_leaves h buffers p document a
      unfold settleFormat
      simp only
      split
      · exact askFormatter_reads hleaves document options _ rest
      · exact hleaves.reads_end _
  | _ => cases reads

theorem gathered_reads (h : r.Leaves r [] [] []) {c : Call} (reads : c.stage.reads = true) :
    Reads r key (r.gathered key c) := by
  obtain ⟨stage, aborting⟩ := c
  unfold Registry.gathered
  split
  · exact h.reads_end _
  · cases stage with
    | checking document options parts => exact h.reads_end _
    | formatting document options p rest collected => exact .idle h
    | _ => cases reads

/-- A call that reads goes on reading. -/
theorem step_reads (h : r.outbox = []) (buffers : Buffers) {c : Call}
    (call : r.calls.get? key = some c) (reads : c.stage.reads = true) (event : e.key? = some key)
    (old : ∀ request, e ≠ .call key request) (kept : e ≠ .abort key) :
    Reads r key (r.step buffers e) := by
  have hstart := Leaves.start h
  have hcall (f : Call → Registry) (hf : Reads r key (f c)) : Reads r key (r.withCall key f) := by
    unfold withCall
    rw [call]
    exact hf
  cases e with
  | call k request =>
      cases event
      exact absurd rfl (old request)
  | granted k =>
      cases event
      refine hcall _ ?_
      split
      · rename_i hstage
        rw [hstage] at reads
        cases reads
      · exact .idle hstart
  | begin k i =>
      cases event
      exact hcall _ (begin_reads hstart i reads)
  | answered k i a =>
      cases event
      exact hcall _ (answered_reads hstart buffers i a reads)
  | stopped k i =>
      cases event
      refine hcall _ ?_
      split
      · exact hstart.reads_end _
      · exact .idle hstart
  | gathered k =>
      cases event
      exact hcall _ (gathered_reads hstart reads)
  | abort k =>
      cases event
      exact absurd rfl kept
  | _ => cases event

end Reading

/-! ## Replacements -/

/-- The plugins by name. -/
def byName (plugins : List Plugin) : Keyed String Plugin :=
  Keyed.ofList (plugins.map fun p => (p.name, p))

/-- A call that puts its plugins in the place of all others. -/
structure Replacement where
  number : Nat
  plugins : List Plugin
  names : Option (List String)

namespace Replacement

def key (o : Replacement) : CallKey :=
  .host o.number

def request (o : Replacement) : Request :=
  .replace o.plugins o.names

/-- The new instances by name. -/
def fresh (o : Replacement) : Keyed String Plugin :=
  Keyed.ofList (o.plugins.map fun p => (p.name, p))

def wanted (o : Replacement) : List String :=
  wantedNames o.fresh o.names

/-- The names that become active when `available` says which plugins are available. -/
def passing (o : Replacement) (available : Plugin → Bool) : List String :=
  o.wanted.filter fun name => (o.fresh.get? name).any available

end Replacement

/-- The replacement that begins with an event. -/
def Event.replacement? : Event → Option Replacement
  | .call (.host n) (.replace plugins names) => some ⟨n, plugins, names⟩
  | _ => none

/-- The event changes what is active by a replacement only, and calls nothing off. -/
def Event.tame : Event → Bool
  | .call (.host _) (.replace ..) => true
  | .call _ request => request.reads
  | .granted _ => true
  | .begin .. => true
  | .answered .. => true
  | .gathered _ => true
  | _ => false

section Entering

variable {r r₁ : Registry} {key : CallKey}

theorem availability_snd (r : Registry) (name : String) (a : Answer) :
    (r.availability name a).2 = a.affirms := by
  cases a with
  | available yes => cases yes <;> rfl
  | _ => rfl

theorem completeReplacement_leaves (h : r₁.Leaves r [] [] []) (fresh : Keyed String Plugin)
    (probes : List (String × Progress Bool)) :
    (r₁.completeProbes key (.replace fresh) probes).Leaves
      ({ r with plugins := fresh, active := probed probes true }.without key) (r.lock.grants key) []
      [(key, .done (.count (probed probes true).length))] :=
  ((h.withPlugins fresh _).log _ _).finish key _

/-- A replacement that comes to the lock asks its new instances, or is over when there are none. -/
theorem enterReplacement_leaves (h : r₁.Leaves r [] [] []) (key : CallKey) (plugins : List Plugin)
    (names : Option (List String)) :
    wantedNames (byName plugins) names = [] ∧ (r₁.enter key (.replace plugins names)).Leaves
        ({ r with plugins := byName plugins, active := [] }.without key) (r.lock.grants key) []
        [(key, .done (.count 0))] ∨
      wantedNames (byName plugins) names ≠ [] ∧ (r₁.enter key (.replace plugins names)).Leaves
        (r.setCall key ⟨.probing (.replace (byName plugins))
          ((wantedNames (byName plugins) names).map (·, .waiting)), false⟩)
        ((List.range (wantedNames (byName plugins) names).length).map (.begin key ·)) [] [] := by
  have henter : r₁.enter key (.replace plugins names) =
      r₁.startProbes key (.replace (byName plugins)) (wantedNames (byName plugins) names) := rfl
  rw [henter, startProbes]
  split
  · rename_i hempty
    exact .inl ⟨List.isEmpty_iff.1 hempty, completeReplacement_leaves h (byName plugins) []⟩
  · rename_i hsome
    refine .inr ⟨fun hnone => hsome (List.isEmpty_iff.2 hnone), ?_⟩
    exact (h.setCall key _).begins key (List.range (wantedNames (byName plugins) names).length)

theorem Replacement.enter_leaves (h : r₁.Leaves r [] [] []) (o : Replacement) :
    o.wanted = [] ∧ (r₁.enter o.key o.request).Leaves
        ({ r with plugins := o.fresh, active := [] }.without o.key) (r.lock.grants o.key) []
        [(o.key, .done (.count 0))] ∨
      (r₁.enter o.key o.request).Leaves
        (r.setCall o.key ⟨.probing (.replace o.fresh) (o.wanted.map (·, .waiting)), false⟩)
        ((List.range o.wanted.length).map (.begin o.key ·)) [] [] :=
  (enterReplacement_leaves h o.key o.plugins o.names).imp_right And.right

end Entering

/-! ## The line of replacements -/

namespace World

/-- The replacement waits for the lock. -/
structure Waits (w : World) (o : Replacement) : Prop where
  call : w.registry.calls.get? o.key = some ⟨.queued o.request, false⟩
  early : .gathered o.key ∉ w.due

/-- The replacement holds the lock and asks its new instances; an instance may answer as `may` says. -/
structure Asks (may : Plugin → Bool → Prop) (w : World) (o : Replacement)
    (probes : List (String × Progress Bool)) : Prop where
  call : w.registry.calls.get? o.key = some ⟨.probing (.replace o.fresh) probes, false⟩
  names : probes.map Prod.fst = o.wanted
  settled : ∀ name ok, (name, .settled ok) ∈ probes → ∃ p, o.fresh.get? name = some p ∧ may p ok
  asked : ∀ q ∈ w.inquiries, q.key = o.key →
    o.fresh.get? q.plugin.name = some q.plugin ∧ q.question = .available
  gathered : .gathered o.key ∈ w.due → allSettled probes = true

/-- The replacements that are under way, the one that holds the lock first. All other calls read. -/
structure Line (may : Plugin → Bool → Prop) (w : World) (os : List Replacement) : Prop where
  orderly : w.Orderly
  lock : w.registry.lock = ⟨os.head?.map Replacement.key, os.tail.map Replacement.key⟩
  distinct : (os.map Replacement.key).Nodup
  front : ∀ o ∈ os.head?, w.Waits o ∨ ∃ probes, Asks may w o probes
  rear : ∀ o ∈ os.tail, w.Waits o
  others : ∀ key c, w.registry.calls.get? key = some c →
    c.stage.reads = true ∨ key ∈ os.map Replacement.key

/-- What concerns the call is as before, or less is due to it. -/
structure Spares (w w' : World) (key : CallKey) : Prop where
  call : w'.registry.calls.get? key = w.registry.calls.get? key
  gathered : .gathered key ∈ w'.due → .gathered key ∈ w.due
  inquiries : ∀ q ∈ w'.inquiries, q.key = key → q ∈ w.inquiries

variable {may : Plugin → Bool → Prop} {w w' : World} {e : Event} {r r' core : Registry}
  {ls : List Event} {as : List Inquiry} {fs : List (CallKey × Outcome Reply)} {key k : CallKey}
  {o : Replacement} {os rest : List Replacement} {probes : List (String × Progress Bool)}

theorem Waits.frame (h : w.Waits o) (spares : w.Spares w' o.key) : w'.Waits o :=
  ⟨spares.call.trans h.call, fun hdue => h.early (spares.gathered hdue)⟩

theorem Asks.frame (h : Asks may w o probes) (spares : w.Spares w' o.key) :
    Asks may w' o probes where
  call := spares.call.trans h.call
  names := h.names
  settled := h.settled
  asked q hq hkey := h.asked q (spares.inquiries q hq hkey) hkey
  gathered hdue := h.gathered (spares.gathered hdue)

/-- A reaction that is about another call. -/
theorem spares_after (leaves : r'.Leaves core ls as fs)
    (call : core.calls.get? k = w.registry.calls.get? k) (later : .gathered k ∉ ls)
    (asked : ∀ q ∈ as, q.key ≠ k) : w.Spares (w.after r') k where
  call := by
    change r'.calls.get? k = _
    rw [leaves.calls, call]
  gathered hdue := by
    rcases List.mem_append.1 hdue with hdue | hdue
    · exact hdue
    · rw [leaves.laters] at hdue
      exact absurd hdue later
  inquiries q hq hkey := by
    rcases List.mem_append.1 hq with hq | hq
    · exact hq
    · rw [leaves.asks] at hq
      exact absurd hkey (asked q hq)

theorem not_mem_grants (lock : Lock) : .gathered k ∉ lock.grants key := by
  unfold Lock.grants
  split
  · split <;> simp
  · simp

theorem Line.frame (h : w.Line may os) (orderly : w'.Orderly)
    (lock : w'.registry.lock = w.registry.lock) (spares : ∀ o ∈ os, w.Spares w' o.key)
    (others : ∀ key c, w'.registry.calls.get? key = some c →
      c.stage.reads = true ∨ key ∈ os.map Replacement.key) : w'.Line may os where
  orderly := orderly
  lock := lock.trans h.lock
  distinct := h.distinct
  front o ho := by
    have hspares := spares o (List.mem_of_mem_head? ho)
    refine (h.front o ho).imp (·.frame hspares) ?_
    rintro ⟨probes, hasks⟩
    exact ⟨probes, hasks.frame hspares⟩
  rear o ho := (h.rear o ho).frame (spares o (List.mem_of_mem_tail ho))
  others := others

/-- Less is due, fewer questions are open, and other calls may have come. -/
theorem Line.less (h : w.Line may os) (registry : w'.registry = w.registry)
    (due : w'.due.Sublist w.due) (inquiries : w'.inquiries.Sublist w.inquiries)
    (known : ∀ k ∈ w.known, k ∈ w'.known) : w'.Line may os := by
  refine h.frame (h.orderly.less registry due inquiries known) (by rw [registry]) ?_ ?_
  · intro o _
    exact ⟨by rw [registry], fun hdue => due.subset hdue, fun q hq _ => inquiries.subset hq⟩
  · rw [registry]
    exact h.others

theorem Line.spend (h : w.Line may os) (m : Move) : (w.spend m).Line may os := by
  cases m with
  | host e =>
      cases e with
      | call key request =>
          exact h.less rfl (.refl _) (.refl _) fun k hk => List.mem_cons_of_mem _ hk
      | _ => exact h
  | edit b => exact h.less rfl (.refl _) (.refl _) fun _ hk => hk
  | next n => exact h.less rfl (List.eraseIdx_sublist _ _) (.refl _) fun _ hk => hk
  | answer n a => exact h.less rfl (.refl _) (List.eraseIdx_sublist _ _) fun _ hk => hk
  | stop n => exact h.less rfl (.refl _) (List.eraseIdx_sublist _ _) fun _ hk => hk

/-- All instances have answered, so those are active that are available. -/
theorem Asks.passing (h : Asks may w o probes) (all : allSettled probes = true)
    {available : Plugin → Bool} (fixed : ∀ p ok, may p ok → ok = available p) :
    probed probes true = o.passing available := by
  rw [Replacement.passing, ← h.names, List.filter_map]
  refine congrArg (List.map Prod.fst) (List.filter_congr fun entry hentry => ?_)
  obtain ⟨name, progress⟩ := entry
  have hsettled := List.all_eq_true.1 all _ hentry
  cases progress with
  | settled ok =>
      obtain ⟨p, hfound, hmay⟩ := h.settled name ok hentry
      obtain rfl := fixed p ok hmay
      simp [Progress.result?, hfound]
  | waiting => cases hsettled
  | asked => cases hsettled

/-! ## The first of the line -/

/-- The replacement goes on from the registry `r`, in which it holds the lock. -/
structure Heads (w : World) (r : Registry) (o : Replacement) (rest : List Replacement) : Prop where
  plugins : r.plugins = w.registry.plugins
  active : r.active = w.registry.active
  calls : r.calls = w.registry.calls
  lock : r.lock = ⟨some o.key, rest.map Replacement.key⟩
  distinct : ((o :: rest).map Replacement.key).Nodup
  rear : ∀ o' ∈ rest, w.Waits o'
  others : ∀ key c, w.registry.calls.get? key = some c →
    c.stage.reads = true ∨ key ∈ (o :: rest).map Replacement.key

theorem Line.heads (h : w.Line may (o :: rest)) : w.Heads w.registry o rest :=
  ⟨rfl, rfl, rfl, h.lock, h.distinct, h.rear, h.others⟩

theorem Heads.ne_key (h : w.Heads r o rest) {o' : Replacement} (ho' : o' ∈ rest) :
    o'.key ≠ o.key := by
  intro heq
  have hdistinct := List.nodup_cons.1 h.distinct
  exact hdistinct.1 (heq ▸ List.mem_map_of_mem ho')

/-- The first replacement has asked further, or more answers have come. -/
theorem Heads.asks (h : w.Heads r o rest) {c : Call} (leaves : r'.Leaves (r.setCall o.key c) ls as fs)
    (later : ∀ l ∈ ls, l.key? = some o.key) (asked : ∀ q ∈ as, q.key = o.key)
    (orderly : (w.after r').Orderly)
    (front : (w.after r').Waits o ∨ ∃ probes, Asks may (w.after r') o probes) :
    (w.after r').Line may (o :: rest) where
  orderly := orderly
  lock := leaves.lock.trans h.lock
  distinct := h.distinct
  front o' ho' := by
    obtain rfl := Option.some.inj ho'
    exact front
  rear o' ho' := by
    have hne := h.ne_key ho'
    refine (h.rear o' ho').frame (spares_after leaves ?_ ?_ ?_)
    · change (r.calls.put o.key c).get? o'.key = _
      rw [Keyed.get?_put_of_ne c hne, h.calls]
    · exact fun hl => hne (Option.some.inj (later _ hl))
    · exact fun q hq heq => hne (heq.symm.trans (asked q hq))
  others key' c' hcall := by
    change r'.calls.get? key' = some c' at hcall
    rw [leaves.calls] at hcall
    change (r.calls.put o.key c).get? key' = some c' at hcall
    rw [Keyed.get?_put] at hcall
    split at hcall
    · rename_i hkey
      rw [hkey]
      exact .inr List.mem_cons_self
    · exact h.others key' c' (h.calls ▸ hcall)

/-- The first replacement is over, and the lock is passed on. -/
theorem Heads.gone (h : w.Heads r o rest) {plugins : Keyed String Plugin} {active : List String}
    (leaves : r'.Leaves ({ r with plugins := plugins, active := active }.without o.key)
      (r.lock.grants o.key) [] fs) (orderly : (w.after r').Orderly) : (w.after r').Line may rest := by
  have hspares (o' : Replacement) (ho' : o' ∈ rest) : w.Spares (w.after r') o'.key := by
    refine spares_after leaves ?_ (not_mem_grants _) (by simp)
    change (r.calls.drop o.key).get? o'.key = _
    rw [Keyed.get?_drop, if_neg (h.ne_key ho'), h.calls]
  refine ⟨orderly, ?_, (List.nodup_cons.1 h.distinct).2, ?_, ?_, ?_⟩
  · change r'.lock = _
    rw [leaves.lock]
    change r.lock.leave o.key = _
    rw [h.lock, Lock.leave, if_pos rfl]
    cases rest <;> rfl
  · intro o' ho'
    have hmem := List.mem_of_mem_head? ho'
    exact .inl ((h.rear o' hmem).frame (hspares o' hmem))
  · intro o' ho'
    have hmem := List.mem_of_mem_tail ho'
    exact (h.rear o' hmem).frame (hspares o' hmem)
  · intro key' c hcall
    change r'.calls.get? key' = some c at hcall
    rw [leaves.calls] at hcall
    change (r.calls.drop o.key).get? key' = some c at hcall
    rw [Keyed.get?_drop] at hcall
    split at hcall
    · cases hcall
    · rename_i hne
      refine (h.others key' c (h.calls ▸ hcall)).imp_right fun hmem => ?_
      exact (List.mem_cons.1 hmem).resolve_left hne

end World

end Registry

end Shellwright
