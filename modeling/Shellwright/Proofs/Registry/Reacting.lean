import Shellwright.Proofs.Registry.Order
/-!
# Order is kept

Each reaction leaves the world in order.
-/

namespace Shellwright.Registry.World

variable {w : World} {e : Event} {r' core : Registry} {ls : List Event} {as : List Inquiry}
  {fs : List (CallKey × Outcome Reply)}

/-- The world after a reaction. -/
def after (w : World) (r' : Registry) : World :=
  { w with
    registry := { r' with outbox := [] }
    due := w.due ++ r'.laters
    inquiries := w.inquiries ++ r'.asks }

theorem react_eq_after (w : World) (e : Event) :
    w.react e = w.after (w.registry.step w.buffers e) := rfl

theorem beginning_after (h : r'.Leaves core ls as fs) (key : CallKey) :
    (w.after r').beginning key = w.beginning key ++ ls.filterMap (·.beginning? key) := by
  rw [beginning, after, h.laters, List.filterMap_append, beginning]

theorem inquiriesOf_after (h : r'.Leaves core ls as fs) (key : CallKey) :
    (w.after r').inquiriesOf key = w.inquiriesOf key ++ as.filter (·.key = key) := by
  rw [inquiriesOf, after, h.asks, List.filter_append, inquiriesOf]

/-- What a reaction that concerns one call has to leave in order. -/
structure Keeps (w : World) (key : CallKey) (core : Registry) (ls : List Event)
    (as : List Inquiry) : Prop where
  named : ∀ name p, core.get? name = some p → p.name = name
  later : ∀ l ∈ ls, key ∈ w.known ∧ ((∃ i, l = .begin key i) ∨ l = .gathered key) ∨
    ∃ k ∈ w.known, l = .granted k ∧ core.lock.holder = some k
  asked : ∀ q ∈ as, key ∈ w.known ∧ q.key = key
  waiting : ∀ k ∈ core.lock.waiting, k ∈ w.known
  holder : ∀ k, k ≠ key → w.registry.lock.holder = some k → core.lock.holder = some k
  others : ∀ k, k ≠ key → core.calls.get? k = w.registry.calls.get? k

theorem beginning_other {key k : CallKey} (h : w.Keeps key core ls as) (hk : k ≠ key) :
    ls.filterMap (·.beginning? k) = [] := by
  rw [List.filterMap_eq_nil_iff]
  intro l hl
  rcases h.later l hl with ⟨_, ⟨i, rfl⟩ | rfl⟩ | ⟨next, _, rfl, _⟩
  · exact if_neg (Ne.symm hk)
  · rfl
  · rfl

/-- The world stays in order when the call that a reaction concerns fits it afterwards. -/
theorem Orderly.after (h : w.Orderly) (leaves : r'.Leaves core ls as fs) {key : CallKey}
    (keeps : w.Keeps key core ls as)
    (fits : ∀ c, core.calls.get? key = some c → (w.after r').Fits key c) :
    (w.after r').Orderly where
  outbox := rfl
  named := by
    change ∀ name p, r'.get? name = some p → p.name = name
    unfold Registry.get?
    rw [leaves.plugins]
    exact keeps.named
  due e he := by
    rcases List.mem_append.1 he with he | he
    · exact h.due e he
    · rw [leaves.laters] at he
      rcases keeps.later e he with ⟨hknown, ⟨i, rfl⟩ | rfl⟩ | ⟨k, hk, rfl, _⟩
      · exact ⟨trivial, by rintro _ ⟨⟩; exact hknown⟩
      · exact ⟨trivial, by rintro _ ⟨⟩; exact hknown⟩
      · exact ⟨trivial, by rintro _ ⟨⟩; exact hk⟩
  inquiries q hq := by
    rcases List.mem_append.1 hq with hq | hq
    · exact h.inquiries q hq
    · rw [leaves.asks] at hq
      rw [(keeps.asked q hq).2]
      exact (keeps.asked q hq).1
  waiting := by
    change ∀ k ∈ r'.lock.waiting, k ∈ w.known
    rw [leaves.lock]
    exact keeps.waiting
  fits k c hcall := by
    have hcall : core.calls.get? k = some c := by
      rw [← leaves.calls]
      exact hcall
    by_cases hk : k = key
    · subst hk
      exact fits c hcall
    -- Of any other call nothing is added that is due or asked, and it keeps the lock if it holds it.
    · rw [keeps.others k hk] at hcall
      have hholder : (w.after r').registry.lock.holder = core.lock.holder := by
        change r'.lock.holder = core.lock.holder
        rw [leaves.lock]
      refine (h.fits k c hcall).frame (fun _ hknown => hknown) ?_ ?_ ?_ ?_
      · intro hold
        rw [hholder]
        exact keeps.holder k hk hold
      · intro hdue
        rcases List.mem_append.1 hdue with hdue | hdue
        · exact .inl hdue
        · rw [leaves.laters] at hdue
          rcases keeps.later _ hdue with ⟨_, ⟨i, heq⟩ | heq⟩ | ⟨next, _, heq, hnext⟩
          · cases heq
          · cases heq
          · cases heq
            rw [hholder]
            exact .inr hnext
      · simp only [beginning_after leaves, beginning_other keeps hk, List.append_nil,
          List.Sublist.refl]
      · have hnone : as.filter (·.key = k) = [] := by
          rw [List.filter_eq_nil_iff]
          intro q hq
          rw [(keeps.asked q hq).2]
          simpa using Ne.symm hk
        simp only [inquiriesOf_after leaves, hnone, List.append_nil, List.Sublist.refl]

/-! ## One call goes on -/

/-- The registry that a call goes on from: that of the world, or the same with the lock taken. -/
structure Reaches (w : World) (r : Registry) : Prop where
  plugins : r.plugins = w.registry.plugins
  calls : r.calls = w.registry.calls
  waiting : ∀ k ∈ r.lock.waiting, k ∈ w.known
  holder : ∀ k, w.registry.lock.holder = some k → r.lock.holder = some k

variable {r : Registry} {key : CallKey}

theorem Orderly.reaches (h : w.Orderly) : w.Reaches w.registry :=
  ⟨rfl, rfl, h.waiting, fun _ hk => hk⟩

theorem reaches_taken (free : w.registry.lock.holder = none) (key : CallKey) :
    w.Reaches { w.registry with lock := ⟨some key, []⟩ } :=
  ⟨rfl, rfl, nofun, fun _ hk => absurd (free.symm.trans hk) nofun⟩

theorem Reaches.call (reaches : w.Reaches r) {k : CallKey} {c : Call}
    (call : r.calls.get? k = some c) : w.registry.calls.get? k = some c := by
  rw [← reaches.calls]
  exact call

theorem Reaches.named (reaches : w.Reaches r) (h : w.Orderly) {name : String} {p : Plugin}
    (found : r.get? name = some p) : p.name = name := by
  refine h.named name p ?_
  unfold Registry.get? at found ⊢
  rw [← reaches.plugins]
  exact found

theorem Reaches.starts (reaches : w.Reaches r) (h : w.Orderly) (ready : w.Ready e)
    (starts : r.Starts e key) :
    key ∈ w.known ∧ w.beginning key = [] ∧ w.inquiriesOf key = [] ∧
      (.granted key ∈ w.due → r.lock.holder = some key) := by
  rcases starts with ⟨request, rfl⟩ | ⟨rfl, c, request, call, stage⟩
  · exact ⟨ready.1, ready.2.2.1, ready.2.2.2.1, fun hdue => absurd hdue ready.2.2.2.2⟩
  · have hfits := h.fits key c (reaches.call call)
    obtain ⟨hbegins, hasks⟩ := hfits.queued request stage
    exact ⟨hfits.known, hbegins, hasks, fun hdue => reaches.holder key (hfits.granted hdue)⟩

theorem Reaches.holds (reaches : w.Reaches r) (ready : w.Ready e) (starts : r.Starts e key)
    (holds : r.Holds e key) : r.lock.holder = some key := by
  rcases holds with hholder | rfl
  · exact hholder
  · rcases starts with ⟨request, heq⟩ | ⟨_, c, _, call, _⟩
    · cases heq
    · exact reaches.holder key (ready c (reaches.call call))

theorem Reaches.setCall_keeps (reaches : w.Reaches r) (h : w.Orderly) (known : key ∈ w.known)
    (c : Call) (later : ∀ l ∈ ls, (∃ i, l = .begin key i) ∨ l = .gathered key)
    (asked : ∀ q ∈ as, q.key = key) : w.Keeps key (r.setCall key c) ls as where
  named name p found := reaches.named h found
  later l hl := .inl ⟨known, later l hl⟩
  asked q hq := ⟨known, asked q hq⟩
  waiting := reaches.waiting
  holder k _ hold := reaches.holder k hold
  others k hk := by
    change (r.calls.put key c).get? k = _
    rw [Keyed.get?_put_of_ne c hk, reaches.calls]

theorem Reaches.without_keeps (reaches : w.Reaches r) {r₁ : Registry}
    (lock : r₁.lock = r.lock) (calls : r₁.calls = r.calls)
    (named : ∀ name p, r₁.get? name = some p → p.name = name) :
    w.Keeps key (r₁.without key) (r.lock.grants key) [] where
  named := named
  later l hl := by
    unfold Lock.grants at hl
    split at hl
    · rename_i hholder
      split at hl
      · cases hl
      · rename_i next rest hwaiting
        obtain rfl := List.mem_singleton.1 hl
        refine .inr ⟨next, reaches.waiting next (by simp [hwaiting]), rfl, ?_⟩
        change (r₁.lock.leave key).holder = some next
        rw [Lock.leave, lock, if_pos hholder, hwaiting]
    · cases hl
  asked q hq := nomatch hq
  waiting k hk := by
    change k ∈ (r₁.lock.leave key).waiting at hk
    rw [lock, Lock.leave] at hk
    split at hk
    · split at hk
      · cases hk
      · rename_i next rest hwaiting
        exact reaches.waiting k (by simp [hwaiting, hk])
    · exact reaches.waiting k hk
  holder k hk hold := by
    change (r₁.lock.leave key).holder = some k
    have hother : r.lock.holder = some k := reaches.holder k hold
    rw [lock, Lock.leave, if_neg]
    · exact hother
    · rw [hother]
      exact fun heq => hk (Option.some.inj heq)
  others k hk := by
    change (r₁.calls.drop key).get? k = _
    rw [Keyed.get?_drop, if_neg hk, calls, reaches.calls]

/-- The call that a reaction concerns has gone on. -/
theorem Orderly.after_setCall (h : w.Orderly) (reaches : w.Reaches r) {c : Call}
    (leaves : r'.Leaves (r.setCall key c) ls as fs) (known : key ∈ w.known)
    (later : ∀ l ∈ ls, (∃ i, l = .begin key i) ∨ l = .gathered key)
    (asked : ∀ q ∈ as, q.key = key) (fits : (w.after r').Fits key c) : (w.after r').Orderly := by
  refine h.after leaves (reaches.setCall_keeps h known c later asked) fun c' hcall => ?_
  change (r.calls.put key c).get? key = some c' at hcall
  rw [Keyed.get?_put_self] at hcall
  cases hcall
  exact fits

/-- The end of a call leaves nothing that could be out of order. -/
theorem Orderly.after_without (h : w.Orderly) (reaches : w.Reaches r) {r₁ : Registry}
    (lock : r₁.lock = r.lock) (calls : r₁.calls = r.calls)
    (named : ∀ name p, r₁.get? name = some p → p.name = name)
    (leaves : r'.Leaves (r₁.without key) (r.lock.grants key) [] fs) : (w.after r').Orderly := by
  refine h.after leaves (reaches.without_keeps lock calls named) fun c hcall => ?_
  change (r₁.calls.drop key).get? key = some c at hcall
  rw [Keyed.get?_drop, if_pos rfl] at hcall
  cases hcall

/-! ## Probes -/

theorem getElem?_setProbe_self {probes : List (String × Progress Bool)} {i : Nat} {name : String}
    {progress : Progress Bool} (part : probes[i]? = some (name, progress))
    (progress' : Progress Bool) :
    (setProbe probes i progress')[i]? = some (name, progress') := by
  simp [setProbe, part]

theorem getElem?_setProbe_of_ne (probes : List (String × Progress Bool)) {i j : Nat}
    (progress : Progress Bool) (h : j ≠ i) : (setProbe probes i progress)[j]? = probes[j]? := by
  simp [setProbe, Ne.symm h]

theorem map_fst_setProbe (probes : List (String × Progress Bool)) (i : Nat)
    (progress : Progress Bool) :
    (setProbe probes i progress).map Prod.fst = probes.map Prod.fst := by
  refine List.ext_getElem? fun j => ?_
  by_cases h : j = i
  · subst h
    cases hpart : probes[j]? <;> simp [setProbe, hpart]
  · simp [getElem?_setProbe_of_ne probes progress h]

/-- A part that is about to be asked, or whose answer has come, is not to be asked any more and
has no open question. -/
theorem Probes.apart {purpose : ProbePurpose} {probes : List (String × Progress Bool)} {c : Call}
    (h : w.Probes key purpose probes) (ready : w.Ready e) {i : Nat}
    (event : e = .begin key i ∨ ∃ a, e = .answered key i a)
    (call : w.registry.calls.get? key = some c) (stage : c.stage = .probing purpose probes) :
    i ∉ w.beginning key ∧ ∀ q ∈ w.inquiriesOf key, q.part ≠ i := by
  rcases event with rfl | ⟨a, rfl⟩
  · obtain ⟨hbegun, name, hwaiting⟩ := ready c purpose probes call stage
    refine ⟨hbegun, ?_⟩
    rintro q hq rfl
    have hasked := h.asked q hq
    rw [hwaiting] at hasked
    cases hasked
  · obtain ⟨hpart, name, hasked⟩ := ready c purpose probes call stage
    refine ⟨fun hbegun => ?_, fun q hq heq => hpart (List.mem_map.2 ⟨q, hq, heq⟩)⟩
    obtain ⟨name', hwaiting⟩ := h.waiting i hbegun
    rw [hasked] at hwaiting
    cases hwaiting

/-- One of the probes has got further. -/
theorem Probes.set {purpose : ProbePurpose} {probes : List (String × Progress Bool)} {w' : World}
    (h : w.Probes key purpose probes) {i : Nat} {progress : Progress Bool} {as : List Inquiry}
    (begun : i ∉ w.beginning key) (apart : ∀ q ∈ w.inquiriesOf key, q.part ≠ i)
    (begins : w'.beginning key = w.beginning key)
    (asks : w'.inquiriesOf key = w.inquiriesOf key ++ as)
    (asked : as = [] ∨ ∃ q, as = [q] ∧ q.part = i ∧
      (setProbe probes i progress)[i]? = some (q.plugin.name, .asked)) :
    w'.Probes key purpose (setProbe probes i progress) where
  distinct := by
    rw [map_fst_setProbe]
    exact h.distinct
  suits := by
    rw [map_fst_setProbe]
    exact h.suits
  waiting j hj := by
    rw [begins] at hj
    rw [getElem?_setProbe_of_ne]
    · exact h.waiting j hj
    · rintro rfl
      exact begun hj
  once := by
    rw [begins]
    exact h.once
  asked q hq := by
    rw [asks] at hq
    rcases List.mem_append.1 hq with hq | hq
    · rw [getElem?_setProbe_of_ne probes progress (apart q hq)]
      exact h.asked q hq
    · rcases asked with rfl | ⟨q', rfl, rfl, hasked⟩
      · cases hq
      · obtain rfl := List.mem_singleton.1 hq
        exact hasked
  single := by
    rw [asks, List.map_append, List.nodup_append]
    rcases asked with rfl | ⟨q', rfl, rfl, _⟩
    · exact ⟨h.single, List.nodup_nil, by simp⟩
    · refine ⟨h.single, by simp, ?_⟩
      intro part hpart part' hpart' heq
      obtain ⟨q, hq, rfl⟩ := List.mem_map.1 hpart
      exact apart q hq (heq.trans (List.mem_singleton.1 hpart'))

/-! ## Every reaction -/

theorem Orderly.activating (h : w.Orderly) (reaches : w.Reaches r) (ready : w.Ready e)
    {name : String} {p : Plugin} (starts : r.Starts e key) (holds : r.Holds e key)
    (found : r.get? name = some p)
    (leaves : r'.Leaves (r.setCall key ⟨.activating name, false⟩) [] [⟨key, 0, p, .available⟩] []) :
    (w.after r').Orderly := by
  obtain ⟨hknown, hbegins, hasks, _⟩ := reaches.starts h ready starts
  have hholder := reaches.holds ready starts holds
  have hlock : (w.after r').registry.lock.holder = some key := by
    change r'.lock.holder = some key
    rw [leaves.lock]
    exact hholder
  refine h.after_setCall reaches leaves hknown (by simp) (by simp) ?_
  refine ⟨hknown, fun _ => hlock, fun _ => hlock, nofun, ?_, nofun⟩
  rintro _ ⟨⟩ q hq
  rw [inquiriesOf_after leaves, hasks] at hq
  obtain rfl : q = ⟨key, 0, p, .available⟩ := by simpa using hq
  exact ⟨rfl, reaches.named h found⟩

theorem Orderly.probing (h : w.Orderly) (reaches : w.Reaches r) (ready : w.Ready e)
    {purpose : ProbePurpose} {names : List String} (starts : r.Starts e key)
    (holds : purpose = .available ∨ r.Holds e key)
    (distinct : purpose = .available ∨ names.Nodup) (suits : purpose.Suits names)
    (leaves : r'.Leaves (r.setCall key ⟨.probing purpose (names.map (·, .waiting)), false⟩)
      ((List.range names.length).map (.begin key ·)) [] []) : (w.after r').Orderly := by
  obtain ⟨hknown, hbegins, hasks, hgranted⟩ := reaches.starts h ready starts
  have hlock : (w.after r').registry.lock = r.lock := leaves.lock
  have hfirst : (names.map fun name => (name, (.waiting : Progress Bool))).map Prod.fst = names := by
    rw [List.map_map]
    exact List.map_id names
  have hparts : (w.after r').beginning key = List.range names.length := by
    have hpart : (Event.beginning? key) ∘ (Event.begin key ·) = some := by
      funext i
      exact if_pos rfl
    rw [beginning_after leaves, hbegins, List.nil_append, List.filterMap_map, hpart,
      List.filterMap_some]
  have hopen : (w.after r').inquiriesOf key = [] := by
    rw [inquiriesOf_after leaves, hasks]
    rfl
  refine h.after_setCall reaches leaves hknown ?_ (by simp) ?_
  · intro l hl
    obtain ⟨i, _, rfl⟩ := List.mem_map.1 hl
    exact .inl ⟨i, rfl⟩
  refine ⟨hknown, fun hdue => ?_, fun hlocks => ?_, nofun, nofun, ?_⟩
  · rw [hlock]
    rcases List.mem_append.1 hdue with hdue | hdue
    · exact hgranted hdue
    · rw [leaves.laters] at hdue
      obtain ⟨i, _, heq⟩ := List.mem_map.1 hdue
      cases heq
  · rw [hlock]
    exact reaches.holds ready starts (holds.resolve_left hlocks)
  · rintro _ _ ⟨⟩
    refine ⟨hfirst.symm ▸ distinct, hfirst.symm ▸ suits, ?_, ?_, ?_, ?_⟩
    · intro i hi
      rw [hparts] at hi
      have hlt := List.mem_range.1 hi
      exact ⟨names[i], by simp [hlt]⟩
    · rw [hparts]
      exact List.nodup_range
    · intro q hq
      rw [hopen] at hq
      cases hq
    · rw [hopen]
      exact List.nodup_nil

/-- A call that was under way and goes on with the same right to the lock. -/
theorem Fits.carried {c c' : Call} (h : w.Fits key c) (reaches : w.Reaches r)
    (lock : r'.lock = r.lock) (later : ∀ l ∈ r'.laters, l ≠ .granted key)
    (locks : c'.stage.locks → c.stage.locks)
    (queued : ∀ request, c'.stage = .queued request →
      (w.after r').beginning key = [] ∧ (w.after r').inquiriesOf key = [])
    (activating : ∀ name, c'.stage = .activating name →
      ∀ q ∈ (w.after r').inquiriesOf key, q.part = 0 ∧ q.plugin.name = name)
    (probing : ∀ purpose probes, c'.stage = .probing purpose probes →
      (w.after r').Probes key purpose probes) : (w.after r').Fits key c' := by
  have hholder : w.registry.lock.holder = some key →
      (w.after r').registry.lock.holder = some key := by
    intro hold
    change r'.lock.holder = some key
    rw [lock]
    exact reaches.holder key hold
  refine ⟨h.known, fun hdue => ?_, fun hlocks => hholder (h.locked (locks hlocks)), queued,
    activating, probing⟩
  rcases List.mem_append.1 hdue with hdue | hdue
  · exact hholder (h.granted hdue)
  · exact absurd rfl (later _ hdue)

/-- The plugin that a probe is put to has the name that the probe is about. -/
theorem Orderly.named_of_probed (h : w.Orderly) (reaches : w.Reaches r) {purpose : ProbePurpose}
    {probes : List (String × Progress Bool)} {name : String} {p : Plugin}
    (call : r.calls.get? key = some ⟨.probing purpose probes, false⟩)
    (found : r.probedPlugin purpose name = some p) : p.name = name := by
  have hprobes := (h.fits key _ (reaches.call call)).probing purpose probes rfl
  cases purpose with
  | replace fresh => exact (hprobes.suits fresh rfl).2 name p found
  | _ => exact reaches.named h found

theorem Orderly.asking (h : w.Orderly) (reaches : w.Reaches r) (ready : w.Ready e) {i : Nat}
    {purpose : ProbePurpose} {probes : List (String × Progress Bool)} {name : String}
    {progress : Progress Bool} {p : Plugin} (event : e = .begin key i)
    (call : r.calls.get? key = some ⟨.probing purpose probes, false⟩)
    (part : probes[i]? = some (name, progress)) (found : r.probedPlugin purpose name = some p)
    (leaves : r'.Leaves (r.setCall key ⟨.probing purpose (setProbe probes i .asked), false⟩) []
      [⟨key, i, p, .available⟩] []) : (w.after r').Orderly := by
  have hcall₀ := reaches.call call
  have hfits := h.fits key _ hcall₀
  have hprobes := hfits.probing purpose probes rfl
  obtain ⟨hbegun, hapart⟩ := hprobes.apart ready (.inl event) hcall₀ rfl
  have hnamed : p.name = name := h.named_of_probed reaches call found
  refine h.after_setCall reaches leaves hfits.known (by simp) (by simp) ?_
  refine hfits.carried reaches leaves.lock ?_ id nofun nofun ?_
  · rw [leaves.laters]
    exact fun _ hl => absurd hl List.not_mem_nil
  · rintro _ _ ⟨⟩
    refine hprobes.set hbegun hapart ?_ ?_ (.inr ⟨⟨key, i, p, .available⟩, rfl, rfl, ?_⟩)
    · rw [beginning_after leaves]
      simp
    · rw [inquiriesOf_after leaves]
      simp
    · rw [hnamed]
      exact getElem?_setProbe_self part .asked

theorem Orderly.settling (h : w.Orderly) (reaches : w.Reaches r) (ready : w.Ready e) {i : Nat}
    {c : Call} {purpose : ProbePurpose} {probes : List (String × Progress Bool)} {ok : Bool}
    (event : e = .begin key i ∨ ∃ a, e = .answered key i a)
    (call : r.calls.get? key = some c) (stage : c.stage = .probing purpose probes)
    (leaves : r'.Leaves
      (r.setCall key { c with stage := .probing purpose (setProbe probes i (.settled ok)) })
      (if allSettled (setProbe probes i (.settled ok)) then [.gathered key] else []) [] []) :
    (w.after r').Orderly := by
  have hcall₀ := reaches.call call
  have hfits := h.fits key c hcall₀
  have hprobes := hfits.probing purpose probes stage
  obtain ⟨hbegun, hapart⟩ := hprobes.apart ready event hcall₀ stage
  have hlater : ∀ l ∈ r'.laters, l = .gathered key := by
    rw [leaves.laters]
    split
    · exact fun l hl => List.mem_singleton.1 hl
    · exact fun _ hl => absurd hl List.not_mem_nil
  refine h.after_setCall reaches leaves hfits.known ?_ (by simp) ?_
  · exact fun l hl => .inr (hlater l (leaves.laters ▸ hl))
  refine hfits.carried reaches leaves.lock ?_ ?_ nofun nofun ?_
  · rintro l hl rfl
    cases hlater _ hl
  · rw [stage]
    exact id
  · rintro _ _ ⟨⟩
    refine hprobes.set hbegun hapart ?_ ?_ (.inl rfl)
    · rw [beginning_after leaves]
      split <;> simp [Event.beginning?]
    · rw [inquiriesOf_after leaves]
      simp

theorem Orderly.marking (h : w.Orderly) (reaches : w.Reaches r) {c : Call}
    (call : r.calls.get? key = some c)
    (leaves : r'.Leaves (r.setCall key { c with aborting := true }) [] [] []) :
    (w.after r').Orderly := by
  have hfits := h.fits key c (reaches.call call)
  have hbegins : (w.after r').beginning key = w.beginning key := by
    rw [beginning_after leaves]
    simp
  have hasks : (w.after r').inquiriesOf key = w.inquiriesOf key := by
    rw [inquiriesOf_after leaves]
    simp
  refine h.after_setCall reaches leaves hfits.known (by simp) (by simp) ?_
  refine hfits.carried reaches leaves.lock ?_ id ?_ ?_ ?_
  · rw [leaves.laters]
    exact fun _ hl => absurd hl List.not_mem_nil
  · rw [hbegins, hasks]
    exact hfits.queued
  · rw [hasks]
    exact hfits.activating
  · intro purpose probes stage
    have hprobes := hfits.probing purpose probes stage
    refine ⟨hprobes.distinct, hprobes.suits, ?_, ?_, ?_, ?_⟩
    · rw [hbegins]
      exact hprobes.waiting
    · rw [hbegins]
      exact hprobes.once
    · rw [hasks]
      exact hprobes.asked
    · rw [hasks]
      exact hprobes.single

theorem Orderly.reading (h : w.Orderly) (reaches : w.Reaches r) (ready : w.Ready e) {c : Call}
    (stage : c.stage.reads = true)
    (since : (∃ request, e = .call key request) ∨
      ∃ c₀, r.calls.get? key = some c₀ ∧ c₀.stage.reads = true)
    (later : ∀ l ∈ ls, (∃ i, l = .begin key i) ∨ l = .gathered key)
    (asked : ∀ q ∈ as, q.key = key) (leaves : r'.Leaves (r.setCall key c) ls as []) :
    (w.after r').Orderly := by
  have hknown : key ∈ w.known ∧ (.granted key ∈ w.due → r.lock.holder = some key) := by
    rcases since with ⟨request, rfl⟩ | ⟨c₀, call, _⟩
    · exact ⟨ready.1, fun hdue => absurd hdue ready.2.2.2.2⟩
    · have hfits := h.fits key c₀ (reaches.call call)
      exact ⟨hfits.known, fun hdue => reaches.holder key (hfits.granted hdue)⟩
  refine h.after_setCall reaches leaves hknown.1 later asked ?_
  refine ⟨hknown.1, fun hdue => ?_, fun hlocks => absurd hlocks (Stage.not_locks_of_reads stage), ?_,
    ?_, ?_⟩
  · change r'.lock.holder = some key
    rw [leaves.lock]
    rcases List.mem_append.1 hdue with hdue | hdue
    · exact hknown.2 hdue
    · rw [leaves.laters] at hdue
      rcases later _ hdue with ⟨i, heq⟩ | heq
      · cases heq
      · cases heq
  · intro request heq
    rw [heq] at stage
    cases stage
  · intro name heq
    rw [heq] at stage
    cases stage
  · intro purpose probes heq
    rw [heq] at stage
    cases stage

theorem Orderly.goes (h : w.Orderly) (reaches : w.Reaches r) (ready : w.Ready e)
    (goes : Goes r e key r') : (w.after r').Orderly := by
  have hnamed : ∀ name p, r.get? name = some p → p.name = name := fun _ _ found =>
    reaches.named h found
  cases goes with
  | activating name p starts holds found leaves =>
      exact h.activating reaches ready starts holds found leaves
  | probing purpose names starts holds distinct suits leaves =>
      exact h.probing reaches ready starts holds distinct suits leaves
  | asking i purpose probes name progress p event call part found leaves =>
      exact h.asking reaches ready event call part found leaves
  | settling i c purpose probes name progress ok event call stage part leaves =>
      refine h.settling reaches ready ?_ call stage leaves
      rcases event with ⟨event, _⟩ | ⟨a, event, _⟩
      · exact .inl event
      · exact .inr ⟨a, event⟩
  | marking c event call leaves => exact h.marking reaches call leaves
  | reading c ls as stage since later asked leaves =>
      exact h.reading reaches ready stage since later asked leaves
  | activated i c name event call stage leaves =>
      refine h.after_without reaches ?_ ?_ ?_ leaves
      · rfl
      · rfl
      · exact hnamed
  | completing purpose probes reply event leaves =>
      refine h.after_without reaches ?_ ?_ ?_ leaves
      · cases purpose <;> rfl
      · cases purpose <;> rfl
      -- The new instances were put under their own names when the replacement began.
      · cases purpose with
        | replace fresh =>
            rcases event with ⟨_, call⟩ | ⟨_, _, _, suits⟩
            · have hfits := h.fits key _ (reaches.call call)
              exact ((hfits.probing _ _ rfl).suits fresh rfl).2
            · exact (suits fresh rfl).2
        | _ => exact hnamed
  | ending outcome leaves => exact h.after_without reaches rfl rfl hnamed leaves

/-- The plugins may change; the calls, what is due and what is asked stay as they are. -/
theorem Orderly.aside (h : w.Orderly) (leaves : r'.Leaves core [] [] [])
    (lock : core.lock = w.registry.lock) (calls : core.calls = w.registry.calls)
    (named : ∀ name p, core.get? name = some p → p.name = name) : (w.after r').Orderly := by
  have hdue : (w.after r').due = w.due := by simp [World.after, leaves.laters]
  have hinquiries : (w.after r').inquiries = w.inquiries := by simp [World.after, leaves.asks]
  have hlock : (w.after r').registry.lock = w.registry.lock := leaves.lock.trans lock
  refine ⟨rfl, ?_, ?_, ?_, ?_, ?_⟩
  · change ∀ name p, r'.get? name = some p → p.name = name
    unfold Registry.get?
    rw [leaves.plugins]
    exact named
  · rw [hdue]
    exact h.due
  · rw [hinquiries]
    exact h.inquiries
  · rw [hlock]
    exact h.waiting
  · intro key c call
    change r'.calls.get? key = some c at call
    rw [leaves.calls, calls] at call
    refine (h.fits key c call).frame (fun _ hk => hk) ?_ (fun hk => .inl (hdue ▸ hk)) ?_ ?_
    · rw [hlock]
      exact id
    · rw [beginning, hdue]
      exact List.Sublist.refl _
    · rw [inquiriesOf, hinquiries]
      exact List.Sublist.refl _

theorem Orderly.altered (h : w.Orderly) (event : w.registry.altered e = some core)
    (leaves : r'.Leaves core [] [] []) : (w.after r').Orderly := by
  cases e with
  | register p =>
      cases event
      refine h.aside leaves rfl rfl fun name q found => ?_
      change (w.registry.plugins.put p.name p).get? name = some q at found
      rw [Keyed.get?_put] at found
      split at found
      · rename_i heq
        cases found
        exact heq.symm
      · exact h.named name q found
  | unregister name =>
      cases event
      split at leaves
      · refine h.aside leaves rfl rfl fun other q found => ?_
        change (w.registry.plugins.drop name).get? other = some q at found
        rw [Keyed.get?_drop] at found
        split at found
        · cases found
        · exact h.named other q found
      · exact h.aside leaves rfl rfl h.named
  | clear =>
      cases event
      exact h.aside leaves rfl rfl fun _ _ found => by cases found
  | deactivate name =>
      cases event
      exact h.aside leaves rfl rfl h.named
  | deactivateAll =>
      cases event
      exact h.aside leaves rfl rfl h.named
  | _ => cases event

theorem Orderly.queued (h : w.Orderly) {request held : Request} (ready : w.Ready (.call key request))
    (leaves : r'.Leaves
      ({ w.registry with
          lock := { w.registry.lock with
            waiting := w.registry.lock.waiting ++ [key] } }.setCall key ⟨.queued held, false⟩)
      [] [] []) : (w.after r').Orderly := by
  obtain ⟨hknown, _, hbegins, hasks, hgranted⟩ := ready
  have hreaches : w.Reaches { w.registry with
      lock := { w.registry.lock with waiting := w.registry.lock.waiting ++ [key] } } := by
    refine ⟨rfl, rfl, fun k hk => ?_, fun _ hk => hk⟩
    rcases List.mem_append.1 hk with hk | hk
    · exact h.waiting k hk
    · obtain rfl := List.mem_singleton.1 hk
      exact hknown
  refine h.after_setCall hreaches leaves hknown (by simp) (by simp) ?_
  refine ⟨hknown, fun hdue => ?_, nofun, fun _ _ => ⟨?_, ?_⟩, nofun, nofun⟩
  · rcases List.mem_append.1 hdue with hdue | hdue
    · exact absurd hdue hgranted
    · rw [leaves.laters] at hdue
      cases hdue
  · rw [beginning_after leaves, hbegins]
    rfl
  · rw [inquiriesOf_after leaves, hasks]
    rfl

theorem Orderly.withdrawn (h : w.Orderly)
    (leaves : r'.Leaves
      ({ w.registry with
          lock := { w.registry.lock with
            waiting := w.registry.lock.waiting.filter (· != key) } }.without key)
      (({ w.registry.lock with
          waiting := w.registry.lock.waiting.filter (· != key) } : Lock).grants key) []
      [(key, .aborted)]) : (w.after r').Orderly := by
  have hreaches : w.Reaches { w.registry with
      lock := { w.registry.lock with
        waiting := w.registry.lock.waiting.filter (· != key) } } :=
    ⟨rfl, rfl, fun k hk => h.waiting k (List.mem_filter.1 hk).1, fun _ hk => hk⟩
  exact h.after_without hreaches rfl rfl h.named leaves

/-! ## Schedules -/

theorem Orderly.react (h : w.Orderly) (ready : w.Ready e) : (w.react e).Orderly := by
  rw [react_eq_after]
  cases step_reacts h.outbox w.buffers e with
  | changed core event leaves => exact h.altered event leaves
  | idle leaves => exact h.aside leaves rfl rfl h.named
  | queued key request held event busy leaves =>
      subst event
      exact h.queued ready leaves
  | enters key request event free goes => exact h.goes (reaches_taken free key) ready goes
  | goes key goes => exact h.goes h.reaches ready goes
  | withdrawn key event leaves => exact h.withdrawn leaves

theorem Orderly.step (h : w.Orderly) (m : Move) : (w.step m).Orderly := by
  unfold World.step
  split
  · rename_i e event
    exact (h.spend m).react (h.ready event)
  · exact h.spend m

theorem orderly_start : Orderly {} where
  outbox := rfl
  named name p found := by cases found
  due e he := by cases he
  inquiries q hq := by cases hq
  waiting key hkey := by cases hkey
  fits key c call := by cases call

end Shellwright.Registry.World

namespace Shellwright.Registry.Schedule

theorem orderly (s : Schedule) (t : Nat) : (s.world t).Orderly := by
  induction t with
  | zero => exact World.orderly_start
  | succ t ih => exact ih.step (s t)

end Shellwright.Registry.Schedule
