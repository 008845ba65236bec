import Shellwright.Proofs.Registry.Steps
/-!
# Order among the calls of a registry

What holds in every world that a schedule leads to: only the holder of the lock changes what is active,
every part of a call is asked once, and its answer finds the part waiting for it.
-/

namespace Shellwright.Registry

/-- The stages in which a call may not be without the lock. -/
def Stage.locks : Stage → Prop
  | .activating _ => True
  | .probing purpose _ => purpose ≠ .available
  | _ => False

theorem Stage.not_locks_of_reads {stage : Stage} (h : stage.reads = true) : ¬ stage.locks := by
  cases stage with
  | checking document options parts => exact id
  | formatting document options p rest collected => exact id
  | queued request => cases h
  | activating name => cases h
  | probing purpose probes => cases h

def Event.beginning? (key : CallKey) : Event → Option Nat
  | .begin k i => if k = key then some i else none
  | _ => none

/-- The events that a registry itself asks for. -/
def Event.IsDue : Event → Prop
  | .granted _ => True
  | .begin .. => True
  | .gathered _ => True
  | _ => False

namespace World

/-- The parts of a call that are still to be asked. -/
def beginning (w : World) (key : CallKey) : List Nat :=
  w.due.filterMap (·.beginning? key)

def inquiriesOf (w : World) (key : CallKey) : List Inquiry :=
  w.inquiries.filter (·.key = key)

/-- What is due and what was asked is what the probes of the call say. -/
structure Probes (w : World) (key : CallKey) (purpose : ProbePurpose)
    (probes : List (String × Progress Bool)) : Prop where
  distinct : purpose = .available ∨ (probes.map Prod.fst).Nodup
  suits : purpose.Suits (probes.map Prod.fst)
  waiting : ∀ i ∈ w.beginning key, ∃ name, probes[i]? = some (name, .waiting)
  once : (w.beginning key).Nodup
  asked : ∀ q ∈ w.inquiriesOf key, probes[q.part]? = some (q.plugin.name, .asked)
  single : ((w.inquiriesOf key).map (·.part)).Nodup

/-- A call fits the world that it is in. -/
structure Fits (w : World) (key : CallKey) (c : Call) : Prop where
  known : key ∈ w.known
  granted : .granted key ∈ w.due → w.registry.lock.holder = some key
  locked : c.stage.locks → w.registry.lock.holder = some key
  queued : ∀ request, c.stage = .queued request →
    w.beginning key = [] ∧ w.inquiriesOf key = []
  activating : ∀ name, c.stage = .activating name →
    ∀ q ∈ w.inquiriesOf key, q.part = 0 ∧ q.plugin.name = name
  probing : ∀ purpose probes, c.stage = .probing purpose probes → w.Probes key purpose probes

structure Orderly (w : World) : Prop where
  outbox : w.registry.outbox = []
  named : ∀ name p, w.registry.get? name = some p → p.name = name
  due : ∀ e ∈ w.due, e.IsDue ∧ ∀ key, e.key? = some key → key ∈ w.known
  inquiries : ∀ q ∈ w.inquiries, q.key ∈ w.known
  waiting : ∀ key ∈ w.registry.lock.waiting, key ∈ w.known
  fits : ∀ key c, w.registry.calls.get? key = some c → w.Fits key c

/-- The world is as it has to be when the event happens. -/
def Ready (w : World) : Event → Prop
  | .call key _ => key ∈ w.known ∧ w.registry.calls.get? key = none ∧
      w.beginning key = [] ∧ w.inquiriesOf key = [] ∧ .granted key ∉ w.due
  | .granted key => ∀ c, w.registry.calls.get? key = some c →
      w.registry.lock.holder = some key
  | .begin key i => ∀ c purpose probes, w.registry.calls.get? key = some c →
      c.stage = .probing purpose probes →
      i ∉ w.beginning key ∧ ∃ name, probes[i]? = some (name, .waiting)
  | .answered key i _ => ∀ c purpose probes, w.registry.calls.get? key = some c →
      c.stage = .probing purpose probes →
      i ∉ (w.inquiriesOf key).map (·.part) ∧ ∃ name, probes[i]? = some (name, .asked)
  | _ => True

/-! ## What a call does not notice -/

/-- A call fits a world in which less is due to it and less was asked for it. -/
theorem Fits.frame {w w' : World} {key : CallKey} {c : Call} (h : w.Fits key c)
    (known : ∀ k ∈ w.known, k ∈ w'.known)
    (holder : w.registry.lock.holder = some key → w'.registry.lock.holder = some key)
    (granted : .granted key ∈ w'.due →
      .granted key ∈ w.due ∨ w'.registry.lock.holder = some key)
    (begins : (w'.beginning key).Sublist (w.beginning key))
    (asks : (w'.inquiriesOf key).Sublist (w.inquiriesOf key)) : w'.Fits key c where
  known := known key h.known
  granted hdue := (granted hdue).elim (fun hold => holder (h.granted hold)) id
  locked hlocks := holder (h.locked hlocks)
  queued request hstage := by
    obtain ⟨hbegins, hasks⟩ := h.queued request hstage
    rw [hbegins] at begins
    rw [hasks] at asks
    exact ⟨List.sublist_nil.1 begins, List.sublist_nil.1 asks⟩
  activating name hstage q hq := h.activating name hstage q (asks.subset hq)
  probing purpose probes hstage := by
    have hprobes := h.probing purpose probes hstage
    exact ⟨hprobes.distinct, hprobes.suits, fun i hi => hprobes.waiting i (begins.subset hi),
      hprobes.once.sublist begins, fun q hq => hprobes.asked q (asks.subset hq),
      hprobes.single.sublist (asks.map _)⟩

/-! ## Moves -/

theorem beginning_eq_nil {w : World} {key : CallKey}
    (h : ∀ e ∈ w.due, ∀ k, e.key? = some k → k ≠ key) : w.beginning key = [] := by
  rw [beginning, List.filterMap_eq_nil_iff]
  intro e he
  cases e with
  | begin k i => exact if_neg (h _ he k rfl)
  | _ => rfl

theorem inquiriesOf_eq_nil {w : World} {key : CallKey} (h : ∀ q ∈ w.inquiries, q.key ≠ key) :
    w.inquiriesOf key = [] := by
  rw [inquiriesOf, List.filter_eq_nil_iff]
  intro q hq
  simpa using h q hq

theorem not_mem_filterMap_eraseIdx {α β : Type} {f : α → Option β} {l : List α} {n : Nat} {a : α}
    {b : β} (hn : l[n]? = some a) (hf : f a = some b) (h : (l.filterMap f).Nodup) :
    b ∉ (l.eraseIdx n).filterMap f := by
  induction l generalizing n with
  | nil => simp at hn
  | cons x rest ih =>
      cases n with
      | zero =>
          obtain rfl : x = a := by simpa using hn
          rw [List.filterMap_cons_some hf, List.nodup_cons] at h
          exact h.1
      | succ n =>
          have hn : rest[n]? = some a := by simpa using hn
          rw [List.eraseIdx_cons_succ]
          cases hx : f x with
          | none =>
              rw [List.filterMap_cons_none hx] at h ⊢
              exact ih hn h
          | some y =>
              rw [List.filterMap_cons_some hx] at h ⊢
              obtain ⟨hy, hrest⟩ := List.nodup_cons.1 h
              rw [List.mem_cons, not_or]
              refine ⟨?_, ih hn hrest⟩
              rintro rfl
              exact hy (List.mem_filterMap.2 ⟨a, List.mem_of_getElem? hn, hf⟩)

theorem map_part_inquiriesOf (w : World) (key : CallKey) :
    (w.inquiriesOf key).map (·.part) =
      w.inquiries.filterMap fun q => if q.key = key then some q.part else none := by
  unfold inquiriesOf
  induction w.inquiries with
  | nil => rfl
  | cons q rest ih =>
      by_cases h : q.key = key
      · simp [h, ih]
      · simp [h, ih]

/-- Less is due and fewer questions are open than before, and the keys of calls remain. -/
theorem Orderly.less {w w' : World} (h : w.Orderly) (registry : w'.registry = w.registry)
    (due : w'.due.Sublist w.due) (inquiries : w'.inquiries.Sublist w.inquiries)
    (known : ∀ k ∈ w.known, k ∈ w'.known) : w'.Orderly where
  outbox := by rw [registry, h.outbox]
  named := by
    rw [registry]
    exact h.named
  due e he := by
    obtain ⟨hdue, hkeys⟩ := h.due e (due.subset he)
    exact ⟨hdue, fun key hkey => known key (hkeys key hkey)⟩
  inquiries q hq := known _ (h.inquiries q (inquiries.subset hq))
  waiting := by
    rw [registry]
    exact fun key hkey => known key (h.waiting key hkey)
  fits key c hcall := by
    rw [registry] at hcall
    refine (h.fits key c hcall).frame known ?_ (fun hdue => .inl (due.subset hdue)) ?_ ?_
    · rw [registry]
      exact id
    · exact due.filterMap _
    · exact inquiries.filter _

theorem Orderly.spend {w : World} (h : w.Orderly) (m : Move) : (w.spend m).Orderly := by
  cases m with
  | host e =>
      cases e with
      | call key request =>
          exact h.less rfl (List.Sublist.refl _) (List.Sublist.refl _)
            fun k hk => List.mem_cons_of_mem _ hk
      | _ => exact h
  | edit b => exact h.less rfl (List.Sublist.refl _) (List.Sublist.refl _) fun _ hk => hk
  | next n => exact h.less rfl (List.eraseIdx_sublist _ _) (List.Sublist.refl _) fun _ hk => hk
  | answer n a =>
      exact h.less rfl (List.Sublist.refl _) (List.eraseIdx_sublist _ _) fun _ hk => hk
  | stop n => exact h.less rfl (List.Sublist.refl _) (List.eraseIdx_sublist _ _) fun _ hk => hk

theorem Orderly.ready_host {w : World} (h : w.Orderly) {e : Event} (admitted : w.admits e = true) :
    (w.spend (.host e)).Ready e := by
  cases e with
  | call key request =>
      have hnew : key ∉ w.known := by simpa [admits] using admitted
      refine ⟨List.mem_cons_self, ?_, ?_, ?_, ?_⟩
      · cases hcall : w.registry.calls.get? key with
        | none => exact hcall
        | some c => exact absurd (h.fits key c hcall).known hnew
      · refine beginning_eq_nil fun e he k hkey => ?_
        rintro rfl
        exact hnew ((h.due e he).2 k hkey)
      · refine inquiriesOf_eq_nil fun q hq => ?_
        rintro rfl
        exact hnew (h.inquiries q hq)
      · exact fun hdue => hnew ((h.due _ hdue).2 key rfl)
  | granted key => cases admitted
  | begin key i => cases admitted
  | answered key i a => cases admitted
  | _ => exact trivial

theorem Orderly.ready_next {w : World} (h : w.Orderly) {n : Nat} {e : Event}
    (due : w.due[n]? = some e) : (w.spend (.next n)).Ready e := by
  have hmem := List.mem_of_getElem? due
  cases e with
  | granted key => exact fun c hcall => (h.fits key c hcall).granted hmem
  | begin key i =>
      intro c purpose probes hcall hstage
      have hprobes := (h.fits key c hcall).probing purpose probes hstage
      have hpart : (Event.begin key i).beginning? key = some i := if_pos rfl
      refine ⟨not_mem_filterMap_eraseIdx due hpart hprobes.once, ?_⟩
      exact hprobes.waiting i (List.mem_filterMap.2 ⟨_, hmem, hpart⟩)
  | call key request => exact absurd (h.due _ hmem).1 nofun
  | answered key i a => exact absurd (h.due _ hmem).1 nofun
  | _ => exact trivial

theorem Orderly.ready_answer {w : World} (h : w.Orderly) {n : Nat} {q : Inquiry} (a : Answer)
    (asked : w.inquiries[n]? = some q) :
    (w.spend (.answer n a)).Ready (.answered q.key q.part a) := by
  intro c purpose probes hcall hstage
  have hprobes := (h.fits q.key c hcall).probing purpose probes hstage
  have hmem : q ∈ w.inquiriesOf q.key := by
    simpa [inquiriesOf] using List.mem_of_getElem? asked
  refine ⟨?_, q.plugin.name, hprobes.asked q hmem⟩
  have hsingle := hprobes.single
  rw [map_part_inquiriesOf] at hsingle ⊢
  exact not_mem_filterMap_eraseIdx (f := fun x => if x.key = q.key then some x.part else none)
    asked (if_pos rfl) hsingle

theorem Orderly.ready {w : World} (h : w.Orderly) {m : Move} {e : Event}
    (event : w.event? m = some e) : (w.spend m).Ready e := by
  cases m with
  | host e' =>
      obtain ⟨hadmits, ⟨⟩⟩ := Option.ite_none_right_eq_some.1 event
      exact h.ready_host hadmits
  | edit b => cases event
  | next n => exact h.ready_next event
  | answer n a =>
      obtain ⟨q, hq, rfl⟩ := Option.map_eq_some_iff.1 event
      exact h.ready_answer a hq
  | stop n =>
      obtain ⟨q, hq, rfl⟩ := Option.map_eq_some_iff.1 event
      exact trivial

end World

end Shellwright.Registry
