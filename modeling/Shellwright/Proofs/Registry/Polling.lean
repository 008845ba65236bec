import Shellwright.Proofs.Registry.Formatting
import Shellwright.Proofs.Registry.Merging
import Shellwright.Proofs.Registry.Replacing
/-!
# The verdict of a format

A format asks the formatters that are active and concerned as it begins, one after another in the order
in which they were registered at that moment, and each once. The first one with edits ends it; when
none has any, what all of them say is put together. What happens to the registry meanwhile makes no
difference.
-/

namespace Shellwright.Registry

/-! ## Verdicts of formatters -/

/-- What comes of the answer of a formatter: all that it says, or one error in its name when it raises
one. -/
structure Renders (p : Plugin) (a : Answer) (v : FormatVerdict) : Prop where
  heard : ∀ said, a = .formatted said → v = said
  raised : ∀ text, a = .raised text → ErrorOf p v.toVerdict ∧ v.edits = [] ∧ v.inconclusive = false

theorem formatShare_renders (p : Plugin) (d : TextDocument) (a : Answer) :
    Renders p a (formatShare p d a) := by
  cases a with
  | formatted said => exact ⟨by rintro _ ⟨⟩; rfl, nofun⟩
  | raised text => exact ⟨nofun, by rintro _ ⟨⟩; exact ⟨⟨rfl, _, rfl, rfl, rfl⟩, rfl, rfl⟩⟩
  | available yes => exact ⟨nofun, nofun⟩
  | checked v => exact ⟨nofun, nofun⟩

/-- Each verdict is what comes of the answer in its place. -/
def AllRender (answers : List (Inquiry × Answer)) (vs : List FormatVerdict) : Prop :=
  List.Forall₂ (fun entry v => Renders entry.1.plugin entry.2 v) answers vs

theorem AllRender.append {answers : List (Inquiry × Answer)} {vs : List FormatVerdict} {q : Inquiry}
    {a : Answer} {v : FormatVerdict} (h : AllRender answers vs) (last : Renders q.plugin a v) :
    AllRender (answers ++ [(q, a)]) (vs ++ [v]) :=
  List.rel_append h (.cons last .nil)

/-- The verdict of `n` formatters that have said `vs` one after another: that of the last of them when
it alone has edits, or else what all of them say. -/
inductive Prevails (n : Nat) : List FormatVerdict → FormatVerdict → Prop
  | wins (vs : List FormatVerdict) (v : FormatVerdict) (quiet : ∀ w ∈ vs, w.edits = [])
      (edits : v.edits ≠ []) : Prevails n (vs ++ [v]) v
  | nobody (vs : List FormatVerdict) (v : FormatVerdict) (all : vs.length = n)
      (quiet : ∀ w ∈ vs, w.edits = []) (unchanged : v.edits = [])
      (together : Together (vs.map (·.toVerdict)) v.toVerdict) : Prevails n vs v

/-- The question that a formatter is asked. -/
def polling (key : CallKey) (document : String) (options : CallOptions) (p : Plugin) : Inquiry :=
  ⟨key, 0, p, .format document options⟩

/-! ## Names of plugins -/

/-- No two plugins are registered under one name, nor will be when a replacement is over. -/
structure Tidy (r : Registry) : Prop where
  plugins : r.plugins.keys.Nodup
  fresh : ∀ key c fresh probes, r.calls.get? key = some c →
    c.stage = .probing (.replace fresh) probes → fresh.keys.Nodup

section Tidy

variable {r r' r₁ core : Registry} {e : Event} {key : CallKey} {ls : List Event} {as : List Inquiry}
  {fs : List (CallKey × Outcome Reply)}

theorem Leaves.tidy (h : r'.Leaves core ls as fs) (tidy : core.Tidy) : r'.Tidy := by
  refine ⟨?_, ?_⟩
  · rw [h.plugins]
    exact tidy.plugins
  · rw [h.calls]
    exact tidy.fresh

theorem Tidy.withLock (tidy : r.Tidy) (lock : Lock) : Tidy { r with lock := lock } :=
  ⟨tidy.plugins, tidy.fresh⟩

theorem Tidy.setCall (tidy : r.Tidy) (key : CallKey) {c : Call}
    (fresh : ∀ fresh probes, c.stage = .probing (.replace fresh) probes → fresh.keys.Nodup) :
    (r.setCall key c).Tidy := by
  refine ⟨tidy.plugins, fun k c' fresh' probes call stage => ?_⟩
  change (r.calls.put key c).get? k = some c' at call
  rw [Keyed.get?_put] at call
  split at call
  · cases call
    exact fresh fresh' probes stage
  · exact tidy.fresh k c' fresh' probes call stage

theorem Tidy.without (tidy : r.Tidy) (key : CallKey) : (r.without key).Tidy := by
  refine ⟨tidy.plugins, fun k c fresh probes call stage => ?_⟩
  change (r.calls.drop key).get? k = some c at call
  rw [Keyed.get?_drop] at call
  split at call
  · cases call
  · exact tidy.fresh k c fresh probes call stage

theorem Tidy.settle (tidy : r.Tidy) {purpose : ProbePurpose}
    (fresh : ∀ fresh, purpose = .replace fresh → fresh.keys.Nodup)
    (probes : List (String × Progress Bool)) : (r.settle purpose probes).Tidy := by
  cases purpose with
  | replace fresh' => exact ⟨fresh fresh' rfl, tidy.fresh⟩
  | _ => exact ⟨tidy.plugins, tidy.fresh⟩

theorem Tidy.altered (tidy : r.Tidy) (event : r.altered e = some core) : core.Tidy := by
  have hcalls := altered_calls event
  refine ⟨?_, by rw [hcalls]; exact tidy.fresh⟩
  cases e with
  | register p =>
      cases event
      exact Keyed.nodup_keys_put tidy.plugins p.name p
  | unregister name =>
      cases event
      split
      · exact tidy.plugins.sublist (List.filter_sublist.map _)
      · exact tidy.plugins
  | clear =>
      cases event
      exact List.nodup_nil
  | deactivate name =>
      cases event
      exact tidy.plugins
  | deactivateAll =>
      cases event
      exact tidy.plugins
  | _ => cases event

theorem startProbes_tidy (h : r₁.Leaves r [] [] []) (tidy : r.Tidy) {purpose : ProbePurpose}
    (fresh : ∀ fresh, purpose = .replace fresh → fresh.keys.Nodup) (names : List String) :
    (r₁.startProbes key purpose names).Tidy := by
  unfold startProbes
  split
  · obtain ⟨reply, hleaves⟩ := completeProbes_leaves h key purpose []
    exact hleaves.tidy ((tidy.settle fresh []).without key)
  · refine ((h.setCall key _).begins key (List.range names.length)).tidy (tidy.setCall key ?_)
    rintro fresh' _ ⟨⟩
    exact fresh fresh' rfl

theorem enter_tidy (h : r₁.Leaves r [] [] []) (tidy : r.Tidy) (request : Request) :
    (r₁.enter key request).Tidy := by
  cases request with
  | activate name =>
      simp only [enter]
      split
      · exact ((h.log _ _).finish key _).tidy (tidy.without key)
      · refine ((h.setCall key _).ask key 0 _ .available).tidy (tidy.setCall key ?_)
        exact fun _ _ heq => by cases heq
  | activateAll names => exact startProbes_tidy h tidy (fun _ heq => by cases heq) _
  | reactivate names => exact startProbes_tidy h tidy (fun _ heq => by cases heq) _
  | replace plugins names =>
      refine startProbes_tidy h tidy ?_ _
      rintro _ ⟨⟩
      exact Keyed.nodup_keys_ofList _
  | _ => exact h.tidy tidy

theorem acquire_tidy (h : r₁.Leaves r [] [] []) (tidy : r.Tidy) (request : Request) :
    (r₁.acquire key request).Tidy := by
  have hwaits (lock : Lock) : Leaves { r₁ with lock := lock } { r with lock := lock } [] [] [] :=
    ⟨h.plugins, h.active, rfl, h.calls, h.laters, h.asks, h.finishes⟩
  unfold acquire
  split
  · exact enter_tidy (hwaits _) (tidy.withLock _) request
  · refine ((hwaits _).setCall key _).tidy ((tidy.withLock _).setCall key ?_)
    exact fun _ _ heq => by cases heq

theorem Reads.tidy (h : Reads r key r') (tidy : r.Tidy) : r'.Tidy := by
  cases h with
  | idle leaves => exact leaves.tidy tidy
  | goes c ls as stage later asked leaves =>
      refine leaves.tidy (tidy.setCall key fun fresh probes hstage => ?_)
      rw [hstage] at stage
      cases stage
  | ends outcome leaves => exact leaves.tidy (tidy.without key)

theorem call_tidy (h : r.outbox = []) (tidy : r.Tidy) (buffers : Buffers) (request : Request) :
    (r.step buffers (.call key request)).Tidy := by
  have hstart := Leaves.start h
  cases request with
  | activate name => exact acquire_tidy hstart tidy _
  | activateAll names => exact acquire_tidy hstart tidy _
  | reactivate names => exact acquire_tidy hstart tidy _
  | replace plugins names => exact acquire_tidy (freshPlugins_leaves hstart [] plugins) tidy _
  | available => exact startProbes_tidy hstart tidy (fun _ heq => by cases heq) _
  | check document options => exact (call_reads h buffers rfl).tidy tidy
  | format document options => exact (call_reads h buffers rfl).tidy tidy

/-- A call that is under way stays tidy, whatever becomes of it. -/
theorem Goes.tidy (goes : Goes r e key r') (tidy : r.Tidy) (old : ¬ r.Starts e key) : r'.Tidy := by
  cases goes with
  | activating name p starts holds found leaves => exact absurd starts old
  | probing purpose names starts holds distinct suits leaves => exact absurd starts old
  | asking i purpose probes name progress p event call part found leaves =>
      refine leaves.tidy (tidy.setCall key ?_)
      rintro fresh _ ⟨⟩
      exact tidy.fresh key _ fresh probes call rfl
  | settling i c purpose probes name progress ok event call stage part leaves =>
      refine leaves.tidy (tidy.setCall key ?_)
      rintro fresh _ ⟨⟩
      exact tidy.fresh key c fresh probes call stage
  | marking c event call leaves =>
      exact leaves.tidy (tidy.setCall key fun fresh probes stage =>
        tidy.fresh key c fresh probes call stage)
  | reading c ls as stage since later asked leaves =>
      refine leaves.tidy (tidy.setCall key fun fresh probes hstage => ?_)
      rw [hstage] at stage
      cases stage
  | activated i c name event call stage leaves =>
      have hactive : (r.withActive name).Tidy := ⟨tidy.plugins, tidy.fresh⟩
      exact leaves.tidy (hactive.without key)
  | completing purpose probes reply event leaves =>
      rcases event with ⟨-, call⟩ | ⟨-, starts, -⟩
      · refine leaves.tidy ((tidy.settle ?_ probes).without key)
        rintro fresh rfl
        exact tidy.fresh key _ fresh probes call rfl
      · exact absurd starts old
  | ending outcome leaves => exact leaves.tidy (tidy.without key)

theorem step_tidy (h : r.outbox = []) (tidy : r.Tidy) (buffers : Buffers) (e : Event) :
    (r.step buffers e).Tidy := by
  have hstart := Leaves.start h
  by_cases hcall : ∃ key request, e = .call key request
  · obtain ⟨key, request, rfl⟩ := hcall
    exact call_tidy h tidy buffers request
  by_cases hgranted : ∃ key, e = .granted key
  · obtain ⟨key, rfl⟩ := hgranted
    simp only [step, withCall]
    split
    · split
      · exact enter_tidy hstart tidy _
      · exact tidy
    · exact tidy
  have hold (key : CallKey) : ¬ r.Starts e key := by
    rintro (⟨request, heq⟩ | ⟨heq, -⟩)
    · exact hcall ⟨key, request, heq⟩
    · exact hgranted ⟨key, heq⟩
  cases step_reacts h buffers e with
  | changed core event leaves => exact leaves.tidy (tidy.altered event)
  | idle leaves => exact leaves.tidy tidy
  | queued key request held event busy leaves => exact absurd ⟨key, request, event⟩ hcall
  | enters key request event free goes => exact absurd ⟨key, request, event⟩ hcall
  | goes key goes about => exact goes.tidy tidy (hold key)
  | withdrawn key event leaves => exact leaves.tidy ((tidy.withLock _).without key)

theorem tidy_start : Tidy {} where
  plugins := List.nodup_nil
  fresh key c fresh probes call := by cases call

theorem Schedule.tidy (s : Schedule) (t : Nat) : (s.registry t).Tidy := by
  induction t with
  | zero => exact tidy_start
  | succ t ih =>
      cases hevent : s.event? t with
      | none =>
          rw [registry_of_none hevent]
          exact ih
      | some e =>
          have hspend : ((s.world t).spend (s t)).registry.Tidy := by
            rw [World.spend_registry]
            exact ih
          have hstep := step_tidy (spend_orderly s t).outbox hspend ((s.world t).spend (s t)).buffers e
          rw [registry, world_of_some hevent]
          exact ⟨hstep.plugins, hstep.fresh⟩

/-- The plugins of a tidy registry have different names. -/
theorem World.Orderly.nodup_names {w : World} (h : w.Orderly) (tidy : w.registry.Tidy) :
    (w.registry.plugins.values.map (·.name)).Nodup := by
  have hnames : w.registry.plugins.values.map (·.name) = w.registry.plugins.keys := by
    unfold Keyed.values Keyed.keys
    rw [List.map_map]
    refine List.map_congr_left fun e he => ?_
    exact h.named e.1 e.2 (Keyed.get?_of_mem tidy.plugins he)
  rw [hnames]
  exact tidy.plugins

end Tidy

/-! ## Moves of a format -/

namespace World

/-- The formatter `p` is being asked; others have said `said`, and `rest` are still to be asked. -/
structure Polls (w : World) (key : CallKey) (document : String) (options : CallOptions) (p : Plugin)
    (rest : List Plugin) (said : List Verdict) : Prop where
  call : w.registry.calls.get? key = some ⟨.formatting document options p rest said, false⟩
  asked : w.inquiriesOf key = [polling key document options p]
  begun : w.beginning key = []
  gathered : w.gatherings key = 0

/-- The next formatter is asked, or there is none and the call ends. -/
inductive Next (w : World) (key : CallKey) (document : String) (options : CallOptions) (m : Move)
    (said : List Verdict) : List Plugin → Prop
  | asks (p : Plugin) (rest : List Plugin)
      (polls : (w.step m).Polls key document options p rest said)
      (put : w.puts key m = [polling key document options p]) (open' : w.endings m = []) :
      Next w key document options m said (p :: rest)
  | ends (put : w.puts key m = [])
      (ended : w.endings m = [(key, .done (.formatted { toVerdict := Verdict.merge said }))]) :
      Next w key document options m said []

variable {w w' : World} {key : CallKey} {document : String} {options : CallOptions} {m : Move}
  {e : Event} {p : Plugin} {rest plugins : List Plugin} {said : List Verdict} {r₁ : Registry}

theorem Polls.frame (h : w.Polls key document options p rest said) (same : w.Matches w' key) :
    w'.Polls key document options p rest said where
  call := same.call.trans h.call
  asked := List.perm_singleton.1 (h.asked ▸ same.asks.symm)
  begun := List.perm_nil.1 (h.begun ▸ same.begins.symm)
  gathered := same.gatherings.trans h.gathered

theorem next_of_leaves (event : w.event? m = some e) (bare : (w.spend m).Bare key)
    (leaves : r₁.Leaves (w.spend m).registry [] [] [])
    (step : (w.spend m).registry.step (w.spend m).buffers e =
      r₁.askFormatter key document options said plugins) :
    w.Next key document options m said plugins := by
  cases plugins with
  | nil =>
      have hended := leaves.finish key (.done (.formatted { toVerdict := Verdict.merge said }))
      refine .ends ?_ ?_
      · rw [puts_of_event event, step, askFormatter, hended.asks]
        rfl
      · rw [endings_of_event event, step]
        exact hended.finishes
  | cons p rest =>
      have hasked := (leaves.setCall key ⟨.formatting document options p rest said, false⟩).ask key 0 p
        (.format document options)
      have hself : [polling key document options p].filter (·.key = key) =
          [polling key document options p] := by simp [polling]
      refine .asks p rest ?_ ?_ ?_
      · rw [step_of_event event, react_eq_after, step]
        refine ⟨?_, ?_, ?_, ?_⟩
        · exact (congrArg (·.get? key) hasked.calls).trans (Keyed.get?_put_self _ key _)
        · rw [askFormatter, inquiriesOf_after hasked, bare.asked]
          exact hself
        · rw [askFormatter, beginning_after hasked, bare.begun]
          rfl
        · have hcount := bare.gathered
          unfold gatherings after
          rw [askFormatter, hasked.laters, List.append_nil]
          exact hcount
      · rw [puts_of_event event, step, askFormatter, hasked.asks]
        exact hself
      · rw [endings_of_event event, step]
        exact hasked.finishes

/-- A format begins. -/
theorem Orderly.next_of_call (h : w.Orderly)
    (event : w.event? m = some (.call key (.format document options)))
    (snapshot : w.registry.snapshot (w.buffers.find document) = .ok plugins) :
    w.Next key document options m [] (plugins.filter (·.formats)) := by
  obtain ⟨rfl, hnew⟩ := h.host_of_call event
  have hbare := h.bare_of_new hnew
  refine next_of_leaves event ⟨hbare.begun, hbare.asked, hbare.gathered⟩ (Leaves.start h.outbox) ?_
  change w.registry.startFormat w.buffers key document options = _
  rw [startFormat, snapshot]
  rfl

/-- What becomes of a format with a move: another formatter is asked or not, or one with edits has
answered. -/
inductive Polling (w : World) (key : CallKey) (document : String) (options : CallOptions) (m : Move)
    (p : Plugin) (rest : List Plugin) (said : List Verdict) : Prop
  | waits (polls : (w.step m).Polls key document options p rest said) (silent : w.replies key m = [])
      (put : w.puts key m = []) (open' : ∀ outcome, (key, outcome) ∉ w.endings m)
      (idle : ∀ e, w.event? m = some e → e.key? = some key → e = .granted key)
  | quiet (a : Answer) (reply : w.replies key m = [(polling key document options p, a)])
      (unchanged : (formatShare p (w.buffers.find document) a).edits = [])
      (next : w.Next key document options m
        (said ++ [(formatShare p (w.buffers.find document) a).toVerdict]) rest)
  | wins (a : Answer) (reply : w.replies key m = [(polling key document options p, a)])
      (edits : (formatShare p (w.buffers.find document) a).edits ≠ []) (put : w.puts key m = [])
      (ended : w.endings m =
        [(key, .done (.formatted (formatShare p (w.buffers.find document) a)))])

theorem Polls.hears (h : w.Polls key document options p rest said) (orderly : w.Orderly) {n : Nat}
    {a : Answer} {q : Inquiry} (asked : w.inquiries[n]? = some q) (own : q.key = key) :
    w.Polling key document options (.answer n a) p rest said := by
  have hperm := inquiriesOf_perm asked own a
  rw [h.asked] at hperm
  obtain ⟨rfl, hrest⟩ := List.cons_eq_cons.1 (List.perm_singleton.1 hperm.symm)
  have hbare : (w.spend (.answer n a)).Bare key := ⟨h.begun, hrest, h.gathered⟩
  have hevent : w.event? (.answer n a) = some (.answered key 0 a) := event_answer asked own a
  have hreply := replies_answer asked own a
  have hverdict := formatVerdict_leaves (Leaves.start orderly.outbox) w.buffers p document a
  have hstep : w.registry.step w.buffers (.answered key 0 a) =
      w.registry.settleFormat w.buffers key document options p rest said a := by
    simp only [Registry.step, withCall, h.call, answered]
  unfold settleFormat at hstep
  simp only [formatVerdict_share] at hstep
  by_cases hedits : (formatShare p (w.buffers.find document) a).edits = []
  · rw [if_pos (List.isEmpty_iff.2 hedits)] at hstep
    exact .quiet a hreply hedits (next_of_leaves hevent hbare hverdict hstep)
  · rw [if_neg fun hnil => hedits (List.isEmpty_iff.1 hnil)] at hstep
    have hended := hverdict.finish key
      (.done (.formatted (formatShare p (w.buffers.find document) a)))
    refine .wins a hreply hedits ?_ ?_
    · rw [puts_of_event hevent]
      change (w.registry.step w.buffers (.answered key 0 a)).asks.filter _ = []
      rw [hstep, hended.asks]
      rfl
    · rw [endings_of_event hevent]
      change (w.registry.step w.buffers (.answered key 0 a)).finishes = _
      rw [hstep]
      exact hended.finishes

/-- What a move makes of a format that is not called off. -/
theorem Polls.step (h : w.Polls key document options p rest said) (orderly : w.Orderly)
    (kept : ∀ e, w.event? m = some e → e.callsOff key = false) :
    w.Polling key document options m p rest said := by
  cases orderly.bearing h.call nofun kept with
  | passes same silent unasked open' idle => exact .waits (h.frame same) silent unasked open' idle
  | begins n i move due =>
      have hbegins : i ∈ w.beginning key :=
        List.mem_filterMap.2 ⟨_, List.mem_of_getElem? due, if_pos rfl⟩
      rw [h.begun] at hbegins
      cases hbegins
  | hears n a q move asked own =>
      subst move
      exact h.hears orderly asked own
  | gathers n move due =>
      have hpos := gatherings_pos due
      rw [h.gathered] at hpos
      cases hpos

end World

/-! ## Runs of a format -/

namespace Schedule

variable (s : Schedule)

/-- The formatters that are active and concerned with a document, in the order of registration. -/
def polled (t : Nat) (document : String) : List Plugin :=
  (s.invited t document).filter (·.formats)

/-- How far a format has got before the move `t`: `done` have been asked and have said `said`, `p` is
being asked, and `rest` are still to be asked. -/
structure Poll (t₀ t : Nat) (key : CallKey) (document : String) (options : CallOptions)
    (done : List Plugin) (p : Plugin) (rest : List Plugin) (said : List FormatVerdict) : Prop where
  order : s.polled t₀ document = done ++ p :: rest
  polls : (s.world t).Polls key document options p rest (said.map (·.toVerdict))
  asked : s.inquired key t = (done ++ [p]).map (polling key document options)
  heard : (s.answers key t).map Prod.fst = done.map (polling key document options)
  renders : AllRender (s.answers key t) said
  quiet : ∀ v ∈ said, v.edits = []

/-- The format ends with the move `t`, and `v` is its verdict: all that were asked have answered. -/
structure Concludes (t₀ t : Nat) (key : CallKey) (document : String) (options : CallOptions)
    (v : FormatVerdict) : Prop where
  ended : s.endings t = [(key, .done (.formatted v))]
  order : s.inquired key t <+: (s.polled t₀ document).map (polling key document options)
  asked : s.inquired key t = (s.answers key (t + 1)).map Prod.fst
  prevails : ∃ said, AllRender (s.answers key (t + 1)) said ∧
    Prevails (s.polled t₀ document).length said v

/-- The format that begins with the move `t₀` asks the formatters that are active and concerned at that
moment one after another, in the order that they are registered in at that moment, and ends, once, with
the verdict of the first that has edits or else with what all of them say. -/
structure Elects (t₀ : Nat) (key : CallKey) (document : String) (options : CallOptions) : Prop where
  distinct : ((s.polled t₀ document).map (·.name)).Nodup
  asks : ∀ t, s.inquired key t <+: (s.polled t₀ document).map (polling key document options)
  /-- Until the format has ended one formatter is being asked, and those before it have no edits. -/
  inTurn : ∀ t, t₀ < t → (∃ u outcome, t₀ ≤ u ∧ u < t ∧ (key, outcome) ∈ s.endings u) ∨
    ∃ q said, s.inquired key t = (s.answers key t).map Prod.fst ++ [q] ∧
      AllRender (s.answers key t) said ∧ ∀ v ∈ said, v.edits = []
  ends : ∀ t outcome, t₀ ≤ t → (key, outcome) ∈ s.endings t →
    s.inquired key t = (s.answers key (t + 1)).map Prod.fst ∧
    ∃ said v, outcome = .done (.formatted v) ∧ AllRender (s.answers key (t + 1)) said ∧
      Prevails (s.polled t₀ document).length said v
  stops : ∀ t u outcome, (key, outcome) ∈ s.endings t → t ≤ u →
    s.inquired key u = s.inquired key t
  once : ∀ t t' outcome outcome', (key, outcome) ∈ s.endings t → (key, outcome') ∈ s.endings t' →
    t = t' ∧ outcome = outcome'
  returns : s.Attends t₀ key → ∃ t outcome, t₀ ≤ t ∧ (key, outcome) ∈ s.endings t

variable {s} {t t₀ : Nat} {key : CallKey} {document : String} {options : CallOptions}
  {done rest : List Plugin} {p : Plugin} {said : List FormatVerdict}

theorem inquired_succ (s : Schedule) (key : CallKey) (t : Nat) :
    s.inquired key (t + 1) = s.inquired key t ++ (s.world t).puts key (s t) := by
  have hputs : (s.asked t).filter (·.key = key) = (s.world t).puts key (s t) := by
    cases hevent : s.event? t with
    | none =>
        rw [asked, hevent, World.puts, show (s.world t).event? (s t) = none from hevent]
        rfl
    | some e => rw [asked_of_some hevent, World.puts_of_event hevent]
  rw [inquired, hputs]

/-- Some formatters `done` have said `said` up to the move `t`, with which the next one is asked or
none is left. -/
theorem poll_of_next (order : s.polled t₀ document = done ++ rest)
    (asked : s.inquired key t = done.map (polling key document options))
    (heard : (s.answers key (t + 1)).map Prod.fst = done.map (polling key document options))
    (renders : AllRender (s.answers key (t + 1)) said)
    (quiet : ∀ v ∈ said, v.edits = [])
    (next : (s.world t).Next key document options (s t) (said.map (·.toVerdict)) rest) :
    (∃ p rest', rest = p :: rest' ∧ s.Poll t₀ (t + 1) key document options done p rest' said ∧
      s.endings t = []) ∨ ∃ v, s.Concludes t₀ t key document options v := by
  cases next with
  | asks p rest' polls put open' =>
      refine .inl ⟨p, rest', rfl, ⟨order, polls, ?_, heard, renders, quiet⟩, open'⟩
      rw [inquired_succ, asked, put, List.map_append, List.map_singleton]
  | ends put ended =>
      have hall : s.polled t₀ document = done := by rw [order, List.append_nil]
      refine .inr ⟨_, ended, ?_, by rw [asked, heard], said, renders, .nobody said _ ?_ quiet rfl ?_⟩
      · exact ⟨[], by rw [List.append_nil, asked, hall]⟩
      · have hlength := congrArg List.length heard
        rw [List.length_map, List.length_map] at hlength
        rw [hall, ← hlength, List.Forall₂.length_eq renders]
      · exact merge_together _

/-- Every move leaves a format under way, with no more formatters to be asked than there were and with
fewer when it goes on with the format, or ends it. -/
theorem Poll.succ (h : s.Poll t₀ t key document options done p rest said)
    (kept : ∀ e, s.event? t = some e → e.callsOff key = false) :
    (∃ done' p' rest' said', s.Poll t₀ (t + 1) key document options done' p' rest' said' ∧
      (∀ outcome, (key, outcome) ∉ s.endings t) ∧ rest'.length ≤ rest.length ∧
      (s.Tends key t → rest'.length < rest.length)) ∨
    ∃ v, s.Concludes t₀ t key document options v := by
  cases h.polls.step (s.orderly t) kept with
  | waits polls silent put open' idle =>
      have hanswers : s.answers key (t + 1) = s.answers key t := by
        rw [answers, silent, List.append_nil]
      refine .inl ⟨done, p, rest, said, ⟨h.order, polls, ?_, ?_, ?_, h.quiet⟩, open', Nat.le_refl _, ?_⟩
      · rw [inquired_succ, put, List.append_nil, h.asked]
      · rw [hanswers, h.heard]
      · rw [hanswers]
        exact h.renders
      · rintro ⟨e, hevent, hkey, hne⟩
        exact absurd (idle e hevent hkey) hne
  | quiet a reply unchanged next =>
      have hanswers : s.answers key (t + 1) =
          s.answers key t ++ [(polling key document options p, a)] := by rw [answers, reply]
      have horder : s.polled t₀ document = (done ++ [p]) ++ rest := by
        rw [h.order, List.append_assoc]
        rfl
      have hheard : (s.answers key (t + 1)).map Prod.fst =
          (done ++ [p]).map (polling key document options) := by
        rw [hanswers, List.map_append, h.heard, List.map_append]
        rfl
      have hrenders : AllRender (s.answers key (t + 1))
          (said ++ [formatShare p ((s.world t).buffers.find document) a]) := by
        rw [hanswers]
        exact h.renders.append (formatShare_renders p _ a)
      have hquiet := List.forall_mem_append.2 ⟨h.quiet, List.forall_mem_singleton.2 unchanged⟩
      have hpoll := poll_of_next horder h.asked hheard hrenders hquiet
        (by rw [List.map_append]; exact next)
      rcases hpoll with ⟨p', rest', rfl, hpoll, hopen⟩ | hconcludes
      · refine .inl ⟨_, p', rest', _, hpoll, ?_, Nat.le_succ _, fun _ => Nat.lt_succ_self _⟩
        rw [hopen]
        exact fun _ => List.not_mem_nil
      · exact .inr hconcludes
  | wins a reply edits put ended =>
      have hanswers : s.answers key (t + 1) =
          s.answers key t ++ [(polling key document options p, a)] := by rw [answers, reply]
      have hasked : s.inquired key t = (s.answers key (t + 1)).map Prod.fst := by
        rw [hanswers, List.map_append, h.heard, h.asked, List.map_append]
        rfl
      refine .inr ⟨_, ended, ?_, hasked,
        said ++ [formatShare p ((s.world t).buffers.find document) a], ?_,
        .wins said _ h.quiet edits⟩
      · rw [h.asked, h.order, List.map_append, List.map_append]
        exact (List.prefix_append_right_inj _).2 (List.prefix_append [_] _)
      · rw [hanswers]
        exact h.renders.append (formatShare_renders p _ a)

theorem ended_of_concludes (h : ∃ v, s.Concludes t₀ t key document options v) :
    ∃ outcome, (key, outcome) ∈ s.endings t := by
  obtain ⟨v, hconcludes⟩ := h
  exact ⟨_, hconcludes.ended ▸ List.mem_singleton_self _⟩

theorem poll_goesOn (kept : ∀ t e, s.event? t = some e → e.callsOff key = false)
    (h : ∃ done p rest said, s.Poll t₀ t key document options done p rest said) :
    (∃ done p rest said, s.Poll t₀ (t + 1) key document options done p rest said) ∧
        (∀ outcome, (key, outcome) ∉ s.endings t) ∨
      ∃ v, s.Concludes t₀ t key document options v := by
  obtain ⟨done, p, rest, said, hpoll⟩ := h
  refine (hpoll.succ (kept t)).imp_left ?_
  rintro ⟨done', p', rest', said', hpoll', hopen, -⟩
  exact ⟨⟨done', p', rest', said', hpoll'⟩, hopen⟩

section Polling

variable (event : s.event? t₀ = some (.call key (.format document options)))
  (kept : ∀ t e, s.event? t = some e → e.callsOff key = false)
  (able : ∀ p ∈ (s.registry t₀).activePlugins, ∀ text,
    p.supports ((s.world t₀).buffers.find document) ≠ .error text)

include event kept able

/-- The first formatter is asked as the format begins, or there is none and it ends. -/
theorem poll_start :
    (∃ done p rest said, s.Poll t₀ (t₀ + 1) key document options done p rest said) ∧
        (∀ outcome, (key, outcome) ∉ s.endings t₀) ∨
      ∃ v, s.Concludes t₀ t₀ key document options v := by
  have hnew := ((s.orderly t₀).host_of_call event).2
  have hanswers : s.answers key (t₀ + 1) = [] := by
    rw [answers, answers_of_new hnew, (s.orderly t₀).replies_of_new hnew]
    rfl
  have hsnapshot : (s.registry t₀).snapshot ((s.world t₀).buffers.find document) =
      .ok (s.invited t₀ document) := supporting_eq able
  have hnext := (s.orderly t₀).next_of_call event hsnapshot
  have hrenders : AllRender (s.answers key (t₀ + 1)) [] := by
    rw [hanswers]
    exact .nil
  rcases poll_of_next (List.nil_append _).symm (inquired_new kept hnew) (by rw [hanswers]; rfl)
    hrenders (List.forall_mem_nil _) hnext with ⟨p, rest, -, hpoll, hopen⟩ | hconcludes
  · refine .inl ⟨⟨[], p, rest, [], hpoll⟩, ?_⟩
    rw [hopen]
    exact fun _ => List.not_mem_nil
  · exact .inr hconcludes

/-- While the format has not ended a formatter is being asked. -/
theorem poll_of_open (past : t₀ < t)
    (open' : ∀ u outcome, t₀ ≤ u → u < t → (key, outcome) ∉ s.endings u) :
    ∃ done p rest said, s.Poll t₀ t key document options done p rest said :=
  holds_of_open (fun t => ∃ done p rest said, s.Poll t₀ t key document options done p rest said)
    (fun t => ∃ v, s.Concludes t₀ t key document options v) (poll_start event kept able)
    (fun _ => poll_goesOn kept) (fun _ => ended_of_concludes) past open'

/-- When the format ends it has come to a conclusion. -/
theorem concludes_of_ended {outcome : Outcome Reply} (since : t₀ ≤ t)
    (ended : (key, outcome) ∈ s.endings t) :
    ∃ v, outcome = .done (.formatted v) ∧ s.Concludes t₀ t key document options v := by
  obtain ⟨v, hconcludes⟩ := closes_of_ended
    (fun t => ∃ done p rest said, s.Poll t₀ t key document options done p rest said)
    (fun t => ∃ v, s.Concludes t₀ t key document options v) (poll_start event kept able)
    (fun _ => poll_goesOn kept) (fun _ => ended_of_concludes) since ended
  exact ⟨v, (ends_once ended (hconcludes.ended ▸ List.mem_singleton_self _)).2, hconcludes⟩

/-- A format that has begun has ended, or a formatter is being asked. -/
theorem ended_or_poll (past : t₀ < t) :
    (∃ u outcome, t₀ ≤ u ∧ u < t ∧ (key, outcome) ∈ s.endings u) ∨
      ∃ done p rest said, s.Poll t₀ t key document options done p rest said := by
  by_cases hended : ∃ u outcome, t₀ ≤ u ∧ u < t ∧ (key, outcome) ∈ s.endings u
  · exact .inl hended
  · exact .inr (poll_of_open event kept able past fun u outcome since hu ended =>
      hended ⟨u, outcome, since, hu, ended⟩)

theorem inquired_polled (t : Nat) :
    s.inquired key t <+: (s.polled t₀ document).map (polling key document options) := by
  by_cases hpast : t₀ < t
  · rcases ended_or_poll event kept able hpast with
      ⟨u, outcome, since, hu, ended⟩ | ⟨done, p, rest, said, hpoll⟩
    · obtain ⟨v, -, hconcludes⟩ := concludes_of_ended event kept able since ended
      rw [inquired_later ended (Nat.le_of_lt hu)]
      exact hconcludes.order
    · rw [hpoll.asked, hpoll.order, List.map_append, List.map_append]
      exact (List.prefix_append_right_inj _).2 (List.prefix_append [_] _)
  · have hnew : key ∉ (s.world t).known := fun hknown =>
      ((s.orderly t₀).host_of_call event).2 (known_later (Nat.le_of_not_lt hpast) hknown)
    rw [inquired_new kept hnew]
    exact List.nil_prefix

/-- A format that is gone on with ends: there are fewer formatters left to be asked each time. -/
theorem polling_ends (attends : s.Attends t₀ key) :
    ∃ t outcome, t₀ ≤ t ∧ (key, outcome) ∈ s.endings t := by
  refine ends_of_left (fun t n => ∃ done p rest said,
    s.Poll t₀ t key document options done p rest said ∧ rest.length = n) attends ?_ ?_ ?_
  · intro hopen
    rcases poll_start event kept able with ⟨⟨done, p, rest, said, hpoll⟩, -⟩ | ⟨v, hconcludes⟩
    · exact ⟨_, done, p, rest, said, hpoll, rfl⟩
    · exact absurd (hconcludes.ended ▸ List.mem_singleton_self _) (hopen _)
  · rintro t n ⟨done, p, rest, said, hpoll, -⟩
    have hasked : polling key document options p ∈ (s.world t).inquiriesOf key := by
      rw [hpoll.polls.asked]
      exact List.mem_singleton_self _
    exact .inr ⟨_, (List.mem_filter.1 hasked).1, rfl⟩
  · rintro t n ⟨done, p, rest, said, hpoll, rfl⟩ hopen
    rcases hpoll.succ (kept t) with
      ⟨done', p', rest', said', hpoll', -, hle, hless⟩ | ⟨v, hconcludes⟩
    · exact ⟨_, ⟨done', p', rest', said', hpoll', rfl⟩, hle, hless⟩
    · exact absurd (hconcludes.ended ▸ List.mem_singleton_self _) (hopen _)

end Polling

/-- The formatters that are asked have different names. -/
theorem nodup_polled (s : Schedule) (t : Nat) (document : String) :
    ((s.polled t document).map (·.name)).Nodup := by
  refine ((s.orderly t).nodup_names (s.tidy t)).sublist (List.Sublist.map _ ?_)
  exact List.filter_sublist.trans (List.filter_sublist.trans List.filter_sublist)

/-- Every format that is not called off asks the formatters that are active and concerned as it begins
one after another until one has edits, unless one of the plugins raises on being asked whether it
handles the document. -/
theorem format_elects (s : Schedule) (t₀ : Nat) (key : CallKey) (document : String)
    (options : CallOptions) (event : s.event? t₀ = some (.call key (.format document options)))
    (kept : ∀ t e, s.event? t = some e → e.callsOff key = false)
    (able : ∀ p ∈ (s.registry t₀).activePlugins, ∀ text,
      p.supports ((s.world t₀).buffers.find document) ≠ .error text) :
    s.Elects t₀ key document options where
  distinct := nodup_polled s t₀ document
  asks := inquired_polled event kept able
  inTurn t past := by
    refine (ended_or_poll event kept able past).imp_right ?_
    rintro ⟨done, p, rest, said, hpoll⟩
    refine ⟨polling key document options p, said, ?_, hpoll.renders, hpoll.quiet⟩
    rw [hpoll.asked, hpoll.heard, List.map_append, List.map_singleton]
  ends t outcome since ended := by
    obtain ⟨v, heq, hconcludes⟩ := concludes_of_ended event kept able since ended
    obtain ⟨said, hrenders, hprevails⟩ := hconcludes.prevails
    exact ⟨hconcludes.asked, said, v, heq, hrenders, hprevails⟩
  stops t u outcome ended later := inquired_later ended later
  once t t' outcome outcome' ended ended' := ends_once ended ended'
  returns := polling_ends event kept able

/-- A formatter that the host supplies. -/
def externalFormatter (id : Nat) (name : String) : Plugin :=
  ⟨id, name, name, "1.0", true, supportAll, .external id⟩

/-- Three formatters and a linter are active. The first formatter raises and the second has edits; the
host removes all of them meanwhile and registers another. -/
def clearedInFormat : Schedule :=
  ofMoves [.host (.register (externalFormatter 0 "first")),
    .host (.register (linter 1 "lint" supportAll)),
    .host (.register (externalFormatter 2 "second")),
    .host (.register (externalFormatter 3 "third")),
    .host (.call (.host 0) (.activateAll ["first", "lint", "second", "third"])), .next 0, .next 0,
    .next 0, .next 0, .answer 0 (.available true), .answer 0 (.available true),
    .answer 0 (.available true), .answer 0 (.available true), .next 0,
    .host (.call (.host 1) (.format "d" {})), .host .clear, .answer 0 (.raised "no such option"),
    .host (.register (externalFormatter 4 "fourth")),
    .answer 0 (.formatted { edits := [⟨Span.whole "", "done"⟩] })]

theorem clearedInFormat_elects :
    (∃ v, clearedInFormat.endings 18 = [(.host 1, .done (.formatted v))] ∧
      v.edits.map (·.newText) = ["done"]) ∧
    (clearedInFormat.inquired (.host 1) 19).map (·.plugin.name) = ["first", "second"] ∧
    clearedInFormat.Elects 14 (.host 1) "d" {} := by
  have hactive : (clearedInFormat.registry 14).activePlugins = [externalFormatter 0 "first",
      linter 1 "lint" supportAll, externalFormatter 2 "second", externalFormatter 3 "third"] := rfl
  refine ⟨⟨_, rfl, rfl⟩, rfl,
    format_elects clearedInFormat 14 (.host 1) "d" {} rfl (kept_of_list rfl) ?_⟩
  rw [hactive]
  intro p hp text
  simp only [List.mem_cons, List.not_mem_nil, or_false] at hp
  rcases hp with rfl | rfl | rfl | rfl <;> exact nofun

end Schedule

end Shellwright.Registry
