import Shellwright.Proofs.Registry.Merging
import Shellwright.Proofs.Registry.Serial
/-!
# The outcome of a replacement

A replacement asks the new instances that are wanted whether they are available, each once and in any
order. Until all have answered the registry stays as it was; then the new instances and what is active
among them take its place in one step.
-/

namespace Shellwright.Registry

/-! ## New instances -/

/-- The last of the plugins that have a name. -/
def lastNamed (plugins : List Plugin) (name : String) : Option Plugin :=
  (plugins.filter (·.name == name)).getLast?

/-- The names that are to be active: all of them, or those that are named and that some plugin has. -/
def requested (plugins : List Plugin) : Option (List String) → List String
  | none => distinct (plugins.map (·.name))
  | some names => (distinct names).filter fun name => plugins.any (·.name == name)

/-- The instances that have to answer. -/
def candidates (plugins : List Plugin) (names : Option (List String)) : List Plugin :=
  (requested plugins names).filterMap (lastNamed plugins)

section Instances

variable {plugins : List Plugin} {names : Option (List String)} {name : String} {p : Plugin}

theorem keys_byName (plugins : List Plugin) :
    (byName plugins).keys = distinct (plugins.map (·.name)) := by
  rw [byName, Keyed.keys_ofList, List.map_map]
  rfl

theorem get?_byName (plugins : List Plugin) (name : String) :
    (byName plugins).get? name = lastNamed plugins name := by
  have hfilter : (plugins.map fun p => (p.name, p)).filter (·.1 == name) =
      (plugins.filter (·.name == name)).map fun p => (p.name, p) := List.filter_map
  rw [byName, Keyed.find_ofList, hfilter, List.getLast?_map, Option.map_map]
  exact congrFun Option.map_id _

theorem has_byName (plugins : List Plugin) (name : String) :
    (byName plugins).has name = plugins.any (·.name == name) := by
  have hkeys : name ∈ (byName plugins).keys ↔ plugins.any (·.name == name) = true := by
    rw [keys_byName, mem_distinct, List.mem_map, List.any_eq_true]
    simp
  rw [Bool.eq_iff_iff, ← hkeys]
  refine ⟨fun hhas => ?_, Keyed.has_of_mem_keys⟩
  obtain ⟨p, hp⟩ := (Keyed.has_iff _ _).1 hhas
  exact List.mem_map.2 ⟨_, Keyed.mem_of_get? hp, rfl⟩

theorem wantedNames_byName (plugins : List Plugin) (names : Option (List String)) :
    wantedNames (byName plugins) names = requested plugins names := by
  cases names with
  | none => exact keys_byName plugins
  | some names => exact List.filter_congr fun name _ => has_byName plugins name

theorem name_of_lastNamed (h : lastNamed plugins name = some p) : p.name = name := by
  have hmem := List.mem_of_getLast? h
  simpa using (List.mem_filter.1 hmem).2

/-- Whatever is requested is there. -/
theorem exists_lastNamed (h : name ∈ requested plugins names) :
    ∃ p, lastNamed plugins name = some p := by
  rw [← wantedNames_byName] at h
  have hhas := (suits_replace plugins names (byName plugins) rfl).1 name h
  obtain ⟨p, hp⟩ := (Keyed.has_iff _ _).1 hhas
  exact ⟨p, (get?_byName plugins name) ▸ hp⟩

theorem map_name_candidates (plugins : List Plugin) (names : Option (List String)) :
    (candidates plugins names).map (·.name) = requested plugins names := by
  have hnames (l : List String) (h : ∀ name ∈ l, ∃ p, lastNamed plugins name = some p) :
      (l.filterMap (lastNamed plugins)).map (·.name) = l := by
    induction l with
    | nil => rfl
    | cons name rest ih =>
        obtain ⟨p, hp⟩ := h name List.mem_cons_self
        rw [List.filterMap_cons_some hp, List.map_cons, name_of_lastNamed hp,
          ih fun other hother => h other (List.mem_cons_of_mem _ hother)]
  exact hnames _ fun name hname => exists_lastNamed hname

theorem mem_candidates : p ∈ candidates plugins names ↔
    p.name ∈ requested plugins names ∧ lastNamed plugins p.name = some p := by
  rw [candidates, List.mem_filterMap]
  constructor
  · rintro ⟨name, hname, hp⟩
    obtain rfl := name_of_lastNamed hp
    exact ⟨hname, hp⟩
  · exact fun ⟨hname, hp⟩ => ⟨p.name, hname, hp⟩

end Instances

theorem affirms_iff {a : Answer} : a.affirms = true ↔ a = .available true := by
  cases a with
  | available yes => cases yes <;> simp [Answer.affirms]
  | _ => simp [Answer.affirms]

/-! ## Moves of a replacement -/

namespace World

/-- How much is left to be asked and answered. -/
def effort (w : World) (key : CallKey) : Nat :=
  2 * (w.beginning key).length + (w.inquiriesOf key).length

/-- The instances `ps` are being asked whether they are available, each once. -/
structure Probing (w : World) (key : CallKey) (fresh : Keyed String Plugin) (ps : List Plugin)
    (probes : List (String × Progress Bool)) (answers : List (Inquiry × Answer)) : Prop where
  call : w.registry.calls.get? key = some ⟨.probing (.replace fresh) probes, false⟩
  names : probes.map Prod.fst = ps.map (·.name)
  found : ∀ p ∈ ps, fresh.get? p.name = some p
  /-- What is to be asked, what is open and what has been answered make up the questions. -/
  account : ((w.beginning key).filterMap ((invitations key .available ps)[·]?) ++
    (w.inquiriesOf key ++ answers.map Prod.fst)).Perm (invitations key .available ps)
  answered : ∀ entry ∈ answers, ∃ name,
    probes[entry.1.part]? = some (name, .settled entry.2.affirms)
  gathered : w.gatherings key = if allSettled probes then 1 else 0

variable {w w' : World} {key : CallKey} {m : Move} {fresh : Keyed String Plugin} {ps : List Plugin}
  {probes : List (String × Progress Bool)} {answers : List (Inquiry × Answer)} {n i : Nat}

theorem Probing.frame (h : w.Probing key fresh ps probes answers) (same : w.Matches w' key) :
    w'.Probing key fresh ps probes answers where
  call := same.call.trans h.call
  names := h.names
  found := h.found
  account := ((same.begins.symm.filterMap _).append (same.asks.symm.append_right _)).trans h.account
  answered := h.answered
  gathered := same.gatherings.trans h.gathered

theorem effort_of_matches (same : w.Matches w' key) : w'.effort key = w.effort key := by
  rw [effort, effort, same.begins.length_eq, same.asks.length_eq]

theorem perm_moved {α : Type} (a : α) (xs ys zs : List α) :
    (xs ++ ((ys ++ [a]) ++ zs)).Perm ((a :: xs) ++ (ys ++ zs)) := by
  have hmiddle : (xs ++ ys ++ a :: zs).Perm (a :: (xs ++ ys ++ zs)) := List.perm_middle
  simpa using hmiddle

/-- What is known of the parts of a replacement in every world that a schedule leads to. -/
theorem Probing.parts (h : w.Probing key fresh ps probes answers) (orderly : w.Orderly) :
    w.Probes key (.replace fresh) probes :=
  (orderly.fits key _ h.call).probing _ _ rfl

/-- When all parts have answered nothing is left to be asked or answered. -/
theorem Probing.answered_all (h : w.Probing key fresh ps probes answers) (orderly : w.Orderly)
    (all : allSettled probes = true) :
    (answers.map Prod.fst).Perm (invitations key .available ps) := by
  have hprobes := h.parts orderly
  have hbegins : w.beginning key = [] := List.eq_nil_iff_forall_not_mem.2 fun i hi => by
    obtain ⟨name, hpart⟩ := hprobes.waiting i hi
    exact not_allSettled hpart rfl all
  have hasks : w.inquiriesOf key = [] := List.eq_nil_iff_forall_not_mem.2 fun q hq =>
    not_allSettled (hprobes.asked q hq) rfl all
  have haccount := h.account
  rw [hbegins, hasks] at haccount
  exact haccount

theorem mem_invitations_getElem? {question : Question} {p : Plugin} (h : ps[i]? = some p) :
    (invitations key question ps)[i]? = some ⟨key, i, p, question⟩ := by
  rw [invitations, List.getElem?_mapIdx, h]
  rfl

/-- The part `i` stands for the instance `i`. -/
theorem Probing.instance_of_part (h : w.Probing key fresh ps probes answers) {name : String}
    {progress : Progress Bool} (part : probes[i]? = some (name, progress)) :
    ∃ p, ps[i]? = some p ∧ p.name = name ∧ fresh.get? name = some p := by
  have hname : (ps.map (·.name))[i]? = some name := by
    rw [← h.names, List.getElem?_map, part]
    rfl
  rw [List.getElem?_map] at hname
  obtain ⟨p, hp, rfl⟩ := Option.map_eq_some_iff.1 hname
  exact ⟨p, hp, rfl, h.found p (List.mem_of_getElem? hp)⟩

/-- While not all parts have answered something is left to be asked or answered. -/
theorem Probing.unfinished (h : w.Probing key fresh ps probes answers)
    (unsettled : allSettled probes = false) :
    w.beginning key ≠ [] ∨ w.inquiriesOf key ≠ [] := by
  by_contra hnone
  obtain ⟨hbegins, hasks⟩ := not_or.1 hnone
  obtain ⟨⟨name, progress⟩, hmem, hopen⟩ := List.all_eq_false.1 unsettled
  obtain ⟨i, hpart⟩ := List.mem_iff_getElem?.1 hmem
  obtain ⟨p, hp, -, -⟩ := h.instance_of_part hpart
  have haccount := h.account
  rw [not_not.1 hbegins, not_not.1 hasks] at haccount
  obtain ⟨⟨q, a⟩, hentry, heq⟩ := List.mem_map.1 <|
    haccount.mem_iff.2 (mem_invitations.2 ⟨i, p, hp, rfl⟩)
  obtain ⟨name', hsettled⟩ := h.answered _ hentry
  change q = _ at heq
  rw [heq, hpart] at hsettled
  cases hsettled
  exact hopen rfl

/-- A replacement under way has a part to be asked or to answer, or is about to be completed. -/
theorem Probing.pending (h : w.Probing key fresh ps probes answers) :
    (∃ e ∈ w.due, e.key? = some key ∧ e ≠ .granted key) ∨ ∃ q ∈ w.inquiries, q.key = key := by
  refine pending_of_work ?_
  cases hall : allSettled probes with
  | true =>
      refine .inr (.inr ?_)
      rw [h.gathered, hall]
      exact Nat.one_pos
  | false => exact (h.unfinished hall).imp_right .inl

/-- The parts that have answered stay as they are when another one goes on. -/
theorem Probing.answered_setProbe (h : w.Probing key fresh ps probes answers) {name : String}
    {progress : Progress Bool} (part : probes[i]? = some (name, progress))
    (unsettled : progress.result? = none) (new : Progress Bool) : ∀ entry ∈ answers, ∃ name,
      (setProbe probes i new)[entry.1.part]? = some (name, .settled entry.2.affirms) := by
  intro entry hentry
  obtain ⟨name', hsettled⟩ := h.answered entry hentry
  refine ⟨name', ?_⟩
  rw [getElem?_setProbe_of_ne probes new ?_]
  · exact hsettled
  · intro heq
    rw [heq, part] at hsettled
    cases hsettled
    cases unsettled

/-- What a move makes of a replacement: it rests, one of its parts is asked or answers, or all have
answered and it takes effect. -/
inductive Replaces (w : World) (key : CallKey) (fresh : Keyed String Plugin) (ps : List Plugin)
    (probes : List (String × Progress Bool)) (answers : List (Inquiry × Answer)) (m : Move) : Prop
  | rests (probing : (w.step m).Probing key fresh ps probes (answers ++ w.replies key m))
      (open' : ∀ outcome, (key, outcome) ∉ w.endings m)
      (same : (w.step m).effort key = w.effort key)
      (idle : ∀ e, w.event? m = some e → e.key? = some key → e = .granted key)
  | proceeds (probes' : List (String × Progress Bool))
      (probing : (w.step m).Probing key fresh ps probes' (answers ++ w.replies key m))
      (open' : w.endings m = []) (less : (w.step m).effort key < w.effort key)
  | completes (all : allSettled probes = true) (silent : w.replies key m = [])
      (ended : w.endings m = [(key, .done (.count (probed probes true).length))])
      (plugins : (w.step m).registry.plugins = fresh)
      (active : (w.step m).registry.active = probed probes true)

theorem Probing.begins (h : w.Probing key fresh ps probes answers) (orderly : w.Orderly)
    (due : w.due[n]? = some (.begin key i)) : w.Replaces key fresh ps probes answers (.next n) := by
  have hevent : w.event? (.next n) = some (.begin key i) := due
  have hbegins := beginning_perm due
  have hsilent : w.replies key (.next n) = [] := rfl
  have hwaits : i ∈ w.beginning key := hbegins.mem_iff.2 List.mem_cons_self
  obtain ⟨name, hpart⟩ := (h.parts orderly).waiting i hwaits
  obtain ⟨p, hp, -, hfound⟩ := h.instance_of_part hpart
  have hstep : w.registry.step w.buffers (.begin key i) = (w.registry.setCall key
      ⟨.probing (.replace fresh) (setProbe probes i .asked), false⟩).emit
        (.ask key i p .available) := by
    simp [Registry.step, Registry.withCall, h.call, Registry.begin, hpart, probedPlugin, hfound]
  have hleaves := ((Leaves.start orderly.outbox).setCall key
    ⟨.probing (.replace fresh) (setProbe probes i .asked), false⟩).ask key i p .available
  rw [← hstep] at hleaves
  have hnow : w.step (.next n) =
      (w.spend (.next n)).after (w.registry.step w.buffers (.begin key i)) := step_of_event hevent
  have hbeginning : (w.step (.next n)).beginning key = (w.spend (.next n)).beginning key := by
    rw [hnow, beginning_after hleaves]
    exact List.append_nil _
  have hasked : (w.step (.next n)).inquiriesOf key =
      w.inquiriesOf key ++ [⟨key, i, p, .available⟩] := by
    rw [hnow, inquiriesOf_after hleaves]
    simp [inquiriesOf, spend]
  refine .proceeds (setProbe probes i .asked) ⟨?_, ?_, h.found, ?_, ?_, ?_⟩ ?_ ?_
  · rw [hnow]
    exact (congrArg (·.get? key) hleaves.calls).trans (Keyed.get?_put_self _ _ _)
  · rw [map_fst_setProbe, h.names]
  -- The question of the part is not left to be put any more, but open.
  · have hmoved := (hbegins.filterMap ((invitations key .available ps)[·]?)).symm
    rw [List.filterMap_cons_some (mem_invitations_getElem? hp)] at hmoved
    rw [hbeginning, hasked, hsilent, List.append_nil]
    exact (perm_moved _ _ _ _).trans ((hmoved.append_right _).trans h.account)
  · rw [hsilent, List.append_nil]
    exact h.answered_setProbe hpart rfl .asked
  · have hbefore := h.gathered
    rw [if_neg (not_allSettled hpart rfl)] at hbefore
    rw [if_neg (not_allSettled (getElem?_setProbe_self hpart .asked) rfl), hnow]
    simp only [World.gatherings, after, hleaves.laters, List.append_nil]
    exact (gatherings_of_begin due).trans hbefore
  · rw [endings_of_event hevent]
    exact hleaves.finishes
  · rw [effort, effort, hbeginning, hasked, hbegins.length_eq, List.length_cons, List.length_append,
      List.length_singleton]
    omega

theorem Probing.hears (h : w.Probing key fresh ps probes answers) (orderly : w.Orderly) {a : Answer}
    {q : Inquiry} (asked : w.inquiries[n]? = some q) (own : q.key = key) :
    w.Replaces key fresh ps probes answers (.answer n a) := by
  have hevent := event_answer asked own a
  have hreply := replies_answer asked own a
  have hasks := inquiriesOf_perm asked own a
  have hpart := (h.parts orderly).asked q (hasks.mem_iff.2 List.mem_cons_self)
  have hself := getElem?_setProbe_self hpart (.settled a.affirms)
  have hstep : w.registry.step w.buffers (.answered key q.part a) =
      (w.registry.availability q.plugin.name a).1.settleProbe key
        ⟨.probing (.replace fresh) probes, false⟩ (.replace fresh) probes q.part a.affirms := by
    simp only [Registry.step, Registry.withCall, h.call, Registry.answered, hpart, availability_snd]
  have hleaves : ((w.registry.availability q.plugin.name a).1.settleProbe key
      ⟨.probing (.replace fresh) probes, false⟩ (.replace fresh) probes q.part a.affirms).Leaves
        _ _ _ _ :=
    settleProbe_leaves (availability_leaves (Leaves.start orderly.outbox) q.plugin.name a).1
      ⟨.probing (.replace fresh) probes, false⟩ (.replace fresh) probes q.part a.affirms
  rw [← hstep] at hleaves
  have hnow : w.step (.answer n a) =
      (w.spend (.answer n a)).after (w.registry.step w.buffers (.answered key q.part a)) :=
    step_of_event hevent
  have hbeginning : (w.step (.answer n a)).beginning key = w.beginning key := by
    rw [hnow, beginning_after hleaves]
    split <;> exact List.append_nil _
  have hopen : (w.step (.answer n a)).inquiriesOf key =
      (w.spend (.answer n a)).inquiriesOf key := by
    rw [hnow, inquiriesOf_after hleaves]
    exact List.append_nil _
  refine .proceeds (setProbe probes q.part (.settled a.affirms)) ⟨?_, ?_, h.found, ?_, ?_, ?_⟩ ?_ ?_
  · rw [hnow]
    exact (congrArg (·.get? key) hleaves.calls).trans (Keyed.get?_put_self _ _ _)
  · rw [map_fst_setProbe, h.names]
  · have hmoved : ((w.spend (.answer n a)).inquiriesOf key ++
        (answers.map Prod.fst ++ [q])).Perm (w.inquiriesOf key ++ answers.map Prod.fst) := by
      rw [← List.append_assoc]
      exact (List.perm_append_singleton _ _).trans (hasks.symm.append_right _)
    rw [hbeginning, hopen, hreply, List.map_append]
    exact (hmoved.append_left _).trans h.account
  · intro entry hentry
    rw [hreply] at hentry
    rcases List.mem_append.1 hentry with hentry | hentry
    · exact h.answered_setProbe hpart rfl _ entry hentry
    · obtain rfl := List.mem_singleton.1 hentry
      exact ⟨_, hself⟩
  · have hbefore := h.gathered
    rw [if_neg (not_allSettled hpart rfl)] at hbefore
    have hcount : (w.spend (.answer n a)).due.countP (·.gathers key) = 0 := hbefore
    rw [hnow]
    simp only [World.gatherings, after, hleaves.laters, List.countP_append, hcount]
    split <;> simp [Event.gathers]
  · rw [endings_of_event hevent]
    exact hleaves.finishes
  · rw [effort, effort, hbeginning, hopen, hasks.length_eq, List.length_cons]
    omega

/-- The new instances take the place of the old ones when all parts have answered. -/
theorem Probing.completes (h : w.Probing key fresh ps probes answers) (orderly : w.Orderly)
    (due : w.due[n]? = some (.gathered key)) :
    w.Replaces key fresh ps probes answers (.next n) := by
  have hevent : w.event? (.next n) = some (.gathered key) := due
  have hall : allSettled probes = true := by
    have hpos := gatherings_pos due
    rw [h.gathered] at hpos
    split at hpos
    · assumption
    · cases hpos
  have hstep : w.registry.step w.buffers (.gathered key) =
      w.registry.completeProbes key (.replace fresh) probes := by
    simp [Registry.step, Registry.withCall, h.call, Registry.gathered]
  have hleaves : (w.registry.completeProbes key (.replace fresh) probes).Leaves _ _ _ _ :=
    completeReplacement_leaves (Leaves.start orderly.outbox) fresh probes
  rw [← hstep] at hleaves
  refine .completes hall rfl ?_ ?_ ?_
  · rw [endings_of_event hevent]
    exact hleaves.finishes
  · rw [step_of_event hevent]
    exact hleaves.plugins
  · rw [step_of_event hevent]
    exact hleaves.active

/-- What a move makes of a replacement that is not called off. -/
theorem Probing.step (h : w.Probing key fresh ps probes answers) (orderly : w.Orderly)
    (kept : ∀ e, w.event? m = some e → e.callsOff key = false) :
    w.Replaces key fresh ps probes answers m := by
  cases orderly.bearing h.call nofun kept with
  | passes same silent unasked open' idle =>
      refine .rests ?_ open' (effort_of_matches same) idle
      rw [silent, List.append_nil]
      exact h.frame same
  | begins n i move due =>
      subst move
      exact h.begins orderly due
  | hears n a q move asked own =>
      subst move
      exact h.hears orderly asked own
  | gathers n move due =>
      subst move
      exact h.completes orderly due

/-- A name has passed when its instance has said that it is available. -/
theorem Probing.mem_probed_iff (h : w.Probing key fresh ps probes answers) (orderly : w.Orderly)
    (all : allSettled probes = true) (name : String) :
    name ∈ probed probes true ↔ ∃ i p, ps[i]? = some p ∧ p.name = name ∧
      ((⟨key, i, p, .available⟩ : Inquiry), Answer.available true) ∈ answers := by
  have hanswers := h.answered_all orderly all
  rw [mem_probed]
  constructor
  · rintro ⟨i, hpart⟩
    obtain ⟨p, hp, rfl, -⟩ := h.instance_of_part hpart
    obtain ⟨⟨q, a⟩, hentry, hq⟩ := List.mem_map.1 <|
      hanswers.mem_iff.2 (mem_invitations.2 ⟨i, p, hp, rfl⟩)
    change q = _ at hq
    subst hq
    obtain ⟨name', hsettled⟩ := h.answered _ hentry
    rw [hpart] at hsettled
    have haffirms : true = a.affirms :=
      Progress.settled.inj (Prod.mk.inj (Option.some.inj hsettled)).2
    exact ⟨i, p, hp, rfl, affirms_iff.1 haffirms.symm ▸ hentry⟩
  · rintro ⟨i, p, hp, rfl, hentry⟩
    obtain ⟨name', hsettled⟩ := h.answered _ hentry
    obtain ⟨p', hp', rfl, -⟩ := h.instance_of_part hsettled
    rw [hp] at hp'
    cases hp'
    exact ⟨i, hsettled⟩

/-! ## The beginning of a replacement -/

/-- How a replacement begins that finds the lock free. -/
inductive Opens (w : World) (key : CallKey) (plugins : List Plugin) (names : Option (List String))
    (m : Move) : Prop
  | asks (probing : (w.step m).Probing key (byName plugins) (candidates plugins names)
        ((requested plugins names).map (·, .waiting)) [])
      (open' : w.endings m = []) (old : (w.step m).registry.plugins = w.registry.plugins)
      (active : (w.step m).registry.active = w.registry.active)
  | nobody (unasked : requested plugins names = [])
      (ended : w.endings m = [(key, .done (.count 0))])
      (fresh : (w.step m).registry.plugins = byName plugins)
      (active : (w.step m).registry.active = [])

theorem filterMap_range_getElem? {α : Type} (l : List α) :
    (List.range l.length).filterMap (l[·]?) = l := by
  have hall : (List.range l.length).map (l[·]?) = l.map some :=
    List.ext_getElem (by simp) (by simp)
  have hsome := congrArg (List.filterMap id) hall
  rw [List.filterMap_map, List.filterMap_map] at hsome
  exact hsome.trans List.filterMap_some

/-- The reaction to a replacement that finds the lock free. -/
theorem Orderly.leaves_of_call (h : w.Orderly) {plugins : List Plugin}
    {names : Option (List String)}
    (event : w.event? m = some (.call key (.replace plugins names)))
    (free : w.registry.lock.holder = none) :
    ∃ r r' : Registry, w.step m = (w.spend m).after r' ∧ w.endings m = r'.finishes ∧
      r.plugins = w.registry.plugins ∧ r.active = w.registry.active ∧
      (requested plugins names = [] ∧
          r'.Leaves ({ r with plugins := byName plugins, active := [] }.without key)
            (r.lock.grants key) [] [(key, .done (.count 0))] ∨
        requested plugins names ≠ [] ∧
          r'.Leaves (r.setCall key ⟨.probing (.replace (byName plugins))
              ((requested plugins names).map (·, .waiting)), false⟩)
            ((List.range (requested plugins names).length).map (.begin key ·)) [] []) := by
  have hfresh := freshPlugins_leaves (Leaves.start h.outbox) [] plugins
  have htaken : Leaves { (w.registry.freshPlugins [] plugins).1 with lock := ⟨some key, []⟩ }
      { w.registry with lock := ⟨some key, []⟩ } [] [] [] :=
    ⟨hfresh.plugins, hfresh.active, rfl, hfresh.calls, hfresh.laters, hfresh.asks, hfresh.finishes⟩
  have hstep : (w.spend m).registry.step (w.spend m).buffers (.call key (.replace plugins names)) =
      { (w.registry.freshPlugins [] plugins).1 with lock := ⟨some key, []⟩ }.enter key
        (.replace plugins names) := by
    rw [spend_registry]
    change (w.registry.freshPlugins [] plugins).1.acquire key (.replace plugins names) = _
    unfold acquire
    rw [hfresh.lock, free]
    rfl
  have henter := enterReplacement_leaves htaken key plugins names
  rw [← hstep, wantedNames_byName] at henter
  exact ⟨{ w.registry with lock := ⟨some key, []⟩ }, _, step_of_event event,
    endings_of_event event, rfl, rfl, henter⟩

theorem Orderly.probing_of_call (h : w.Orderly) {plugins : List Plugin}
    {names : Option (List String)}
    (event : w.event? m = some (.call key (.replace plugins names)))
    (free : w.registry.lock.holder = none) : w.Opens key plugins names m := by
  obtain ⟨r, r', hnow, hended, hplugins, hactive, hleaves⟩ := h.leaves_of_call event free
  have hbare : (w.spend m).Bare key := by
    obtain ⟨hmove, hnew⟩ := h.host_of_call event
    have hbefore := h.bare_of_new hnew
    rw [hmove]
    exact ⟨hbefore.begun, hbefore.asked, hbefore.gathered⟩
  rcases hleaves with ⟨hnone, hleaves⟩ | ⟨hsome, hleaves⟩
  · refine .nobody hnone (hended.trans hleaves.finishes) ?_ ?_
    · rw [hnow]
      exact hleaves.plugins
    · rw [hnow]
      exact hleaves.active
  · have hlength : (requested plugins names).length =
        (invitations key .available (candidates plugins names)).length := by
      rw [← map_name_candidates, List.length_map]
      exact List.length_mapIdx.symm
    have hbeginning : (w.step m).beginning key =
        List.range (requested plugins names).length := by
      have hparts : (fun e : Event => e.beginning? key) ∘ (Event.begin key ·) = some :=
        funext fun i => if_pos rfl
      rw [hnow, beginning_after hleaves, hbare.begun, List.filterMap_map, hparts,
        List.filterMap_some, List.nil_append]
    have hasked : (w.step m).inquiriesOf key = [] := by
      rw [hnow, inquiriesOf_after hleaves, hbare.asked]
      rfl
    have hgathered : (w.step m).gatherings key = 0 := by
      have hbefore : (w.spend m).due.countP (·.gathers key) = 0 := hbare.gathered
      have hnone : (List.range (requested plugins names).length).countP
          ((·.gathers key) ∘ (Event.begin key ·)) = 0 := List.countP_eq_zero.2 fun i _ => nofun
      rw [hnow]
      simp only [gatherings, World.after, hleaves.laters, List.countP_append, List.countP_map,
        hbefore, hnone]
    refine .asks ⟨?_, ?_, ?_, ?_, List.forall_mem_nil _, ?_⟩ (hended.trans hleaves.finishes) ?_ ?_
    · rw [hnow]
      exact (congrArg (·.get? key) hleaves.calls).trans (Keyed.get?_put_self _ _ _)
    · rw [map_name_candidates, List.map_map]
      exact List.map_id _
    · intro p hp
      rw [get?_byName]
      exact (mem_candidates.1 hp).2
    · rw [hbeginning, hasked, hlength, filterMap_range_getElem?]
      exact .of_eq (List.append_nil _)
    · obtain ⟨name, rest, hcons⟩ := List.exists_cons_of_ne_nil hsome
      have hfirst : ((requested plugins names).map fun name =>
          (name, (Progress.waiting : Progress Bool)))[0]? = some (name, .waiting) := by
        rw [hcons]
        rfl
      rw [hgathered, if_neg (not_allSettled hfirst rfl)]
    · rw [hnow]
      exact hleaves.plugins.trans hplugins
    · rw [hnow]
      exact hleaves.active.trans hactive

end World

/-! ## Runs of a replacement -/

/-- The new instances have taken the place of all others, each under its name and the last one where
names repeat; those are active that were to be and that have said that they are available. -/
structure Exchanged (r : Registry) (key : CallKey) (plugins : List Plugin)
    (names : Option (List String)) (answers : List (Inquiry × Answer)) : Prop where
  order : r.plugins.keys = distinct (plugins.map (·.name))
  instances : ∀ name, r.get? name = lastNamed plugins name
  active : ∀ name, name ∈ r.active ↔ name ∈ requested plugins names ∧
    ∃ i p, lastNamed plugins name = some p ∧ (⟨key, i, p, .available⟩, .available true) ∈ answers
  distinct : r.active.Nodup

theorem exchanged_of_byName {r : Registry} {key : CallKey} {plugins : List Plugin}
    {names : Option (List String)} {answers : List (Inquiry × Answer)}
    (fresh : r.plugins = byName plugins)
    (active : ∀ name, name ∈ r.active ↔ ∃ i p, (candidates plugins names)[i]? = some p ∧
      p.name = name ∧ (⟨key, i, p, .available⟩, .available true) ∈ answers)
    (answered : (answers.map Prod.fst).Perm (invitations key .available (candidates plugins names)))
    (distinct : r.active.Nodup) : Exchanged r key plugins names answers where
  order := by rw [fresh, keys_byName]
  instances name := by rw [Registry.get?, fresh, get?_byName]
  active name := by
    rw [active]
    constructor
    · rintro ⟨i, p, hp, rfl, hentry⟩
      obtain ⟨hrequested, hlast⟩ := mem_candidates.1 (List.mem_of_getElem? hp)
      exact ⟨hrequested, i, p, hlast, hentry⟩
    · rintro ⟨-, i, p, hlast, hentry⟩
      obtain ⟨i', p', hp, heq⟩ := mem_invitations.1 <|
        answered.mem_iff.1 (List.mem_map.2 ⟨_, hentry, rfl⟩)
      cases heq
      exact ⟨i, p, hp, name_of_lastNamed hlast, hentry⟩
  distinct := distinct

namespace Schedule

variable (s : Schedule)

/-- With the move `t` the call does not end and the host does not change the registry. -/
structure Undisturbed (key : CallKey) (t : Nat) : Prop where
  open' : ∀ outcome, (key, outcome) ∉ s.endings t
  unaltered : ∀ e, s.event? t = some e → (s.registry t).altered e = none

/-- The new instances are being asked before the move `t`. -/
def Exchanging (t : Nat) (key : CallKey) (plugins : List Plugin) (names : Option (List String)) :
    Prop :=
  ∃ probes, (s.world t).Probing key (byName plugins) (candidates plugins names) probes
    (s.answers key t)

/-- The replacement ends with the move `t`: all that were asked have answered, and the new instances are
in place. -/
structure Completes (t : Nat) (key : CallKey) (plugins : List Plugin) (names : Option (List String)) :
    Prop where
  ended : s.endings t = [(key, .done (.count (s.registry (t + 1)).active.length))]
  answered : ((s.answers key (t + 1)).map Prod.fst).Perm
    (invitations key .available (candidates plugins names))
  exchanged : Exchanged (s.registry (t + 1)) key plugins names (s.answers key (t + 1))

/-- The replacement that begins with the move `t₀` leaves the registry as it is until it ends, and it
ends, once, when each new instance that is to be active has answered: then the new instances are in
place. -/
structure Exchanges (t₀ : Nat) (key : CallKey) (plugins : List Plugin)
    (names : Option (List String)) : Prop where
  old : ∀ t, t₀ ≤ t → (∀ u, t₀ ≤ u → u < t → s.Undisturbed key u) →
    (s.registry t).plugins = (s.registry t₀).plugins ∧ (s.registry t).active = (s.registry t₀).active
  ends : ∀ t outcome, t₀ ≤ t → (key, outcome) ∈ s.endings t → s.Completes t key plugins names
  once : ∀ t t' outcome outcome', (key, outcome) ∈ s.endings t → (key, outcome') ∈ s.endings t' →
    t = t' ∧ outcome = outcome'
  returns : s.Attends t₀ key → ∃ t outcome, t₀ ≤ t ∧ (key, outcome) ∈ s.endings t

variable {s} {t t₀ : Nat} {key : CallKey} {plugins ps : List Plugin} {names : Option (List String)}
  {fresh : Keyed String Plugin} {probes : List (String × Progress Bool)}

/-- While a replacement is under way no other call changes the registry: it holds the lock. -/
theorem unchanged_of_probing
    (probing : (s.world t).Probing key fresh ps probes (s.answers key t))
    (still : (s.registry (t + 1)).calls.get? key ≠ none)
    (unaltered : ∀ e, s.event? t = some e → (s.registry t).altered e = none) :
    (s.registry (t + 1)).plugins = (s.registry t).plugins ∧
      (s.registry (t + 1)).active = (s.registry t).active := by
  have hlocked {k : CallKey} {c : Call} (call : (s.registry t).calls.get? k = some c)
      (locks : c.stage.locks) : k = key := by
    have hown : (s.registry t).lock.holder = some key :=
      ((s.orderly t).fits key _ probing.call).locked nofun
    have hother : (s.registry t).lock.holder = some k := ((s.orderly t).fits k c call).locked locks
    exact Option.some.inj (hother.symm.trans hown)
  cases hevent : s.event? t with
  | none =>
      rw [registry_of_none hevent]
      exact ⟨rfl, rfl⟩
  | some e =>
      cases change hevent with
      | altered core event => exact absurd (event.symm.trans (unaltered e hevent)) nofun
      | kept event plugins active => exact ⟨plugins, active⟩
      | activated k name passes =>
          rcases passes with ⟨c, i, -, call, stage⟩ | ⟨purpose, probes', -, call, kind, -⟩
          · obtain rfl := hlocked call (by rw [stage]; trivial)
            cases probing.call.symm.trans call
            cases stage
          · have hlocks : purpose ≠ .available := by
              rintro rfl
              rcases kind with kind | kind <;> cases kind
            obtain rfl := hlocked call hlocks
            cases probing.call.symm.trans call
            rcases kind with kind | kind <;> cases kind
      | settled k purpose probes' _ _ alone gone plugins active =>
          rcases alone with rfl | alone
          · exact ⟨plugins, active⟩
          · have hown : (s.registry t).lock.holder = some key :=
              ((s.orderly t).fits key _ probing.call).locked nofun
            obtain rfl := alone key hown
            exact absurd gone still

theorem Completes.ends (h : s.Completes t key plugins names) :
    ∃ outcome, (key, outcome) ∈ s.endings t :=
  ⟨_, h.ended ▸ List.mem_singleton_self _⟩

/-- Every move leaves a replacement under way, with no more to be asked and answered than there was and
with less when it goes on with the replacement, or ends it. -/
theorem Exchanging.succ (h : s.Exchanging t key plugins names)
    (kept : ∀ e, s.event? t = some e → e.callsOff key = false) :
    (s.Exchanging (t + 1) key plugins names ∧ ∀ outcome, (key, outcome) ∉ s.endings t) ∧
        (s.world (t + 1)).effort key ≤ (s.world t).effort key ∧
        (s.Tends key t → (s.world (t + 1)).effort key < (s.world t).effort key) ∨
      s.Completes t key plugins names := by
  obtain ⟨probes, probing⟩ := h
  cases probing.step (s.orderly t) kept with
  | rests probing' open' same idle =>
      refine .inl ⟨⟨⟨probes, probing'⟩, open'⟩, Nat.le_of_eq same, ?_⟩
      rintro ⟨e, hevent, hkey, hne⟩
      exact absurd (idle e hevent hkey) hne
  | proceeds probes' probing' open' less =>
      refine .inl ⟨⟨⟨probes', probing'⟩, ?_⟩, Nat.le_of_lt less, fun _ => less⟩
      rw [endings, open']
      exact fun _ => List.not_mem_nil
  | completes all silent ended fresh active =>
      have hanswers : s.answers key (t + 1) = s.answers key t := by
        rw [answers, silent, List.append_nil]
      have hanswered := probing.answered_all (s.orderly t) all
      have hactive : (s.registry (t + 1)).active = probed probes true := active
      refine .inr ⟨?_, ?_, ?_⟩
      · rw [hactive]
        exact ended
      · rw [hanswers]
        exact hanswered
      · rw [hanswers]
        refine exchanged_of_byName fresh (fun name => ?_) hanswered ?_
        · rw [hactive]
          exact probing.mem_probed_iff (s.orderly t) all name
        · rw [hactive]
          have hlocks : ProbePurpose.replace (byName plugins) ≠ .available := fun heq => by cases heq
          have hdistinct := (probing.parts (s.orderly t)).distinct.resolve_left hlocks
          exact hdistinct.sublist (List.filter_sublist.map _)

section Exchanging

variable (event : s.event? t₀ = some (.call key (.replace plugins names)))
  (free : (s.registry t₀).lock.holder = none)

include event free

/-- The new instances are asked as the replacement begins, or there are none to be asked and it ends. -/
theorem exchanging_start :
    (s.Exchanging (t₀ + 1) key plugins names ∧ ∀ outcome, (key, outcome) ∉ s.endings t₀) ∧
        (s.registry (t₀ + 1)).plugins = (s.registry t₀).plugins ∧
        (s.registry (t₀ + 1)).active = (s.registry t₀).active ∨
      s.Completes t₀ key plugins names := by
  have hnew := ((s.orderly t₀).host_of_call event).2
  have hanswers : s.answers key (t₀ + 1) = [] := by
    rw [answers, answers_of_new hnew, (s.orderly t₀).replies_of_new hnew]
    rfl
  cases (s.orderly t₀).probing_of_call event free with
  | asks probing open' old active =>
      refine .inl ⟨⟨⟨_, hanswers.symm ▸ probing⟩, ?_⟩, old, active⟩
      rw [endings, open']
      exact fun _ => List.not_mem_nil
  | nobody unasked ended fresh active =>
      have hnobody : candidates plugins names = [] := by
        rw [candidates, unasked]
        rfl
      have hactive : (s.registry (t₀ + 1)).active = [] := active
      have hanswered : ((s.answers key (t₀ + 1)).map Prod.fst).Perm
          (invitations key .available (candidates plugins names)) := by
        rw [hanswers, hnobody]
        exact .refl _
      refine .inr ⟨?_, hanswered, exchanged_of_byName fresh (fun name => ?_) hanswered ?_⟩
      · rw [hactive]
        exact ended
      · rw [hactive, hanswers]
        simp
      · rw [hactive]
        exact List.nodup_nil

variable (kept : ∀ t e, s.event? t = some e → e.callsOff key = false)

include kept

theorem exchanging_of_open (past : t₀ < t)
    (open' : ∀ u outcome, t₀ ≤ u → u < t → (key, outcome) ∉ s.endings u) :
    s.Exchanging t key plugins names :=
  holds_of_open (s.Exchanging · key plugins names) (s.Completes · key plugins names)
    ((exchanging_start event free).imp_left And.left)
    (fun t h => (h.succ (kept t)).imp_left And.left) (fun _ => Completes.ends) past open'

theorem completes_of_ended {outcome : Outcome Reply} (since : t₀ ≤ t)
    (ended : (key, outcome) ∈ s.endings t) : s.Completes t key plugins names :=
  closes_of_ended (s.Exchanging · key plugins names) (s.Completes · key plugins names)
    ((exchanging_start event free).imp_left And.left)
    (fun t h => (h.succ (kept t)).imp_left And.left) (fun _ => Completes.ends) since ended

/-- The old plugins stay registered and active until the replacement ends. -/
theorem old_of_undisturbed (since : t₀ ≤ t)
    (undisturbed : ∀ u, t₀ ≤ u → u < t → s.Undisturbed key u) :
    (s.registry t).plugins = (s.registry t₀).plugins ∧
      (s.registry t).active = (s.registry t₀).active := by
  induction since with
  | refl => exact ⟨rfl, rfl⟩
  | @step t hle ih =>
      have hbefore := ih fun u since hu => undisturbed u since (Nat.lt_succ_of_lt hu)
      have hopen (u : Nat) (outcome : Outcome Reply) (since : t₀ ≤ u) (hu : u < t + 1) :
          (key, outcome) ∉ s.endings u := (undisturbed u since hu).open' outcome
      rcases Nat.lt_or_eq_of_le hle with hlt | rfl
      · obtain ⟨probes, hprobing⟩ := exchanging_of_open event free kept hlt
          fun u outcome since hu => hopen u outcome since (Nat.lt_succ_of_lt hu)
        obtain ⟨probes', hprobing'⟩ :=
          exchanging_of_open event free kept (Nat.lt_succ_of_lt hlt) hopen
        have hnow := unchanged_of_probing hprobing (hprobing'.call.symm ▸ Option.some_ne_none _)
          (undisturbed t hle (Nat.lt_succ_self t)).unaltered
        exact ⟨hnow.1.trans hbefore.1, hnow.2.trans hbefore.2⟩
      · rcases exchanging_start event free with ⟨-, hunchanged⟩ | hcompletes
        · exact hunchanged
        · obtain ⟨outcome, hended⟩ := hcompletes.ends
          exact absurd hended (hopen t₀ outcome (Nat.le_refl _) (Nat.lt_succ_self _))

/-- A replacement that is gone on with ends: there is less left to be asked and answered each time. -/
theorem exchanging_ends (attends : s.Attends t₀ key) :
    ∃ t outcome, t₀ ≤ t ∧ (key, outcome) ∈ s.endings t := by
  refine ends_of_left (fun t n => s.Exchanging t key plugins names ∧ (s.world t).effort key = n)
    attends ?_ ?_ ?_
  · intro hopen
    rcases exchanging_start event free with ⟨⟨hexchanging, -⟩, -⟩ | hcompletes
    · exact ⟨_, hexchanging, rfl⟩
    · obtain ⟨outcome, hended⟩ := hcompletes.ends
      exact absurd hended (hopen outcome)
  · rintro t n ⟨⟨probes, hprobing⟩, -⟩
    exact hprobing.pending
  · rintro t n ⟨hexchanging, rfl⟩ hopen
    rcases hexchanging.succ (kept t) with ⟨⟨hnext, -⟩, hle, hless⟩ | hcompletes
    · exact ⟨_, ⟨hnext, rfl⟩, hle, hless⟩
    · obtain ⟨outcome, hended⟩ := hcompletes.ends
      exact absurd hended (hopen outcome)

end Exchanging

/-- Every replacement that finds the lock free and is not called off puts its new instances in the place
of all plugins, in one step, when all of them that are to be active have answered. -/
theorem replace_exchanges (s : Schedule) (t₀ : Nat) (key : CallKey) (plugins : List Plugin)
    (names : Option (List String)) (event : s.event? t₀ = some (.call key (.replace plugins names)))
    (free : (s.registry t₀).lock.holder = none)
    (kept : ∀ t e, s.event? t = some e → e.callsOff key = false) :
    s.Exchanges t₀ key plugins names where
  old _ since undisturbed := old_of_undisturbed event free kept since undisturbed
  ends _ _ since ended := completes_of_ended event free kept since ended
  once _ _ _ _ ended ended' := ends_once ended ended'
  returns := exchanging_ends event free kept

/-- A linter is replaced by four others, two of which have the same name. The three that are asked answer
in another order than that in which they were asked, and one of them raises. -/
def replacedOutOfOrder : Schedule :=
  ofMoves [.host (.register (linter 0 "old" supportAll)),
    .host (.call (.host 0) (.activate "old")), .answer 0 (.available true),
    .host (.call (.host 1) (.replace [linter 1 "first" supportAll, linter 2 "second" supportAll,
      linter 3 "first" supportAll, linter 4 "third" supportAll]
      (some ["third", "unknown", "first", "third", "second"]))), .next 0, .next 0, .next 0,
    .answer 1 (.available true), .answer 1 (.raised "no such file"), .answer 0 (.available true),
    .next 0]

theorem replacedOutOfOrder_exchanges :
    replacedOutOfOrder.endings 10 = [(.host 1, .done (.count 2))] ∧
    ((replacedOutOfOrder.registry 10).plugins.keys = ["old"] ∧
      (replacedOutOfOrder.registry 10).active = ["old"]) ∧
    ((replacedOutOfOrder.registry 11).plugins.values.map (·.id) = [3, 2, 4] ∧
      (replacedOutOfOrder.registry 11).active = ["third", "first"]) ∧
    replacedOutOfOrder.Exchanges 3 (.host 1) [linter 1 "first" supportAll,
      linter 2 "second" supportAll, linter 3 "first" supportAll, linter 4 "third" supportAll]
      (some ["third", "unknown", "first", "third", "second"]) :=
  ⟨rfl, ⟨rfl, rfl⟩, ⟨rfl, rfl⟩,
    replace_exchanges replacedOutOfOrder 3 (.host 1) _ _ rfl rfl (kept_of_list rfl)⟩

end Schedule

end Shellwright.Registry
