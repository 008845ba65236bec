import Mathlib.Data.List.Nodup
import Shellwright.Proofs.Registry.Turns
/-!
# The verdict of a check

A check asks each plugin that is active and concerned as it begins, each once and no other. When all
have answered, what they say is put together in the order in which they were registered at that moment;
neither the order of the answers nor what happens to the registry meanwhile makes a difference.
-/

namespace Shellwright.Registry

/-! ## Verdicts put together -/

/-- The verdict `v` says what the verdicts `vs` say, one after another. -/
structure Together (vs : List Verdict) (v : Verdict) : Prop where
  diagnostics : v.diagnostics = vs.flatMap (·.diagnostics)
  errorMessage : v.errorMessage =
    if Verdict.spokenMessages vs = [] then none
    else some ("\n".intercalate (Verdict.spokenMessages vs))
  hasErrors : v.hasErrors = true ↔ ∃ w ∈ vs, w.hasErrors = true
  inconclusive : v.inconclusive = true ↔ ∃ w ∈ vs, w.inconclusive = true

theorem joinMessages_eq {messages : List String} (spoken : ∀ m ∈ messages, m ≠ "") :
    Verdict.joinMessages messages =
      if messages = [] then none else some ("\n".intercalate messages) := by
  cases messages with
  | nil => rfl
  | cons m rest =>
      have hm : m.toList ≠ [] := fun hnil =>
        spoken m List.mem_cons_self (String.toList_injective hnil)
      have hjoined : "\n".intercalate (m :: rest) ≠ "" := by
        intro heq
        have hnil := congrArg String.toList heq
        rw [String.toList_intercalate] at hnil
        cases rest <;> simp_all
      have hfull : ("\n".intercalate (m :: rest)).isEmpty = false := by
        simpa [String.isEmpty_iff] using hjoined
      simp [Verdict.joinMessages, hfull]

theorem merge_together (vs : List Verdict) : Together vs (Verdict.merge vs) where
  diagnostics := rfl
  errorMessage := joinMessages_eq fun m hm => by
    have hspoken := (List.mem_filter.1 hm).2
    rintro rfl
    exact absurd hspoken (by decide)
  hasErrors := List.any_eq_true
  inconclusive := List.any_eq_true

/-! ## What is asked -/

/-- The questions of a check, one for each of its plugins. -/
def invitations (key : CallKey) (question : Question) (ps : List Plugin) : List Inquiry :=
  ps.mapIdx fun i p => ⟨key, i, p, question⟩

theorem mem_invitations {key : CallKey} {question : Question} {ps : List Plugin} {q : Inquiry} :
    q ∈ invitations key question ps ↔ ∃ i p, ps[i]? = some p ∧ q = ⟨key, i, p, question⟩ := by
  simp only [invitations, List.mem_iff_getElem?, List.getElem?_mapIdx, Option.map_eq_some_iff]
  constructor
  · rintro ⟨i, p, hp, rfl⟩
    exact ⟨i, p, hp, rfl⟩
  · rintro ⟨i, p, hp, rfl⟩
    exact ⟨i, p, hp, rfl⟩

theorem nodup_invitations (key : CallKey) (question : Question) (ps : List Plugin) :
    (invitations key question ps).Nodup := by
  refine List.Nodup.of_map Inquiry.part ?_
  have hparts : (invitations key question ps).map Inquiry.part = List.range ps.length := by
    refine List.ext_getElem? fun i => ?_
    rw [List.getElem?_map, invitations, List.getElem?_mapIdx, Option.map_map]
    by_cases hi : i < ps.length <;> simp [hi]
  rw [hparts]
  exact List.nodup_range

/-! ## Questions of calls that are over -/

section Over

variable {r r' : Registry} {e : Event} {key : CallKey}

theorem Goes.asks_open (goes : Goes r e key r') :
    ∀ q ∈ r'.asks, q.key = key ∧ r'.calls.get? key ≠ none := by
  have hnone (h : r'.asks = []) : ∀ q ∈ r'.asks, q.key = key ∧ r'.calls.get? key ≠ none := by
    rw [h]
    exact fun q hq => nomatch hq
  have hopen (c : Call) : (r.setCall key c).calls.get? key ≠ none := by
    rw [setCall, Keyed.get?_put_self]
    exact Option.some_ne_none c
  cases goes with
  | asking i purpose probes name progress p event call part found leaves =>
      rw [leaves.asks, leaves.calls]
      intro q hq
      obtain rfl := List.mem_singleton.1 hq
      exact ⟨rfl, hopen _⟩
  | reading c ls as stage since later asked leaves =>
      rw [leaves.asks, leaves.calls]
      exact fun q hq => ⟨asked q hq, hopen c⟩
  | activating name p starts holds found leaves =>
      rw [leaves.asks, leaves.calls]
      intro q hq
      obtain rfl := List.mem_singleton.1 hq
      exact ⟨rfl, hopen _⟩
  | probing purpose names starts holds distinct suits leaves => exact hnone leaves.asks
  | settling i c purpose probes name progress ok event call stage part leaves =>
      exact hnone leaves.asks
  | marking c event call leaves => exact hnone leaves.asks
  | activated i c name event call stage leaves => exact hnone leaves.asks
  | completing purpose probes reply event leaves => exact hnone leaves.asks
  | ending outcome leaves => exact hnone leaves.asks

/-- Whoever asks is under way. -/
theorem step_asks_open (h : r.outbox = []) (buffers : Buffers) {q : Inquiry}
    (asked : q ∈ (r.step buffers e).asks) : (r.step buffers e).calls.get? q.key ≠ none := by
  have hnone (h : (r.step buffers e).asks = []) : (r.step buffers e).calls.get? q.key ≠ none := by
    rw [h] at asked
    cases asked
  cases step_reacts h buffers e with
  | changed core event leaves => exact hnone leaves.asks
  | idle leaves => exact hnone leaves.asks
  | queued k request held event busy leaves => exact hnone leaves.asks
  | enters k request event free goes =>
      obtain ⟨hkey, hopen⟩ := goes.asks_open q asked
      rwa [hkey]
  | goes k goes about =>
      obtain ⟨hkey, hopen⟩ := goes.asks_open q asked
      rwa [hkey]
  | withdrawn k event leaves => exact hnone leaves.asks

end Over

/-! ## How a check goes on -/

/-- How much is left to be done until the part has answered. -/
def Progress.left : Progress Verdict → Nat
  | .waiting => 2
  | .asked => 1
  | .settled _ => 0

def remaining : List (Plugin × Progress Verdict) → Nat
  | [] => 0
  | (_, progress) :: rest => progress.left + remaining rest

theorem remaining_setPart {parts : List (Plugin × Progress Verdict)} {i : Nat} {p : Plugin}
    {old : Progress Verdict} (new : Progress Verdict) (part : parts[i]? = some (p, old))
    (less : new.left < old.left) :
    remaining (setPart parts i new) < remaining parts := by
  induction parts generalizing i with
  | nil => cases part
  | cons entry rest ih =>
      cases i with
      | zero =>
          cases part
          exact Nat.add_lt_add_right less _
      | succ i => exact Nat.add_lt_add_left (ih part) _

namespace World

variable {w : World} {key : CallKey} {m : Move} {document : String} {options : CallOptions}
  {ps : List Plugin} {parts parts' : List (Plugin × Progress Verdict)}
  {answers : List (Inquiry × Answer)}

/-- What has been asked and answered is among the questions of the check. -/
theorem Gathers.invited (h : w.Gathers key document options ps parts answers) :
    (answers.map Prod.fst ++ w.inquiriesOf key).Subperm
      (invitations key (.check document options) ps) := by
  have hpart {i : Nat} {p : Plugin} {progress : Progress Verdict}
      (part : parts[i]? = some (p, progress)) :
      (⟨key, i, p, .check document options⟩ : Inquiry) ∈
        invitations key (.check document options) ps := by
    refine mem_invitations.2 ⟨i, p, ?_, rfl⟩
    rw [← h.plugins, List.getElem?_map, part]
    rfl
  have hunique : (answers.map Prod.fst).Nodup := by
    have hparts := h.state.unique
    rw [← Function.comp_def, ← List.map_map] at hparts
    exact hparts.of_map _
  have hanswered : ∀ q ∈ answers.map Prod.fst, ∃ p v, parts[q.part]? = some (p, .settled v) ∧
      q = ⟨key, q.part, p, .check document options⟩ := by
    intro q hq
    obtain ⟨⟨q, a⟩, hmem, rfl⟩ := List.mem_map.1 hq
    obtain ⟨p, v, hsettled⟩ := (h.state.answered q.part).1
      (List.mem_map.2 ⟨(q, a), hmem, rfl⟩)
    obtain ⟨a', hmem', -⟩ := h.state.settled q.part p v hsettled
    exact ⟨p, v, hsettled,
      congrArg Prod.fst (List.inj_on_of_nodup_map h.state.unique hmem hmem' rfl)⟩
  refine List.subperm_of_subset (hunique.append (h.state.single.of_map _) ?_) ?_
  · intro q hq hq'
    obtain ⟨p, v, hsettled, -⟩ := hanswered q hq
    obtain ⟨p', hasked, -⟩ := h.state.put q hq'
    rw [hsettled] at hasked
    cases hasked
  · intro q hq
    rcases List.mem_append.1 hq with hq | hq
    · obtain ⟨p, v, hsettled, heq⟩ := hanswered q hq
      rw [heq]
      exact hpart hsettled
    · obtain ⟨p, hasked, heq⟩ := h.state.put q hq
      rw [heq]
      exact hpart hasked

/-- When all have answered, all have been asked. -/
theorem Gathers.invited_all (h : w.Gathers key document options ps parts answers)
    (all : allChecked parts = true) :
    (answers.map Prod.fst ++ w.inquiriesOf key).Perm
      (invitations key (.check document options) ps) := by
  refine h.invited.antisymm (List.subperm_of_subset (nodup_invitations _ _ _) fun q hq => ?_)
  obtain ⟨i, p, hp, rfl⟩ := mem_invitations.1 hq
  rw [← h.plugins, List.getElem?_map] at hp
  obtain ⟨⟨_, progress⟩, hpart, rfl⟩ := Option.map_eq_some_iff.1 hp
  cases progress with
  | waiting => exact absurd all (by simp [not_allChecked hpart rfl])
  | asked => exact absurd all (by simp [not_allChecked hpart rfl])
  | settled v =>
      obtain ⟨a, hmem, -⟩ := h.state.settled i _ v hpart
      exact List.mem_append_left _ (List.mem_map.2 ⟨_, hmem, rfl⟩)

/-- A check under way has a part to be asked or to answer, or its verdicts are about to be put
together. -/
theorem Gathers.pending (h : w.Gathers key document options ps parts answers) :
    (∃ e ∈ w.due, e.key? = some key ∧ e ≠ .granted key) ∨ ∃ q ∈ w.inquiries, q.key = key := by
  refine pending_of_work ?_
  cases hall : allChecked parts with
  | true =>
      refine .inr (.inr ?_)
      rw [h.gathered, hall]
      exact Nat.one_pos
  | false => exact (h.state.unfinished hall).imp_right .inl

/-- What a move makes of the parts of a check: one of them is asked or answers, or they stay as they
are and the move does not tend to the check. -/
inductive Follows (w : World) (key : CallKey) (document : String) (options : CallOptions) (m : Move)
    (parts : List (Plugin × Progress Verdict)) : List (Plugin × Progress Verdict) → Prop
  | rests (idle : ∀ e, w.event? m = some e → e.key? = some key → e = .granted key) :
      Follows w key document options m parts parts
  | asks (i : Nat) (p : Plugin) (part : parts[i]? = some (p, .waiting)) :
      Follows w key document options m parts (setPart parts i .asked)
  | hears (i : Nat) (p : Plugin) (a : Answer) (part : parts[i]? = some (p, .asked))
      (reply : (⟨key, i, p, .check document options⟩, a) ∈ w.replies key m) :
      Follows w key document options m parts
        (setPart parts i (.settled (verdictOf p (w.buffers.find document) a)))

theorem Gathers.follows (h : w.Gathers key document options ps parts answers) (orderly : w.Orderly)
    (kept : ∀ e, w.event? m = some e → e.callsOff key = false)
    (call : (w.step m).registry.calls.get? key = some ⟨.checking document options parts', false⟩) :
    w.Follows key document options m parts parts' := by
  have hcall : w.registry.calls.get? key = some (Check.mk document options parts false).call :=
    h.call
  cases orderly.bearing h.call nofun kept with
  | passes same _ _ _ idle =>
      rw [same.call, h.call] at call
      cases call
      exact .rests idle
  | begins n i move due =>
      subst move
      rw [step_of_event (show w.event? (.next n) = some (.begin key i) from due)] at call
      have hwaits : i ∈ w.beginning key :=
        List.mem_filterMap.2 ⟨_, List.mem_of_getElem? due, if_pos rfl⟩
      obtain ⟨p, hpart⟩ := (h.state.waiting i).1 hwaits
      have hnow := (step_becomes orderly.outbox w.buffers hcall
        (show (Event.begin key i).turn? key = some (.begin i) from if_pos rfl)).call
      simp only [Check.turn] at hnow
      cases call.symm.trans hnow
      exact .asks i p hpart
  | hears n a q move asked own =>
      subst move
      rw [step_of_event (event_answer asked own a)] at call
      have hopen : q ∈ w.inquiriesOf key :=
        List.mem_filter.2 ⟨List.mem_of_getElem? asked, by simpa using own⟩
      obtain ⟨p, hpart, heq⟩ := h.state.put q hopen
      have hreply : (⟨key, q.part, p, .check document options⟩, a) ∈
          w.replies key (.answer n a) := by
        rw [← heq, replies_answer asked own]
        exact List.mem_singleton_self _
      have hnow := (step_becomes orderly.outbox w.buffers hcall
        (show (Event.answered key q.part a).turn? key = some (.answered q.part a) from
          if_pos rfl)).call
      simp only [Check.turn, hpart] at hnow
      cases call.symm.trans hnow
      exact .hears q.part p a hpart hreply
  | gathers n move due =>
      subst move
      have hgone := (h.completes orderly.outbox due).2.2
      rw [step_of_event (show w.event? (.next n) = some (.gathered key) from due)] at call
      cases call.symm.trans hgone

end World

namespace Schedule

/-- What plugins have been asked for a call so far. -/
def inquired (s : Schedule) (key : CallKey) : Nat → List Inquiry
  | 0 => []
  | t + 1 => s.inquired key t ++ (s.asked t).filter (·.key = key)

variable (s : Schedule)

/-- The plugins that are active and concerned with a document, in the order of registration. -/
def invited (t : Nat) (document : String) : List Plugin :=
  (s.registry t).activePlugins.filter (concerned ((s.world t).buffers.find document))

/-- The plugin `p` was asked as part `i`, and `v` is what came of its answer. -/
def Told (t₀ t : Nat) (key : CallKey) (document : String) (options : CallOptions) (i : Nat) (p : Plugin)
    (v : Verdict) : Prop :=
  ∃ u a, t₀ < u ∧ u < t ∧
    (⟨key, i, p, .check document options⟩, a) ∈ (s.world u).replies key (s u) ∧
    v = verdictOf p ((s.world u).buffers.find document) a

/-- The move goes on with the call: one of its plugins is asked or answers, or the answers are put
together. -/
def Tends (key : CallKey) (t : Nat) : Prop :=
  ∃ e, s.event? t = some e ∧ e.key? = some key ∧ e ≠ .granted key

/-- While there is something to be done for the call, it is gone on with sooner or later. -/
def Attends (t₀ : Nat) (key : CallKey) : Prop :=
  ∀ t, t₀ < t →
    ((∃ e ∈ (s.world t).due, e.key? = some key ∧ e ≠ .granted key) ∨
      ∃ q ∈ (s.world t).inquiries, q.key = key) →
    ∃ u, t ≤ u ∧ s.Tends key u

/-- The check that begins with the move `t₀` asks each plugin that is active and concerned at that
moment once and no other, and ends, once, with what they say put together in the order that they are
registered in at that moment. -/
structure Merges (t₀ : Nat) (key : CallKey) (document : String) (options : CallOptions) : Prop where
  asks : ∀ t, (s.inquired key t).Subperm
    (invitations key (.check document options) (s.invited t₀ document))
  ends : ∀ t outcome, t₀ ≤ t → (key, outcome) ∈ s.endings t →
    (s.inquired key t).Perm (invitations key (.check document options) (s.invited t₀ document)) ∧
    ∃ (vs : List Verdict) (v : Verdict), outcome = .done (.checked v) ∧ Together vs v ∧
      vs.length = (s.invited t₀ document).length ∧
      ∀ i p w, (s.invited t₀ document)[i]? = some p → vs[i]? = some w →
        s.Told t₀ t key document options i p w
  once : ∀ t t' outcome outcome', t₀ ≤ t → t₀ ≤ t' → (key, outcome) ∈ s.endings t →
    (key, outcome') ∈ s.endings t' → t = t' ∧ outcome = outcome'
  returns : s.Attends t₀ key → ∃ t outcome, t₀ ≤ t ∧ (key, outcome) ∈ s.endings t

variable {s} {t t₀ : Nat} {key : CallKey} {document : String} {options : CallOptions}
  {ps : List Plugin} {parts parts' : List (Plugin × Progress Verdict)}

/-- What was open or is asked is answered or is open. -/
theorem inquiriesOf_succ (kept : ∀ e, s.event? t = some e → e.callsOff key = false) :
    (((s.world t).replies key (s t)).map Prod.fst ++ (s.world (t + 1)).inquiriesOf key).Perm
      ((s.world t).inquiriesOf key ++ (s.asked t).filter (·.key = key)) := by
  have hspend : (((s.world t).replies key (s t)).map Prod.fst ++
      ((s.world t).spend (s t)).inquiriesOf key).Perm ((s.world t).inquiriesOf key) := by
    cases hmove : s t with
    | host e => cases e <;> exact .refl _
    | edit b => exact .refl _
    | next n => exact .refl _
    | answer n a =>
        cases hq : (s.world t).inquiries[n]? with
        | none =>
            simp only [World.replies, hq, World.spend, World.eraseIdx_of_getElem?_none hq]
            exact .refl _
        | some q =>
            have hperm := ((World.perm_of_getElem? hq).filter (·.key = key)).symm
            by_cases hown : q.key = key
            · rw [List.filter_cons_of_pos (by simpa using hown)] at hperm
              simpa [World.replies, World.spend, World.inquiriesOf, hq, Option.filter, hown] using hperm
            · rw [List.filter_cons_of_neg (by simpa using hown)] at hperm
              simpa [World.replies, World.spend, World.inquiriesOf, hq, Option.filter, hown] using hperm
    | stop n =>
        cases hq : (s.world t).inquiries[n]? with
        | none =>
            simp only [World.replies, World.spend, World.eraseIdx_of_getElem?_none hq]
            exact .refl _
        | some q =>
            have hevent : s.event? t = some (.stopped q.key q.part) := by
              rw [event?, hmove]
              exact Option.map_eq_some_iff.2 ⟨q, hq, rfl⟩
            have hother : q.key ≠ key := by simpa [Event.callsOff] using kept _ hevent
            have hperm := ((World.perm_of_getElem? hq).filter (·.key = key)).symm
            rw [List.filter_cons_of_neg (by simpa using hother)] at hperm
            exact hperm
  have hstep : (s.world (t + 1)).inquiriesOf key =
      ((s.world t).spend (s t)).inquiriesOf key ++ (s.asked t).filter (·.key = key) := by
    cases hevent : s.event? t with
    | none =>
        rw [world_of_none hevent, asked, hevent]
        exact (List.append_nil _).symm
    | some e =>
        rw [world_of_some hevent, asked_of_some hevent]
        exact List.filter_append ..
  rw [hstep, ← List.append_assoc]
  exact hspend.append_right _

/-- What has been asked has been answered or is open. -/
theorem inquired_perm (kept : ∀ t e, s.event? t = some e → e.callsOff key = false) (t : Nat) :
    (s.inquired key t).Perm
      ((s.answers key t).map Prod.fst ++ (s.world t).inquiriesOf key) := by
  induction t with
  | zero => exact .refl _
  | succ t ih =>
      have hnow := inquiriesOf_succ (kept t)
      rw [inquired, answers, List.map_append, List.append_assoc]
      refine ((ih.append_right _).trans ?_).trans (hnow.append_left _).symm
      rw [List.append_assoc]

/-- A call that is over asks nothing more. -/
theorem inquired_gone (gone : (s.registry (t + 1)).calls.get? key = none) :
    s.inquired key (t + 1) = s.inquired key t := by
  have hnone : (s.asked t).filter (·.key = key) = [] := by
    refine List.filter_eq_nil_iff.2 fun q hq hown => ?_
    obtain rfl : q.key = key := by simpa using hown
    cases hevent : s.event? t with
    | none =>
        rw [asked, hevent] at hq
        cases hq
    | some e =>
        rw [asked_of_some hevent] at hq
        refine step_asks_open (spend_orderly s t).outbox _ hq ?_
        rw [registry, world_of_some hevent] at gone
        exact gone
  rw [inquired, hnone, List.append_nil]

theorem Told.mono {i : Nat} {p : Plugin} {v : Verdict} {t' : Nat}
    (h : s.Told t₀ t key document options i p v) (le : t ≤ t') :
    s.Told t₀ t' key document options i p v := by
  obtain ⟨u, a, since, past, reply, heq⟩ := h
  exact ⟨u, a, since, Nat.lt_of_lt_of_le past le, reply, heq⟩

theorem known_later {t' : Nat} (le : t ≤ t') (h : key ∈ (s.world t).known) :
    key ∈ (s.world t').known := by
  induction le with
  | refl => exact h
  | step _ ih => exact World.known_step _ _ ih

theorem inquired_new (kept : ∀ t e, s.event? t = some e → e.callsOff key = false)
    (new : key ∉ (s.world t).known) : s.inquired key t = [] := by
  have hperm := inquired_perm kept t
  have hopen : (s.world t).inquiriesOf key = [] := by
    refine List.filter_eq_nil_iff.2 fun q hq hown => new ?_
    obtain rfl : q.key = key := by simpa using hown
    exact (s.orderly t).inquiries q hq
  rw [answers_of_new new, hopen] at hperm
  exact hperm.eq_nil

/-! ## Calls that are over -/

theorem ended_gone {outcome : Outcome Reply} (ended : (key, outcome) ∈ s.endings t) :
    key ∈ (s.world (t + 1)).known ∧ (s.registry (t + 1)).calls.get? key = none := by
  cases hevent : s.event? t with
  | none =>
      have hnone : s.endings t = [] := by
        unfold endings World.endings
        rw [show (s.world t).event? (s t) = none from hevent]
      rw [hnone] at ended
      cases ended
  | some e =>
      rw [endings, World.endings_of_event hevent] at ended
      obtain ⟨hgone, hbefore⟩ := step_ends (spend_orderly s t).outbox _ ended
      refine ⟨?_, by rw [registry, world_of_some hevent]; exact hgone⟩
      rcases hbefore with hcall | ⟨request, rfl⟩
      · obtain ⟨c, hc⟩ := Option.ne_none_iff_exists'.1 hcall
        rw [World.spend_registry] at hc
        exact World.known_step _ _ ((s.orderly t).fits key c hc).known
      · exact known_of_call hevent

theorem gone_later {u : Nat} (known : key ∈ (s.world t).known)
    (gone : (s.registry t).calls.get? key = none) (le : t ≤ u) :
    (s.registry u).calls.get? key = none := by
  induction le with
  | refl => exact gone
  | step hle ih => exact ((s.orderly _).gone (known_later hle known) ih _).1

/-- No call ends twice. -/
theorem ends_once {t' : Nat} {outcome outcome' : Outcome Reply}
    (ended : (key, outcome) ∈ s.endings t) (ended' : (key, outcome') ∈ s.endings t') :
    t = t' ∧ outcome = outcome' := by
  have hlater {u u' : Nat} {o o' : Outcome Reply} (hu : (key, o) ∈ s.endings u)
      (hu' : (key, o') ∈ s.endings u') : ¬ u < u' := by
    intro hlt
    obtain ⟨hknown, hgone⟩ := ended_gone hu
    exact ((s.orderly u').gone (known_later hlt hknown) (gone_later hknown hgone hlt) (s u')).2 o' hu'
  obtain rfl : t = t' :=
    Nat.le_antisymm (Nat.not_lt.1 (hlater ended' ended)) (Nat.not_lt.1 (hlater ended ended'))
  refine ⟨rfl, ?_⟩
  cases hevent : s.event? t with
  | none =>
      unfold endings World.endings at ended
      rw [show (s.world t).event? (s t) = none from hevent] at ended
      cases ended
  | some e =>
      rw [endings, World.endings_of_event hevent] at ended ended'
      rcases step_finishes (spend_orderly s t).outbox ((s.world t).spend (s t)).buffers e with
        hnone | ⟨k, o, hone⟩
      · rw [hnone] at ended
        cases ended
      · rw [hone] at ended ended'
        cases List.mem_singleton.1 ended
        cases List.mem_singleton.1 ended'
        rfl

/-- Nothing more is asked for a call that has ended. -/
theorem inquired_later {outcome : Outcome Reply} (ended : (key, outcome) ∈ s.endings t) {u : Nat}
    (le : t ≤ u) : s.inquired key u = s.inquired key t := by
  obtain ⟨hknown, hgone⟩ := ended_gone ended
  induction le with
  | refl => rfl
  | step hle ih => exact (inquired_gone (gone_later hknown hgone (Nat.succ_le_succ hle))).trans ih

/-- A call that is gone on with ends: `left t n` says how much is left to be done before the move `t`,
and that is less each time. -/
theorem ends_of_left (left : Nat → Nat → Prop) (attends : s.Attends t₀ key)
    (start : (∀ outcome, (key, outcome) ∉ s.endings t₀) → ∃ n, left (t₀ + 1) n)
    (pending : ∀ t n, left t n →
      (∃ e ∈ (s.world t).due, e.key? = some key ∧ e ≠ .granted key) ∨
        ∃ q ∈ (s.world t).inquiries, q.key = key)
    (goesOn : ∀ t n, left t n → (∀ outcome, (key, outcome) ∉ s.endings t) →
      ∃ n', left (t + 1) n' ∧ n' ≤ n ∧ (s.Tends key t → n' < n)) :
    ∃ t outcome, t₀ ≤ t ∧ (key, outcome) ∈ s.endings t := by
  by_contra hnever
  have hquiet : ∀ u, t₀ ≤ u → ∀ outcome, (key, outcome) ∉ s.endings u :=
    fun u since outcome ended => hnever ⟨u, outcome, since, ended⟩
  have hlater {t u n : Nat} (past : t₀ < t) (hleft : left t n) (later : t ≤ u) :
      ∃ n', left u n' ∧ n' ≤ n := by
    induction later with
    | refl => exact ⟨n, hleft, Nat.le_refl n⟩
    | step hle ih =>
        obtain ⟨n₁, hleft₁, hle₁⟩ := ih
        have hsince := Nat.le_of_lt (Nat.lt_of_lt_of_le past hle)
        obtain ⟨n₂, hleft₂, hle₂, -⟩ := goesOn _ n₁ hleft₁ (hquiet _ hsince)
        exact ⟨n₂, hleft₂, Nat.le_trans hle₂ hle₁⟩
  have hendless (n : Nat) : ∀ t, t₀ < t → ¬ left t n := by
    induction n using Nat.strongRecOn with
    | ind n ih =>
        intro t past hleft
        obtain ⟨u, later, tends⟩ := attends t past (pending t n hleft)
        obtain ⟨n₁, hleft₁, hle₁⟩ := hlater past hleft later
        have hpast : t₀ < u := Nat.lt_of_lt_of_le past later
        obtain ⟨n₂, hleft₂, -, hless⟩ := goesOn u n₁ hleft₁ (hquiet u (Nat.le_of_lt hpast))
        exact ih n₂ (Nat.lt_of_lt_of_le (hless tends) hle₁) (u + 1) (Nat.lt_succ_of_lt hpast) hleft₂
  obtain ⟨n, hleft⟩ := start (hquiet t₀ (Nat.le_refl t₀))
  exact hendless n (t₀ + 1) (Nat.lt_succ_self t₀) hleft

section Course

variable (holds closes : Nat → Prop)
  (start : holds (t₀ + 1) ∧ (∀ outcome, (key, outcome) ∉ s.endings t₀) ∨ closes t₀)
  (goesOn : ∀ t, holds t → holds (t + 1) ∧ (∀ outcome, (key, outcome) ∉ s.endings t) ∨ closes t)
  (ends : ∀ t, closes t → ∃ outcome, (key, outcome) ∈ s.endings t)

include start goesOn ends

/-- A call that is under way when it has begun stays so until it ends. -/
theorem holds_of_open (past : t₀ < t)
    (open' : ∀ u outcome, t₀ ≤ u → u < t → (key, outcome) ∉ s.endings u) : holds t := by
  have hcloses {u : Nat} (since : t₀ ≤ u) (past : u < t) : ¬ closes u := by
    intro hcloses
    obtain ⟨outcome, ended⟩ := ends u hcloses
    exact open' u outcome since past ended
  induction t with
  | zero => cases past
  | succ t ih =>
      rcases Nat.lt_succ_iff_lt_or_eq.1 past with hlt | rfl
      · have hholds := ih hlt
          (fun u outcome since hu => open' u outcome since (Nat.lt_succ_of_lt hu))
          (fun since hu => hcloses since (Nat.lt_succ_of_lt hu))
        exact ((goesOn t hholds).resolve_right (hcloses (Nat.le_of_lt hlt) (Nat.lt_succ_self t))).1
      · exact (start.resolve_right (hcloses (Nat.le_refl _) (Nat.lt_succ_self _))).1

/-- When the call ends it is over. -/
theorem closes_of_ended {outcome : Outcome Reply} (since : t₀ ≤ t)
    (ended : (key, outcome) ∈ s.endings t) : closes t := by
  rcases Nat.lt_or_eq_of_le since with hlt | rfl
  · have hholds := holds_of_open holds closes start goesOn ends hlt
      fun u o _ hu ended' => absurd (ends_once ended' ended).1 (Nat.ne_of_lt hu)
    exact (goesOn t hholds).resolve_left fun hopen => hopen.2 outcome ended
  · exact start.resolve_left fun hopen => hopen.2 outcome ended

end Course

/-- Each move leaves no more to be done than there was, and less when it goes on with the check. -/
theorem remaining_succ (kept : ∀ e, s.event? t = some e → e.callsOff key = false)
    (gathers : (s.world t).Gathers key document options ps parts (s.answers key t))
    (open' : ∀ outcome, (key, outcome) ∉ s.endings t) :
    ∃ parts', (s.world (t + 1)).Gathers key document options ps parts' (s.answers key (t + 1)) ∧
      remaining parts' ≤ remaining parts ∧ (s.Tends key t → remaining parts' < remaining parts) := by
  obtain ⟨⟨parts', hgathers⟩, -⟩ | ⟨-, -, hended, -⟩ := gathers.step (s.orderly t) kept
  · refine ⟨parts', hgathers, ?_⟩
    cases gathers.follows (s.orderly t) kept hgathers.call with
    | rests idle =>
        refine ⟨Nat.le_refl _, ?_⟩
        rintro ⟨e, hevent, hkey, hne⟩
        exact absurd (idle e hevent hkey) hne
    | asks i p part =>
        have hless := remaining_setPart .asked part (Nat.lt_succ_self 1)
        exact ⟨Nat.le_of_lt hless, fun _ => hless⟩
    | hears i p a part reply =>
        have hless := remaining_setPart
          (.settled (verdictOf p ((s.world t).buffers.find document) a)) part (Nat.lt_succ_self 0)
        exact ⟨Nat.le_of_lt hless, fun _ => hless⟩
  · exact absurd (by rw [endings, hended]; exact List.mem_singleton_self _) (open' _)

section Merging

variable (event : s.event? t₀ = some (.call key (.check document options)))
  (kept : ∀ t e, s.event? t = some e → e.callsOff key = false)
  (able : ∀ p ∈ (s.registry t₀).activePlugins, ∀ text,
    p.supports ((s.world t₀).buffers.find document) ≠ .error text)

include event kept able

/-- While the check has not ended it is gathered. -/
theorem gathers_of_quiet (past : t₀ < t)
    (quiet : ∀ u outcome, t₀ ≤ u → u < t → (key, outcome) ∉ s.endings u) :
    ∃ parts, (s.world t).Gathers key document options (s.invited t₀ document) parts
      (s.answers key t) := by
  cases fate event kept able past with
  | underWay parts gathers _ => exact ⟨parts, gathers⟩
  | settled u v since past' complete ended alone known gone =>
      exact absurd ended (quiet u _ since past')

/-- A check that has answers of all its parts got each of them from the plugin that it asked. -/
theorem told (past : t₀ < t)
    (gathers : (s.world t).Gathers key document options (s.invited t₀ document) parts
      (s.answers key t)) :
    ∀ i p v, parts[i]? = some (p, .settled v) → s.Told t₀ t key document options i p v := by
  induction t generalizing parts with
  | zero => cases past
  | succ t ih =>
      intro i p v part
      have hcall := gathers.call
      rcases Nat.lt_succ_iff_lt_or_eq.1 past with hlt | rfl
      · cases fate event kept able hlt with
        | settled u v' since past' complete ended alone known gone =>
            have hgone := ((s.orderly t).gone known gone (s t)).1
            exact absurd (hcall.symm.trans hgone) nofun
        | underWay parts₀ gathers₀ quiet =>
            have hbefore := ih hlt gathers₀
            cases gathers₀.follows (s.orderly t) (kept t) hcall with
            | rests idle => exact (hbefore i p v part).mono (Nat.le_succ t)
            | asks j q asked =>
                by_cases hij : i = j
                · subst hij
                  rw [getElem?_setPart_self asked] at part
                  cases part
                · rw [getElem?_setPart_of_ne _ _ hij] at part
                  exact (hbefore i p v part).mono (Nat.le_succ t)
            | hears j q a asked reply =>
                by_cases hij : i = j
                · subst hij
                  rw [getElem?_setPart_self asked] at part
                  cases part
                  exact ⟨t, a, hlt, Nat.lt_succ_self t, reply, rfl⟩
                · rw [getElem?_setPart_of_ne _ _ hij] at part
                  exact (hbefore i p v part).mono (Nat.le_succ t)
      -- Nobody has answered a check that has just begun.
      · have hnew := ((s.orderly t₀).host_of_call event).2
        have hanswers : s.answers key (t₀ + 1) = [] := by
          rw [answers, answers_of_new hnew, (s.orderly t₀).replies_of_new hnew]
          rfl
        obtain ⟨a, hmem, -⟩ := gathers.state.settled i p v part
        rw [hanswers] at hmem
        cases hmem

theorem inquired_invited (t : Nat) : (s.inquired key t).Subperm
    (invitations key (.check document options) (s.invited t₀ document)) := by
  induction t with
  | zero => exact List.nil_subperm
  | succ t ih =>
      by_cases hpast : t₀ < t + 1
      · cases fate event kept able hpast with
        | underWay parts gathers quiet =>
            exact (inquired_perm kept (t + 1)).subperm_right.2 gathers.invited
        | settled u v since past complete ended alone known gone =>
            rw [inquired_gone gone]
            exact ih
      · have hnew : key ∉ (s.world (t + 1)).known := fun hknown =>
          ((s.orderly t₀).host_of_call event).2 (known_later (Nat.le_of_not_lt hpast) hknown)
        rw [inquired_new kept hnew]
        exact List.nil_subperm

/-- What has been asked and answered when the check ends, and the verdict that it ends with. -/
theorem ended_merged {outcome : Outcome Reply} (since : t₀ ≤ t) (ended : (key, outcome) ∈ s.endings t) :
    (s.inquired key t).Perm (invitations key (.check document options) (s.invited t₀ document)) ∧
    ∃ (vs : List Verdict) (v : Verdict), outcome = .done (.checked v) ∧ Together vs v ∧
      vs.length = (s.invited t₀ document).length ∧
      ∀ i p w, (s.invited t₀ document)[i]? = some p → vs[i]? = some w →
        s.Told t₀ t key document options i p w := by
  rcases Nat.lt_or_eq_of_le since with hlt | rfl
  · cases fate event kept able hlt with
    | settled u v since past complete ended' alone known gone =>
        exact absurd ended (((s.orderly t).gone known gone (s t)).2 outcome)
    | underWay parts gathers quiet =>
        rcases gathers.step (s.orderly t) (kept t) with ⟨-, hnone⟩ | ⟨hall, -, hended, -⟩
        · exact absurd ended (hnone outcome)
        · rw [endings, hended] at ended
          cases List.mem_singleton.1 ended
          have hplugins : parts.map Prod.fst = s.invited t₀ document := gathers.plugins
          obtain ⟨vs, hresults, hprogress⟩ := settled_of_allChecked hall
          refine ⟨(inquired_perm kept t).trans (gathers.invited_all hall), vs, _, rfl, ?_, ?_, ?_⟩
          · rw [hresults]
            exact merge_together vs
          · have hlength := congrArg List.length hplugins
            rw [List.length_map] at hlength
            simpa [← hlength] using (congrArg List.length hprogress).symm
          · intro i p w hp hw
            refine told event kept able hlt gathers i p w ?_
            have hsettled : (parts.map (·.2))[i]? = some (.settled w) := by
              rw [hprogress, List.getElem?_map, hw]
              rfl
            rw [← hplugins, List.getElem?_map] at hp
            obtain ⟨⟨_, progress⟩, hpart, rfl⟩ := Option.map_eq_some_iff.1 hp
            rw [List.getElem?_map, hpart] at hsettled
            cases hsettled
            exact hpart
  · have hsnapshot : (s.registry t₀).snapshot ((s.world t₀).buffers.find document) =
        .ok (s.invited t₀ document) := supporting_eq able
    by_cases hps : s.invited t₀ document = []
    · rw [hps] at hsnapshot ⊢
      obtain ⟨hended, -⟩ :=
        (s.orderly t₀).endings_of_call event (startCheck_nobody hsnapshot key options)
      rw [endings, hended] at ended
      cases List.mem_singleton.1 ended
      rw [inquired_new kept ((s.orderly t₀).host_of_call event).2]
      exact ⟨.refl _, [], {}, rfl, merge_together [], rfl, fun i p w hp => by cases hp⟩
    · have hended := ((s.orderly t₀).gathers_of_call event hsnapshot hps).2
      rw [endings, hended] at ended
      cases ended

/-- A check that is gone on with ends: there is less left to be done each time. -/
theorem ends_of_attends (attends : s.Attends t₀ key) :
    ∃ t outcome, t₀ ≤ t ∧ (key, outcome) ∈ s.endings t := by
  refine ends_of_left (fun t n => ∃ parts, (s.world t).Gathers key document options
    (s.invited t₀ document) parts (s.answers key t) ∧ remaining parts = n) attends ?_ ?_ ?_
  · intro hopen
    obtain ⟨parts, hgathers⟩ := gathers_of_quiet event kept able (Nat.lt_succ_self t₀) <| by
      intro u outcome since past
      obtain rfl := Nat.le_antisymm (Nat.le_of_lt_succ past) since
      exact hopen outcome
    exact ⟨_, parts, hgathers, rfl⟩
  · rintro t n ⟨parts, hgathers, -⟩
    exact hgathers.pending
  · rintro t n ⟨parts, hgathers, rfl⟩ hopen
    obtain ⟨parts', hgathers', hle, hless⟩ := remaining_succ (kept t) hgathers hopen
    exact ⟨_, ⟨parts', hgathers', rfl⟩, hle, hless⟩

end Merging

/-- Every check that is not called off asks the plugins that are active and concerned as it begins, each
once, and puts together what they say in the order of registration, unless one of them raises on being
asked whether it handles the document. -/
theorem check_merges (s : Schedule) (t₀ : Nat) (key : CallKey) (document : String)
    (options : CallOptions) (event : s.event? t₀ = some (.call key (.check document options)))
    (kept : ∀ t e, s.event? t = some e → e.callsOff key = false)
    (able : ∀ p ∈ (s.registry t₀).activePlugins, ∀ text,
      p.supports ((s.world t₀).buffers.find document) ≠ .error text) :
    s.Merges t₀ key document options where
  asks := inquired_invited event kept able
  ends _ _ since ended := ended_merged event kept able since ended
  once t t' outcome outcome' since since' ended ended' := by
    have hpast : t₀ < max t t' + 1 := by omega
    exact (fate event kept able hpast).once since (by omega) ended since' (by omega) ended'
  returns := ends_of_attends event kept able

/-- While two linters check, the host removes both and registers another; the second answers first. -/
def clearedInCheck : Schedule :=
  ofMoves (checkOfTwo supportAll ++
    [.next 0, .next 0, .host .clear, .answer 1 (.checked { errorMessage := some "second" }),
      .host (.register (linter 2 "third" supportAll)), .answer 0 (.raised "no such rule"), .next 0])

theorem clearedInCheck_merges :
    (∃ v, clearedInCheck.endings 15 = [(.host 1, .done (.checked v))] ∧
      v.errorMessage = some "first check failed: no such rule\nsecond") ∧
    clearedInCheck.Merges 8 (.host 1) "d" {} := by
  have hactive : (clearedInCheck.registry 8).activePlugins =
      [linter 0 "first" supportAll, linter 1 "second" supportAll] := rfl
  refine ⟨⟨_, rfl, by decide⟩, check_merges clearedInCheck 8 (.host 1) "d" {} rfl (kept_of_list rfl) ?_⟩
  rw [hactive]
  intro p hp text
  rcases List.mem_pair.1 hp with rfl | rfl <;> exact nofun

end Schedule

end Shellwright.Registry
