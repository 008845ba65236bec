import Shellwright.Proofs.Registry.Formatting
import Shellwright.Proofs.Review.Passing
import Shellwright.Proofs.Review.Publication
/-!
# Which formatters a call consults

What was asked and answered in the course of a review, and that the verdict of a format is the one that
follows from it: that of the first formatter with edits, or else what all formatters have said.
-/

namespace Shellwright.Review

open Registry (Inquiry)

/-- A formatter that was asked with one event and has answered with another. -/
structure Consultation where
  plugin : Plugin
  asked : Nat
  answered : Nat
  answer : Answer

/-- What a call has asked and heard since it began. -/
structure Talk where
  /-- The plugin that was asked last and has not answered. -/
  open? : Option (Plugin × Nat) := none
  heard : List Consultation := []

namespace Talk

/-- Something was asked with event `t`. -/
def ask (key : CallKey) (t : Nat) (talk : Talk) (q : Inquiry) : Talk :=
  if q.key = key then { talk with open? := some (q.plugin, t) } else talk

/-- The registry was told something with event `t`. -/
def tell (key : CallKey) (t : Nat) (talk : Talk) : Registry.Event → Talk
  | .call k _ => if k = key then {} else talk
  | .answered k _ answer =>
    if k = key then
      match talk.open? with
      | some (p, u) => ⟨none, talk.heard ++ [⟨p, u, t, answer⟩]⟩
      | none => talk
    else talk
  | _ => talk

theorem foldl_ask {key : CallKey} {t : Nat} {asks : List Inquiry} (h : ∀ q ∈ asks, q.key ≠ key)
    (talk : Talk) : asks.foldl (ask key t) talk = talk := by
  induction asks generalizing talk with
  | nil => rfl
  | cons q rest ih =>
      have hq : ask key t talk q = talk := if_neg (h q List.mem_cons_self)
      rw [List.foldl_cons, hq]
      exact ih (fun q' hq' => h q' (List.mem_cons_of_mem _ hq')) talk

theorem tell_of_other {key : CallKey} {t : Nat} {e : Registry.Event} (talk : Talk)
    (old : ∀ request, e ≠ .call key request) (unanswered : ∀ i a, e ≠ .answered key i a) :
    talk.tell key t e = talk := by
  cases e with
  | call k request => exact if_neg fun heq => old request (by rw [heq])
  | answered k i a => exact if_neg fun heq => unanswered i a (by rw [heq])
  | _ => rfl

end Talk

namespace Course

variable (c : Course)

/-- What the registry is told with event `t`. -/
def told? (t : Nat) : Option Registry.Event :=
  (c.reviewer t).conveyed (c.event t)

/-- What the call of the registry has asked and heard before event `t`. -/
def talk (c : Course) (key : CallKey) : Nat → Talk
  | 0 => {}
  | t + 1 =>
    match c.told? t with
    | some e =>
      ((c.reviewer t).registry.step (c.reviewer t).buffers e).asks.foldl (Talk.ask key t)
        ((c.talk key t).tell key t e)
    | none => c.talk key t

/-- The formatters that call `n` had consulted before event `t`. -/
def consulted (n t : Nat) : List Consultation :=
  (c.talk (.host n) t).heard

/-- What a consultation contributes to the verdict on a document. -/
def share (document : String) (k : Consultation) : FormatVerdict :=
  Registry.formatShare k.plugin ((c.reviewer k.answered).document document) k.answer

/-- The text that a formatter was given. -/
def textAsked (document : String) (k : Consultation) : String :=
  ((c.reviewer k.asked).document document).text

/-- The registry ends a call with event `t`. -/
def Settles (t : Nat) (key : CallKey) (outcome : Outcome Registry.Reply) : Prop :=
  (key, outcome) ∈ ((c.reviewer t).reached (c.event t)).finishes

/-- The format that the registry begins with event `t₀` ends with event `t` and this verdict. -/
structure Formats (n : Nat) (document : String) (options : CallOptions) (t₀ t : Nat)
    (v : FormatVerdict) : Prop where
  began : c.told? t₀ = some (.call (.host n) (.format document options))
  since : t₀ ≤ t
  once : ∀ u, t₀ < u → u ≤ t → ∀ request, c.told? u ≠ some (.call (.host n) request)
  ended : c.Settles t (.host n) (.done (.formatted v))

/-- Formatters were consulted between two events, and this is what they make of a document. -/
structure Consulted (n : Nat) (document : String) (ps : List Plugin) (t₀ t : Nat)
    (v : FormatVerdict) : Prop where
  verdict : v = FormatVerdict.first ((c.consulted n (t + 1)).map (c.share document))
  order : (c.consulted n (t + 1)).map (·.plugin) <+: ps
  all : v.edits = [] → (c.consulted n (t + 1)).map (·.plugin) = ps
  winner : v.edits ≠ [] → ∃ k, (c.consulted n (t + 1)).getLast? = some k ∧ k.answered = t ∧
    c.share document k = v
  times : ∀ k ∈ c.consulted n (t + 1), t₀ ≤ k.asked ∧ k.asked < k.answered ∧ k.answered ≤ t

/-- The formatter `p` is being asked, and `rest` are still to be. -/
structure Consulting (n : Nat) (document : String) (options : CallOptions) (ps : List Plugin)
    (t₀ t : Nat) (p : Plugin) (rest : List Plugin) : Prop where
  consults : (c.reviewer t).registry.Consults (.host n) document options p rest
    ((c.consulted n t).map fun k => (c.share document k).toVerdict)
  asked : ∃ u, t₀ ≤ u ∧ u < t ∧ (c.talk (.host n) t).open? = some (p, u)
  plugins : (c.consulted n t).map (·.plugin) ++ p :: rest = ps
  quiet : ∀ k ∈ c.consulted n t, (c.share document k).edits = []
  times : ∀ k ∈ c.consulted n t, t₀ ≤ k.asked ∧ k.asked < k.answered ∧ k.answered < t

/-- How a format stands before event `t`. -/
inductive Stands (n : Nat) (document : String) (options : CallOptions) (ps : List Plugin)
    (t₀ t : Nat) : Prop
  | consulting (p : Plugin) (rest : List Plugin)
      (consulting : c.Consulting n document options ps t₀ t p rest)
  | gone (gone : (c.reviewer t).registry.calls.get? (.host n) = none)

variable {c} {n t t₀ : Nat} {document : String} {options : CallOptions} {ps : List Plugin}
  {p : Plugin} {rest : List Plugin}

/-! ## The registry in the course of a review -/

theorem told?_of_abort {m : Nat} (h : c.event t = .abort m) : c.told? t = none := by
  rw [told?, h]
  rfl

theorem registry_of_told (kept : ∀ m, c.event t ≠ .abort m) :
    (c.reviewer (t + 1)).registry = { (c.reviewer t).reached (c.event t) with outbox := [] } :=
  (Reviewer.step_leads (c.orderly t).calm kept).registry

theorem not_abort_of_told {e : Registry.Event} (h : c.told? t = some e) :
    ∀ m, c.event t ≠ .abort m := by
  intro m hm
  rw [told?_of_abort hm] at h
  cases h

theorem reached_of_told {e : Registry.Event} (h : c.told? t = some e) :
    (c.reviewer t).reached (c.event t) =
      (c.reviewer t).registry.step (c.reviewer t).buffers e := by
  rw [Reviewer.reached, show (c.reviewer t).conveyed (c.event t) = some e from h]

theorem told_of_settles {key : CallKey} {outcome : Outcome Registry.Reply}
    (h : c.Settles t key outcome) : ∃ e, c.told? t = some e ∧
      (key, outcome) ∈ ((c.reviewer t).registry.step (c.reviewer t).buffers e).finishes :=
  Reviewer.conveyed_of_ends (c.orderly t).calm h

theorem calls_of_told {e : Registry.Event} (h : c.told? t = some e) :
    (c.reviewer (t + 1)).registry.calls =
      ((c.reviewer t).registry.step (c.reviewer t).buffers e).calls := by
  rw [registry_of_told (not_abort_of_told h), reached_of_told h]

theorem talk_of_told {key : CallKey} {e : Registry.Event} (h : c.told? t = some e) :
    c.talk key (t + 1) = ((c.reviewer t).registry.step (c.reviewer t).buffers e).asks.foldl
      (Talk.ask key t) ((c.talk key t).tell key t e) := by
  rw [talk, h]

theorem talk_of_none {key : CallKey} (h : c.told? t = none) :
    c.talk key (t + 1) = c.talk key t := by
  rw [talk, h]

/-! ## One formatter after another -/

/-- The formatters in `talk` have answered without edits, and the next one is asked or none is left. -/
theorem stands_of_turns {e : Registry.Event} {talk : Talk} {plugins : List Plugin}
    (told : c.told? t = some e) (since : t₀ ≤ t)
    (talk_eq : (c.talk (.host n) t).tell (.host n) t e = talk)
    (turns : Registry.Turns (.host n) document options
      (talk.heard.map fun k => (c.share document k).toVerdict)
      ((c.reviewer t).registry.step (c.reviewer t).buffers e) plugins)
    (order : talk.heard.map (·.plugin) ++ plugins = ps)
    (quiet : ∀ k ∈ talk.heard, (c.share document k).edits = [])
    (times : ∀ k ∈ talk.heard, t₀ ≤ k.asked ∧ k.asked < k.answered ∧ k.answered ≤ t) :
    c.Stands n document options ps t₀ (t + 1) ∧
      ∀ v, c.Settles t (.host n) (.done (.formatted v)) → c.Consulted n document ps t₀ t v := by
  have htalk : c.talk (.host n) (t + 1) = _ := talk_of_told told
  rw [talk_eq] at htalk
  cases turns with
  | asks p rest consults asked open' =>
      have hask : c.talk (.host n) (t + 1) = { talk with open? := some (p, t) } := by
        rw [htalk, asked]
        exact if_pos rfl
      have hheard : c.consulted n (t + 1) = talk.heard := by rw [consulted, hask]
      refine ⟨.consulting p rest ⟨?_, ⟨t, since, Nat.lt_succ_self t, by rw [hask]⟩, ?_, ?_, ?_⟩,
        fun v hsettles => ?_⟩
      · obtain ⟨call, hcall, hstage⟩ := consults
        rw [hheard]
        exact ⟨call, by rw [calls_of_told told, hcall], hstage⟩
      · rw [hheard, order]
      · rw [hheard]
        exact quiet
      · rw [hheard]
        intro k hk
        obtain ⟨hasked, hlt, hanswered⟩ := times k hk
        exact ⟨hasked, hlt, Nat.lt_succ_of_le hanswered⟩
      · rw [Settles, reached_of_told told, open'] at hsettles
        cases hsettles
  | ends asked gone ended =>
      have hheard : c.consulted n (t + 1) = talk.heard := by rw [consulted, htalk, asked]; rfl
      refine ⟨.gone (by rw [calls_of_told told, gone]), fun v hsettles => ?_⟩
      rw [Settles, reached_of_told told, ended] at hsettles
      cases List.mem_singleton.1 hsettles
      have hshares : ∀ w ∈ talk.heard.map (c.share document), w.edits = [] := by
        intro w hw
        obtain ⟨k, hk, rfl⟩ := List.mem_map.1 hw
        exact quiet k hk
      have hplugins : (c.consulted n (t + 1)).map (·.plugin) = ps := by
        rw [hheard, ← order, List.append_nil]
      refine ⟨?_, hplugins ▸ List.prefix_refl _, fun _ => hplugins, fun hedits => absurd rfl hedits, ?_⟩
      · rw [hheard, FormatVerdict.first_of_quiet hshares, List.map_map]
        rfl
      · rw [hheard]
        exact times

theorem stands_of_call (told : c.told? t₀ = some (.call (.host n) (.format document options))) :
    c.Stands n document options
        ((c.reviewer t₀).registry.formatters ((c.reviewer t₀).document document)) t₀ (t₀ + 1) ∧
      ∀ v, c.Settles t₀ (.host n) (.done (.formatted v)) → c.Consulted n document
        ((c.reviewer t₀).registry.formatters ((c.reviewer t₀).document document)) t₀ t₀ v := by
  have hopens := Registry.startFormat_opens (c.orderly t₀).calm (c.reviewer t₀).buffers (.host n)
    document options
  cases hopens with
  | raised text asked gone ended =>
      refine ⟨.gone (by rw [calls_of_told told, gone]), fun v hsettles => ?_⟩
      rw [Settles, reached_of_told told, ended] at hsettles
      cases List.mem_singleton.1 hsettles
  | asks plugins snapshot turns =>
      have hps : (c.reviewer t₀).registry.formatters ((c.reviewer t₀).document document) =
          plugins.filter (·.formats) := Registry.formatters_of_ok snapshot
      rw [hps]
      have htalk : (c.talk (.host n) t₀).tell (.host n) t₀
          (.call (.host n) (.format document options)) = {} := if_pos rfl
      exact stands_of_turns told (Nat.le_refl t₀) htalk turns rfl
        (fun k hk => nomatch hk) fun k hk => nomatch hk

/-- The formatter that was asked answers. -/
theorem Consulting.hears (h : c.Consulting n document options ps t₀ t p rest) {i : Nat} {a : Answer} :
    ∃ u, (c.talk (.host n) t).tell (.host n) t (.answered (.host n) i a) =
        ⟨none, c.consulted n t ++ [⟨p, u, t, a⟩]⟩ ∧
      ∀ k ∈ c.consulted n t ++ [⟨p, u, t, a⟩],
        t₀ ≤ k.asked ∧ k.asked < k.answered ∧ k.answered ≤ t := by
  obtain ⟨u, hsince, hpast, hopen⟩ := h.asked
  refine ⟨u, ?_, fun k hk => ?_⟩
  · simp only [Talk.tell, hopen, if_true]
    rfl
  · rcases List.mem_append.1 hk with hk | hk
    · obtain ⟨hasked, hlt, hanswered⟩ := h.times k hk
      exact ⟨hasked, hlt, Nat.le_of_lt hanswered⟩
    · obtain rfl := List.mem_singleton.1 hk
      exact ⟨hsince, hpast, Nat.le_refl t⟩

/-- Nothing was heard, and the formatter that was asked is still being asked. -/
theorem Consulting.stays (h : c.Consulting n document options ps t₀ t p rest)
    (consults : (c.reviewer (t + 1)).registry.Consults (.host n) document options p rest
      ((c.consulted n t).map fun k => (c.share document k).toVerdict))
    (talk : c.talk (.host n) (t + 1) = c.talk (.host n) t) :
    c.Consulting n document options ps t₀ (t + 1) p rest := by
  have hheard : c.consulted n (t + 1) = c.consulted n t := congrArg Talk.heard talk
  obtain ⟨u, hsince, hpast, hopen⟩ := h.asked
  refine ⟨?_, ⟨u, hsince, Nat.lt_succ_of_lt hpast, by rw [talk, hopen]⟩, ?_, ?_, ?_⟩
  · rw [hheard]
    exact consults
  · rw [hheard]
    exact h.plugins
  · rw [hheard]
    exact h.quiet
  · rw [hheard]
    intro k hk
    obtain ⟨hasked, hlt, hanswered⟩ := h.times k hk
    exact ⟨hasked, hlt, Nat.lt_succ_of_lt hanswered⟩

/-- Nothing is said to the registry, or some calls are called off; only those change. -/
theorem untold_registry {P : Registry → Prop} (untold : c.told? t = none)
    (proof : Reviewer.AbortProof P) (same : ∀ r r' : Registry, r'.calls = r.calls → P r → P r')
    (now : P (c.reviewer t).registry) : P (c.reviewer (t + 1)).registry := by
  by_cases habort : ∃ m, c.event t = .abort m
  · obtain ⟨m, habort⟩ := habort
    have hnext := Reviewer.abort_registry proof (c.orderly t).calm now m
    rw [← habort] at hnext
    exact hnext
  · refine same _ _ ?_ now
    rw [registry_of_told fun m hm => habort ⟨m, hm⟩, Reviewer.reached,
      show (c.reviewer t).conveyed (c.event t) = none from untold]

/-- A call of the registry that is over stays over until its number is used again. -/
theorem gone_succ (gone : (c.reviewer t).registry.calls.get? (.host n) = none)
    (once : ∀ request, c.told? t ≠ some (.call (.host n) request)) :
    (c.reviewer (t + 1)).registry.calls.get? (.host n) = none := by
  cases htold : c.told? t with
  | none =>
      refine untold_registry (P := fun r => r.calls.get? (.host n) = none) htold ?_ ?_ gone
      · exact fun r buffers key calm hgone => Registry.step_gone calm buffers nofun hgone
      · exact fun r r' hcalls hgone => by rw [hcalls, hgone]
  | some e =>
      have hold : ∀ request, e ≠ .call (.host n) request := by
        rintro request rfl
        exact once request htold
      rw [calls_of_told htold]
      exact Registry.step_gone (c.orderly t).calm _ hold gone

theorem gone_settles (gone : (c.reviewer t).registry.calls.get? (.host n) = none)
    (once : ∀ request, c.told? t ≠ some (.call (.host n) request))
    (outcome : Outcome Registry.Reply) : ¬ c.Settles t (.host n) outcome := by
  intro hsettles
  obtain ⟨e, htold, hended⟩ := told_of_settles hsettles
  rcases (Registry.step_ends (c.orderly t).calm _ hended).2 with hcall | ⟨request, rfl⟩
  · exact hcall gone
  · exact once request htold

theorem Stands.untold (h : c.Stands n document options ps t₀ t) (untold : c.told? t = none) :
    c.Stands n document options ps t₀ (t + 1) := by
  cases h with
  | consulting p rest consulting =>
      refine (untold_registry (P := fun r => r.Consults (.host n) document options p rest _ ∨
          r.calls.get? (.host n) = none) untold ?_ ?_ (.inl consulting.consults)).elim
        (fun hconsults => .consulting p rest (consulting.stays hconsults (talk_of_none untold))) .gone
      · rintro r buffers key calm (hconsults | hgone)
        · have hgoes : Registry.GoesOn buffers (.host n) document options p rest _ (.abort key)
              (r.step buffers (.abort key)) := Registry.step_goesOn calm hconsults nofun
          cases hgoes with
          | waits _ consults _ _ => exact .inl consults
          | turns i a event _ _ => cases event
          | wins i a event _ _ _ _ => cases event
          | stops _ _ gone _ => exact .inr gone
        · exact .inr (Registry.step_gone calm buffers nofun hgone)
      · rintro r r' hcalls (⟨call, hcall, hstage⟩ | hgone)
        · exact .inl ⟨call, by rw [hcalls, hcall], hstage⟩
        · exact .inr (by rw [hcalls, hgone])
  | gone gone =>
      exact .gone (gone_succ gone fun request htold => by rw [untold] at htold; cases htold)

theorem Stands.succ (h : c.Stands n document options ps t₀ t) (past : t₀ < t)
    (once : ∀ request, c.told? t ≠ some (.call (.host n) request)) :
    c.Stands n document options ps t₀ (t + 1) ∧
      ∀ v, c.Settles t (.host n) (.done (.formatted v)) → c.Consulted n document ps t₀ t v := by
  cases h with
  | gone gone =>
      exact ⟨.gone (gone_succ gone once), fun v hsettles => absurd hsettles (gone_settles gone once _)⟩
  | consulting p rest consulting =>
      cases htold : c.told? t with
      | none =>
          refine ⟨Stands.untold (.consulting p rest consulting) htold, fun v hsettles => ?_⟩
          obtain ⟨e, hsome, _⟩ := told_of_settles hsettles
          rw [htold] at hsome
          cases hsome
      | some e =>
          have hold : ∀ request, e ≠ .call (.host n) request := by
            rintro request rfl
            exact once request htold
          have hreached := reached_of_told htold
          have hcalls := calls_of_told htold
          have hgoes : Registry.GoesOn (c.reviewer t).buffers (.host n) document options p rest _ e _ :=
            Registry.step_goesOn (c.orderly t).calm consulting.consults hold
          cases hgoes with
          | waits unanswered consults asked open' =>
              obtain ⟨call, hcall, hstage⟩ := consults
              refine ⟨.consulting p rest (consulting.stays ⟨call, by rw [hcalls, hcall], hstage⟩ ?_),
                fun v hsettles => ?_⟩
              · rw [talk_of_told htold, Talk.tell_of_other _ hold unanswered, Talk.foldl_ask asked]
              · rw [Settles, hreached] at hsettles
                exact absurd hsettles (open' _)
          | turns i a event quiet turns =>
              subst event
              obtain ⟨u, htell, htimes⟩ := consulting.hears (i := i) (a := a)
              have hturns : Registry.Turns (.host n) document options
                  ((c.consulted n t ++ [(⟨p, u, t, a⟩ : Consultation)]).map fun k =>
                    (c.share document k).toVerdict)
                  ((c.reviewer t).registry.step (c.reviewer t).buffers (.answered (.host n) i a))
                  rest := by
                rw [List.map_append]
                exact turns
              refine stands_of_turns htold (Nat.le_of_lt past) htell hturns ?_ ?_ htimes
              · rw [List.map_append, List.append_assoc]
                exact consulting.plugins
              · intro k hk
                rcases List.mem_append.1 hk with hk | hk
                · exact consulting.quiet k hk
                · obtain rfl := List.mem_singleton.1 hk
                  exact quiet
          | wins i a event edits asked gone ended =>
              subst event
              obtain ⟨u, htell, htimes⟩ := consulting.hears (i := i) (a := a)
              have hheard : c.consulted n (t + 1) = c.consulted n t ++ [⟨p, u, t, a⟩] := by
                rw [consulted, talk_of_told htold, asked, htell]
                rfl
              refine ⟨.gone (by rw [hcalls, gone]), fun v hsettles => ?_⟩
              rw [Settles, hreached, ended] at hsettles
              cases List.mem_singleton.1 hsettles
              refine ⟨?_, ?_, fun hnone => absurd hnone edits,
                fun _ => ⟨⟨p, u, t, a⟩, ?_, rfl, rfl⟩, ?_⟩
              · rw [hheard, List.map_append]
                refine (FormatVerdict.first_append (fun w hw => ?_) edits).symm
                obtain ⟨k, hk, rfl⟩ := List.mem_map.1 hw
                exact consulting.quiet k hk
              · rw [hheard, List.map_append, ← consulting.plugins]
                exact (List.prefix_append_right_inj _).2 ⟨rest, rfl⟩
              · rw [hheard]
                exact List.getLast?_concat
              · rw [hheard]
                exact htimes
          | stops unanswered asked gone ended =>
              refine ⟨.gone (by rw [hcalls, gone]), fun v hsettles => ?_⟩
              rw [Settles, hreached, ended] at hsettles
              cases List.mem_singleton.1 hsettles

/-- The verdict of a format is that of the first formatter with edits, or else what all of them have
said, in the order of registration. -/
theorem Formats.consulted {v : FormatVerdict} (h : c.Formats n document options t₀ t v) :
    c.Consulted n document
      ((c.reviewer t₀).registry.formatters ((c.reviewer t₀).document document)) t₀ t v := by
  generalize hps : (c.reviewer t₀).registry.formatters ((c.reviewer t₀).document document) = ps
  have hstands : ∀ u, t₀ ≤ u → u ≤ t → c.Stands n document options ps t₀ (u + 1) ∧
      ∀ v, c.Settles u (.host n) (.done (.formatted v)) → c.Consulted n document ps t₀ u v := by
    intro u hsince
    induction hsince with
    | refl => exact fun _ => hps ▸ stands_of_call h.began
    | @step u hsince ih =>
        intro hle
        exact (ih (Nat.le_of_succ_le hle)).1.succ (Nat.lt_succ_of_le hsince)
          (h.once (u + 1) (Nat.lt_succ_of_le hsince) hle)
  exact (hstands t h.since (Nat.le_refl t)).2 v h.ended

end Course

end Shellwright.Review
