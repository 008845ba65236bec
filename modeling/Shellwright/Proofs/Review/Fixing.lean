import Shellwright.Proofs.Review.Consulting
import Shellwright.Proofs.Review.Faring
/-!
# What becomes of a format

A call that formats a document has a reply only by the verdict of the formatters, and with the event
that brings the verdict it is settled what becomes of the documents.
-/

namespace Shellwright.Review

/-- What is asked of a review to have a document formatted. -/
def FormatPurpose.request (document : String) (token : Option Token) : FormatPurpose → Request
  | .edits => .format document token
  | .fix editable => .fixAll document token editable

end Shellwright.Review

namespace Shellwright.Reviewer

open Review

/-- A document that is no shell script is not fixed. -/
def Takes (r : Reviewer) (document : String) (purpose : FormatPurpose) : Prop :=
  purpose ≠ .edits → (r.document document).isShell = true

/-- The formatters are asked for call `n`, or event `e` has them asked. -/
inductive Asks (r : Reviewer) (n : Nat) (document : String) (purpose : FormatPurpose) (e : Event) :
    Prop
  | begins (token : Option Token) (event : e = .call n (purpose.request document token))
      (takes : r.Takes document purpose)
  | waits (c : Call) (call : r.calls.get? n = some c) (stage : c.stage = .formatting document purpose)
      (other : ¬ e.Begins n)

variable {r r₁ r' r'' : Reviewer} {n : Nat} {document : String} {purpose : FormatPurpose} {e : Event}
  {v : FormatVerdict} {token : Option Token}

theorem step_request (takes : r.Takes document purpose) :
    r.step (.call n (purpose.request document token)) =
      (r.setCall n ⟨.formatting document purpose, false⟩).tellRegistry
        (.call (.host n) (.format document ⟨token, r.timeout⟩)) := by
  cases purpose with
  | edits => rfl
  | fix editable => exact step_fixAll (takes nofun)

theorem conveyed_request (takes : r.Takes document purpose) :
    r.conveyed (.call n (purpose.request document token)) =
      some (.call (.host n) (.format document ⟨token, r.timeout⟩)) := by
  cases purpose with
  | edits => rfl
  | fix editable => exact if_pos (takes nofun)

/-! ## The edits of a verdict -/

theorem document_of_buffers (h : r₁.buffers = r.buffers) (name : String) :
    r₁.document name = r.document name := by
  rw [Reviewer.document, h]
  rfl

theorem applyEdits_of_buffers (h : r₁.buffers = r.buffers) (document : String)
    (editable : List String) (edits : List TextEdit) :
    (r₁.applyEdits document editable edits).2 = (r.applyEdits document editable edits).2 ∧
      (r₁.applyEdits document editable edits).1.buffers =
        (r.applyEdits document editable edits).1.buffers := by
  unfold applyEdits
  simp only [document_of_buffers h]
  split
  · exact ⟨rfl, h⟩
  · rw [h]
    exact ⟨rfl, rfl⟩

theorem Decides.of_same (h : Decides r₁ n document purpose v r') (buffers : r₁.buffers = r.buffers)
    (ends : r₁.endsOf n = r.endsOf n) : Decides r n document purpose v r' := by
  have haccepts : r₁.accepts document v purpose = r.accepts document v purpose := by
    cases purpose with
    | edits => rfl
    | fix editable => exact (applyEdits_of_buffers buffers document editable v.edits).1
  have hedited : r₁.edited document v purpose = r.edited document v purpose := by
    cases purpose with
    | edits => exact buffers
    | fix editable =>
        simp only [edited, (applyEdits_of_buffers buffers document editable v.edits).2, buffers]
  refine ⟨h.buffers.trans hedited, ?_⟩
  rw [← haccepts]
  exact h.reply.imp (fun hended => hended.after ends) fun hwaits => ⟨hwaits.1, hwaits.2.trans ends⟩

theorem Decides.hums (h : Decides r n document purpose v r') (hums : r'.Hums r'') :
    Decides r n document purpose v r'' := by
  refine ⟨hums.buffers.trans h.buffers, h.reply.imp (fun hended => hended.hums hums) ?_⟩
  rw [hums.calls, hums.ends n]
  exact id

/-! ## The verdict -/

/-- The registry ends the question to the formatters while the call waits for it. -/
theorem asks_settles (calm : r.registry.outbox = []) (asks : r.Asks n document purpose e)
    {outcome : Outcome Registry.Reply} (settles : (.host n, outcome) ∈ (r.reached e).finishes) :
    ∃ (r₁ : Reviewer) (c : Call), (r₁.completeCall n outcome).Hums (r.step e) ∧
      r₁.buffers = r.buffers ∧ r₁.endsOf n = r.endsOf n ∧ r₁.calls.get? n = some c ∧
      c.stage = .formatting document purpose := by
  cases asks with
  | begins token event takes =>
      subst event
      rw [reached, conveyed_request takes] at settles
      obtain ⟨r₁, hbefore, hafter⟩ :=
        tellRegistry_settles (r := r.setCall n ⟨.formatting document purpose, false⟩) calm settles
      rw [← step_request takes] at hafter
      refine ⟨r₁, ⟨.formatting document purpose, false⟩, hafter, hbefore.buffers, hbefore.ends n, ?_,
        rfl⟩
      rw [hbefore.calls]
      exact Keyed.get?_put_self _ _ _
  | waits c call stage other =>
      obtain ⟨r₁, hafter, hbuffers, hends, hcall⟩ := step_settles calm settles
      exact ⟨r₁, c, hafter, hbuffers, hends, (hcall other).trans call, stage⟩

theorem step_decides (calm : r.registry.outbox = []) (asks : r.Asks n document purpose e)
    (settles : (.host n, .done (.formatted v)) ∈ (r.reached e).finishes) :
    Decides r n document purpose v (r.step e) := by
  obtain ⟨r₁, c, hafter, hbuffers, hends, hcall, hstage⟩ := asks_settles calm asks settles
  have hcomplete : r₁.completeCall n (.done (.formatted v)) =
      r₁.completeFormat n document purpose v := by
    unfold completeCall
    rw [hcall, Option.map_some, hstage]
  rw [hcomplete] at hafter
  exact ((completeFormat_decides r₁ n document purpose v).of_same hbuffers hends).hums hafter

/-- Without a verdict the call waits on, or there is no reply to it. -/
theorem step_undecided (calm : r.registry.outbox = []) (asks : r.Asks n document purpose e)
    (undecided : ∀ v, (.host n, .done (.formatted v)) ∉ (r.reached e).finishes) :
    (∃ c, (r.step e).calls.get? n = some c ∧ c.stage = .formatting document purpose ∧
      (r.step e).endsOf n = r.endsOf n) ∨
    ∃ outcome, r.Ended n outcome (r.step e) ∧ ∀ reply, outcome ≠ .done reply := by
  by_cases hsettles : ∃ outcome, (.host n, outcome) ∈ (r.reached e).finishes
  · obtain ⟨outcome, hsettles⟩ := hsettles
    obtain ⟨r₁, c, hafter, _, hends, hcall, hstage⟩ := asks_settles calm asks hsettles
    rcases completeCall_formatting hcall hstage outcome with ⟨v, rfl, _⟩ | ⟨o, hnot, hfinish⟩
    · exact absurd hsettles (undecided v)
    · rw [hfinish] at hafter
      exact .inr ⟨o, ((finish_ended r₁ n o).after hends).hums hafter, hnot⟩
  · have hopen : ∀ outcome, (.host n, outcome) ∉ (r.reached e).finishes :=
      fun outcome h => hsettles ⟨outcome, h⟩
    cases asks with
    | begins token event takes =>
        subst event
        rw [reached, conveyed_request takes] at hopen
        obtain ⟨hcall, hends⟩ :=
          tellRegistry_spares (r.setCall n ⟨.formatting document purpose, false⟩) _ hopen
        rw [step_request takes]
        exact .inl ⟨_, hcall.trans (Keyed.get?_put_self _ _ _), rfl, hends⟩
    | waits c call stage other =>
        have hformats : c.stage.Formats := stage ▸ .asking document purpose
        cases step_fares calm call hformats other hopen with
        | rests c' call' stage' ends => exact .inl ⟨c', call', stage'.trans stage, ends⟩
        | ends outcome ended replies =>
            refine .inr ⟨outcome, ended, fun reply hdone => ?_⟩
            have hreplies := replies reply hdone
            rw [stage] at hreplies
            exact hreplies

/-- Without edits the documents stay as they are, whoever waits for the verdict. -/
theorem step_buffers_of_quiet (calm : r.registry.outbox = []) (quiet : v.edits = [])
    (settles : (.host n, .done (.formatted v)) ∈ (r.reached e).finishes) :
    (r.step e).buffers = r.buffers := by
  obtain ⟨r₁, hafter, hbuffers, _, _⟩ := step_settles calm settles
  rw [hafter.buffers, ← hbuffers]
  unfold completeCall
  split
  · rename_i hdone
    cases hdone
    rw [(completeFormat_decides r₁ n _ _ v).buffers, edited_of_quiet quiet]
  · rfl
  · rename_i hnot _
    exact (hnot v rfl).elim
  · rfl

end Shellwright.Reviewer

namespace Shellwright.Review.Course

variable (c : Course)

/-- Event `t₀` has a document formatted for call `n`. -/
structure Starts (n t₀ : Nat) (document : String) (token : Option Token) (purpose : FormatPurpose) :
    Prop where
  event : c.event t₀ = .call n (purpose.request document token)
  takes : (c.reviewer t₀).Takes document purpose

/-- Call `n` ends with event `t`. -/
def Ends (t n : Nat) (outcome : Outcome Reply) : Prop :=
  outcome ∈ ((c.reviewer t).step (c.event t)).endsOf n

/-- The number of a call that begins with event `t₀` is not used again up to event `t`. -/
def Single (n t₀ t : Nat) : Prop :=
  ∀ u, t₀ < u → u ≤ t → ¬ (c.event u).Begins n

/-- The options of a call that begins with event `t₀`. -/
def optionsAt (t₀ : Nat) (token : Option Token) : CallOptions :=
  ⟨token, (c.reviewer t₀).timeout⟩

/-- What has become of a format before event `t`. -/
inductive Fate (n : Nat) (document : String) (options : CallOptions) (purpose : FormatPurpose)
    (t₀ t : Nat) : Prop
  | waits (call : Call) (call_eq : (c.reviewer t).calls.get? n = some call)
      (stage : call.stage = .formatting document purpose)
  /-- The verdict is known, and so is the reply. -/
  | decided (u : Nat) (v : FormatVerdict) (past : u < t)
      (formats : c.Formats n document options t₀ u v)
      (gone : (c.reviewer t).registry.calls.get? (.host n) = none) (call : Call)
      (call_eq : (c.reviewer t).calls.get? n = some call)
      (replies : call.stage.Replies (purpose.reply v ((c.reviewer u).accepts document v purpose)))
  | settled (u : Nat) (outcome : Outcome Reply) (since : t₀ ≤ u) (past : u < t)
      (ended : c.Ends u n outcome) (gone : (c.reviewer t).calls.get? n = none)

/-- The reply to a format follows from a verdict of the formatters. -/
def Founded (n : Nat) (document : String) (options : CallOptions) (purpose : FormatPurpose)
    (t₀ t : Nat) (reply : Reply) : Prop :=
  ∃ u v, u ≤ t ∧ c.Formats n document options t₀ u v ∧
    reply = purpose.reply v ((c.reviewer u).accepts document v purpose)

variable {c} {n t t₀ : Nat} {document : String} {token : Option Token} {options : CallOptions}
  {purpose : FormatPurpose} {v : FormatVerdict} {reply : Reply}

theorem Single.mono (h : c.Single n t₀ t) {u : Nat} (le : u ≤ t) : c.Single n t₀ u :=
  fun w hsince hle => h w hsince (Nat.le_trans hle le)

theorem endsOf_eq_nil (t : Nat) : (c.reviewer t).endsOf n = [] := by
  cases t <;> rfl

theorem not_ends_of_same (h : ((c.reviewer t).step (c.event t)).endsOf n = (c.reviewer t).endsOf n)
    (outcome : Outcome Reply) : ¬ c.Ends t n outcome := by
  rw [Ends, h, endsOf_eq_nil]
  nofun

theorem not_ends_before (h : ∀ u < t, ((c.reviewer u).step (c.event u)).endsOf n = []) :
    ∀ u, t₀ ≤ u → u < t → ∀ outcome, ¬ c.Ends u n outcome := by
  intro u _ hlt
  exact not_ends_of_same ((h u hlt).trans (endsOf_eq_nil u).symm)

theorem ends_iff_of_ended {outcome : Outcome Reply}
    (h : (c.reviewer t).Ended n outcome ((c.reviewer t).step (c.event t))) (o : Outcome Reply) :
    c.Ends t n o ↔ o = outcome := by
  rw [Ends, h.ends, endsOf_eq_nil, List.nil_append, List.mem_singleton]

/-- What the registry hears about a number begins a call of that number. -/
theorem begins_of_told {request : Registry.Request}
    (told : c.told? t = some (.call (.host n) request)) : (c.event t).Begins n := by
  rw [told?] at told
  cases hevent : c.event t with
  | registry event =>
      rw [hevent] at told
      cases told
      rfl
  | call m asked =>
      rw [hevent] at told
      cases asked with
      | format document token =>
          cases told
          rfl
      | fixAll document token editable =>
          cases hshell : ((c.reviewer t).document document).isShell with
          | true =>
              simp only [Reviewer.conveyed, hshell, if_true] at told
              cases told
              rfl
          | false => simp [Reviewer.conveyed, hshell] at told
      | _ => cases told
  | begin k =>
      rw [hevent] at told
      unfold Reviewer.conveyed at told
      simp only at told
      split at told
      · split at told <;> cases told
      · cases told
  | _ =>
      rw [hevent] at told
      cases told

theorem Single.untold (h : c.Single n t₀ t) {u : Nat} (since : t₀ < u) (le : u ≤ t)
    (request : Registry.Request) : c.told? u ≠ some (.call (.host n) request) :=
  fun told => h u since le (begins_of_told told)

theorem Starts.told (h : c.Starts n t₀ document token purpose) :
    c.told? t₀ = some (.call (.host n) (.format document (c.optionsAt t₀ token))) := by
  rw [told?, h.event]
  exact Reviewer.conveyed_request h.takes

theorem Starts.formats (h : c.Starts n t₀ document token purpose) (since : t₀ ≤ t)
    (single : c.Single n t₀ t) (settles : c.Settles t (.host n) (.done (.formatted v))) :
    c.Formats n document (c.optionsAt t₀ token) t₀ t v where
  began := h.told
  since := since
  once _ hsince hle := single.untold hsince hle
  ended := settles

theorem gone_of_settles {key : CallKey} {outcome : Outcome Registry.Reply}
    (h : c.Settles t key outcome) : (c.reviewer (t + 1)).registry.calls.get? key = none := by
  obtain ⟨e, htold, hended⟩ := told_of_settles h
  rw [calls_of_told htold]
  exact (Registry.step_ends (c.orderly t).calm _ hended).1

/-! ## One event -/

/-- The formatters are asked, and event `t` leaves it at that or brings the verdict. -/
theorem fate_of_asks (starts : c.Starts n t₀ document token purpose) (since : t₀ ≤ t)
    (single : c.Single n t₀ t)
    (asks : (c.reviewer t).Asks n document purpose (c.event t)) :
    c.Fate n document (c.optionsAt t₀ token) purpose t₀ (t + 1) ∧
      ∀ reply, c.Ends t n (.done reply) →
        c.Founded n document (c.optionsAt t₀ token) purpose t₀ t reply := by
  have hcalm := (c.orderly t).calm
  by_cases hsettles : ∃ v, c.Settles t (.host n) (.done (.formatted v))
  · obtain ⟨v, hsettles⟩ := hsettles
    have hformats := starts.formats since single hsettles
    rcases (Reviewer.step_decides hcalm asks hsettles).reply with
      hended | ⟨⟨call, hcall, hreply⟩, hends⟩
    · refine ⟨.settled t _ since (Nat.lt_succ_self t) ((ends_iff_of_ended hended _).2 rfl) hended.gone,
        fun reply hends => ⟨t, v, Nat.le_refl t, hformats, ?_⟩⟩
      exact Outcome.done.inj ((ends_iff_of_ended hended _).1 hends)
    · exact ⟨.decided t v (Nat.lt_succ_self t) hformats (gone_of_settles hsettles) call hcall hreply,
        fun reply hended => absurd hended (not_ends_of_same hends _)⟩
  · rcases Reviewer.step_undecided hcalm asks fun v h => hsettles ⟨v, h⟩ with
      ⟨call, hcall, hstage, hends⟩ | ⟨outcome, hended, hnot⟩
    · exact ⟨.waits call hcall hstage, fun reply hdone => absurd hdone (not_ends_of_same hends _)⟩
    · refine ⟨.settled t _ since (Nat.lt_succ_self t) ((ends_iff_of_ended hended _).2 rfl) hended.gone,
        fun reply hdone => ?_⟩
      exact absurd ((ends_iff_of_ended hended _).1 hdone).symm (hnot reply)

theorem Fate.succ (h : c.Fate n document (c.optionsAt t₀ token) purpose t₀ t)
    (starts : c.Starts n t₀ document token purpose) (past : t₀ < t) (single : c.Single n t₀ t) :
    c.Fate n document (c.optionsAt t₀ token) purpose t₀ (t + 1) ∧
      ∀ reply, c.Ends t n (.done reply) →
        c.Founded n document (c.optionsAt t₀ token) purpose t₀ t reply := by
  have hcalm := (c.orderly t).calm
  have hother := single t past (Nat.le_refl t)
  cases h with
  | waits call call_eq stage =>
      exact fate_of_asks starts (Nat.le_of_lt past) single (.waits call call_eq stage hother)
  | decided u v before formats gone call call_eq replies =>
      have hquiet := gone_settles gone (single.untold past (Nat.le_refl t))
      cases Reviewer.step_fares hcalm call_eq (.replies _ _ replies) hother hquiet with
      | rests call' call_eq' stage ends =>
          refine ⟨.decided u v (Nat.lt_succ_of_lt before) formats
            (gone_succ gone (single.untold past (Nat.le_refl t))) call' call_eq' (stage ▸ replies),
            fun reply hdone => absurd hdone (not_ends_of_same ends _)⟩
      | ends outcome ended allowed =>
          refine ⟨.settled t outcome (Nat.le_of_lt past) (Nat.lt_succ_self t)
            ((ends_iff_of_ended ended _).2 rfl) ended.gone, fun reply hdone => ?_⟩
          have hreply := allowed reply ((ends_iff_of_ended ended _).1 hdone).symm
          exact ⟨u, v, Nat.le_of_lt before, formats, hreply.unique replies⟩
  | settled u outcome since before ended gone =>
      obtain ⟨hgone, hends⟩ := Reviewer.step_absent hcalm gone hother
      exact ⟨.settled u outcome since (Nat.lt_succ_of_lt before) ended hgone,
        fun reply hdone => absurd hdone (not_ends_of_same hends _)⟩

/-! ## The course of a review -/

theorem Starts.fate (h : c.Starts n t₀ document token purpose) (single : c.Single n t₀ t) {u : Nat}
    (since : t₀ ≤ u) (le : u ≤ t) :
    c.Fate n document (c.optionsAt t₀ token) purpose t₀ (u + 1) ∧
      ∀ reply, c.Ends u n (.done reply) →
        c.Founded n document (c.optionsAt t₀ token) purpose t₀ u reply := by
  induction since with
  | refl => exact fate_of_asks h (Nat.le_refl t₀) (single.mono le) (.begins token h.event h.takes)
  | @step u since ih =>
      exact (ih (Nat.le_of_succ_le le)).1.succ h (Nat.lt_succ_of_le since) (single.mono le)

/-- A call that formats has only replies that follow from a verdict of the formatters. -/
theorem Starts.founded (h : c.Starts n t₀ document token purpose) (since : t₀ ≤ t)
    (single : c.Single n t₀ t) (ended : c.Ends t n (.done reply)) :
    c.Founded n document (c.optionsAt t₀ token) purpose t₀ t reply :=
  (h.fate single since (Nat.le_refl t)).2 reply ended

/-- The verdict decides a call that has not ended before. -/
theorem Starts.decides (h : c.Starts n t₀ document token purpose) (single : c.Single n t₀ t)
    (open' : ∀ u, t₀ ≤ u → u < t → ∀ outcome, ¬ c.Ends u n outcome)
    (formats : c.Formats n document options t₀ t v) :
    Reviewer.Decides (c.reviewer t) n document purpose v ((c.reviewer t).step (c.event t)) := by
  refine Reviewer.step_decides (c.orderly t).calm ?_ formats.ended
  rcases Nat.eq_or_lt_of_le formats.since with rfl | hpast
  · exact .begins token h.event h.takes
  · obtain ⟨u, rfl⟩ : ∃ u, t = u + 1 := ⟨t - 1, by omega⟩
    have hother := single (u + 1) hpast (Nat.le_refl _)
    cases (h.fate single (Nat.le_of_lt_succ hpast) (Nat.le_succ u)).1 with
    | waits call call_eq stage => exact .waits call call_eq stage hother
    | decided w v' past formats' gone call call_eq replies =>
        exact absurd formats.ended (gone_settles gone (single.untold hpast (Nat.le_refl _)) _)
    | settled w outcome since past ended gone => exact absurd ended (open' w since past outcome)

theorem Formats.gone {u : Nat} {v' : FormatVerdict} (h : c.Formats n document options t₀ t v)
    (h' : c.Formats n document options t₀ u v') (hlt : u < t) :
    (c.reviewer t).registry.calls.get? (.host n) = none := by
  suffices hgone : ∀ w, u + 1 ≤ w → w ≤ t → (c.reviewer w).registry.calls.get? (.host n) = none from
    hgone t hlt (Nat.le_refl t)
  intro w hsince
  induction hsince with
  | refl => exact fun _ => gone_of_settles h'.ended
  | @step w hsince ih =>
      intro hle
      have hpast : t₀ < w := Nat.lt_of_le_of_lt h'.since hsince
      exact gone_succ (ih (Nat.le_of_succ_le hle)) (h.once w hpast (Nat.le_of_succ_le hle))

/-- A format has one verdict. -/
theorem Formats.unique {u : Nat} {v' : FormatVerdict} (h : c.Formats n document options t₀ t v)
    (h' : c.Formats n document options t₀ u v') : u = t ∧ v' = v := by
  have hnot {t u : Nat} {v v' : FormatVerdict} (h : c.Formats n document options t₀ t v)
      (h' : c.Formats n document options t₀ u v') : ¬ u < t := by
    intro hlt
    have hpast : t₀ < t := Nat.lt_of_le_of_lt h'.since hlt
    exact gone_settles (h.gone h' hlt) (h.once t hpast (Nat.le_refl t)) _ h.ended
  obtain rfl : u = t := Nat.le_antisymm (Nat.not_lt.1 (hnot h' h)) (Nat.not_lt.1 (hnot h h'))
  obtain ⟨e, htold, hended⟩ := told_of_settles h.ended
  have hended' := h'.ended
  rw [Settles, reached_of_told htold] at hended'
  rcases Registry.step_finishes (c.orderly u).calm (c.reviewer u).buffers e with
    hnone | ⟨key, outcome, hone⟩
  · rw [hnone] at hended
    cases hended
  · rw [hone] at hended hended'
    cases List.mem_singleton.1 hended
    cases List.mem_singleton.1 hended'
    exact ⟨rfl, rfl⟩

/-- The reply to a call is the one that its verdict decides. -/
theorem Starts.reply_eq {u : Nat} (h : c.Starts n t₀ document token purpose)
    (formats : c.Formats n document options t₀ t v) (since : t₀ ≤ u) (single : c.Single n t₀ u)
    (ended : c.Ends u n (.done reply)) :
    reply = purpose.reply v ((c.reviewer t).accepts document v purpose) := by
  have htold := formats.began
  rw [h.told] at htold
  cases htold
  obtain ⟨w, v', _, formats', hreply⟩ := h.founded since single ended
  obtain ⟨rfl, rfl⟩ := formats.unique formats'
  exact hreply

/-! ## Courses that begin with a fix -/

/-- A formatter that the host supplies. -/
def formatter (id : Nat) (name : String) : Plugin :=
  ⟨id, name, name, "1.0", true, supportAll, .external id⟩

/-- The document of a shell script. -/
def script (text : String) : TextDocument :=
  ⟨"file:///a.sh", text, shellLanguage, "a.sh", 1⟩

/-- The only document, `"d"`, is fixed with these formatters; what happens then is listed. -/
def fixOf (formatters : List Plugin) (text : String) (events : List Event) : Course where
  registry := { plugins := formatters.map fun p => (p.name, p), active := formatters.map (·.name) }
  buffers := [("d", script text)]
  sink := {}
  debounce := none
  timeout := none
  onChange := false
  event t := (.call 0 (.fixAll "d" none ["d"]) :: events).getD t (.gathered 0)

theorem isShell_script (text : String) : (script text).isShell = true := by
  change FileKind.isShell "a.sh" shellLanguage shellExtensions = true
  decide

variable {formatters : List Plugin} {text : String} {events : List Event}

theorem fixOf_starts : (fixOf formatters text events).Starts 0 0 "d" none (.fix ["d"]) where
  event := rfl
  takes _ := isShell_script text

theorem fixOf_single (h : ∀ e ∈ events, ¬ e.Begins 0) (t : Nat) :
    (fixOf formatters text events).Single 0 0 t := by
  intro u hpast _
  obtain ⟨i, rfl⟩ : ∃ i, u = i + 1 := ⟨u - 1, by omega⟩
  change ¬ (events.getD i (.gathered 0)).Begins 0
  rw [List.getD_eq_getElem?_getD]
  cases hevent : events[i]? with
  | none => exact id
  | some e => exact h e (List.mem_of_getElem? hevent)

end Shellwright.Review.Course
