import Shellwright.Proofs.Bench.Outlook
import Shellwright.Proofs.Diagnostic.Edits
import Shellwright.Proofs.Output.Verdicts
import Shellwright.Proofs.Workspace.Agenda
/-!
# A bench that keeps to an agenda

A formatter that is asked runs its tool once, and its answer is made of what the run has come to. A format
asks for one run at most, so that its verdict is that of the run, or one without edits when there is none.
-/

namespace Shellwright

/-! ## What a run brings -/

/-- The text that a run of the formatter puts in place of another: the run has succeeded with a different
text, and what it wrote on standard error can be read. -/
def Execution.rewrites? (e : Execution) (text : String) : Option String :=
  if e.ending = .exited 0 ∧ (Output.firstSyntaxError e.stderr).isOk = true ∧ e.stdout ≠ text then
    some e.stdout
  else none

/-- The first syntax error on standard error can be read, if there is one. -/
def Execution.IsLegible (e : Execution) : Prop :=
  ∀ l ∈ (Output.errorLines e.stderr).head?, l.IsLegible

theorem Execution.isLegible_iff (e : Execution) :
    e.IsLegible ↔ (Output.firstSyntaxError e.stderr).isOk = true := by
  rw [IsLegible, ← Output.firstSyntaxError_ok_iff]
  cases Output.firstSyntaxError e.stderr with
  | ok found => exact iff_of_true ⟨found, rfl⟩ rfl
  | error error => exact iff_of_false (by simp) (by simp [Except.isOk, Except.toBool])

theorem Execution.rewrites?_eq_some {e : Execution} {text new : String} :
    e.rewrites? text = some new ↔ e.ending = .exited 0 ∧ e.IsLegible ∧ e.stdout ≠ text ∧ new = e.stdout := by
  rw [rewrites?, isLegible_iff]
  split
  · rename_i h
    simp [h, eq_comm]
  · rename_i h
    exact iff_of_false (by simp) fun ⟨hended, hlegible, hdiffers, _⟩ => h ⟨hended, hlegible, hdiffers⟩

/-- The verdict has just the edit that puts the new text in place of the old one, when there is a new one. -/
structure FormatVerdict.Offers (v : FormatVerdict) (text : String) (new? : Option String) : Prop where
  edits : v.edits = new?.toList.map (TextEdit.mk (Span.whole text))
  conclusive : v.edits ≠ [] → v.inconclusive = false

/-- What is written on standard error is read even when the formatter has succeeded. -/
theorem Output.exists_formatterReport {e : Execution} (ended : e.ending = .exited 0)
    (legible : (firstSyntaxError e.stderr).isOk = true) : ∃ r, formatterReport .format e = .ok r := by
  have hsucceeded : e.succeeded = true := (succeeded_iff ended).2 rfl
  cases hfirst : firstSyntaxError e.stderr with
  | error error => simp [hfirst, Except.isOk, Except.toBool] at legible
  | ok found =>
      refine ⟨{ formatted := some e.stdout, command := some e.command }, ?_⟩
      simp [formatterReport, ended, hfirst, hsucceeded, parsedReport, bind, Except.bind, pure, Except.pure]

namespace FormatVerdict

variable {v : FormatVerdict} {text : String}

theorem offers_none (h : v.edits = []) : v.Offers text none :=
  ⟨h, fun hedits => absurd h hedits⟩

theorem offers_ofReport {e : Execution} {r : Report} (h : Output.formatterReport .format e = .ok r)
    (source : String) (reports : Bool) (text : String) :
    (ofReport source reports r text).Offers text (e.rewrites? text) := by
  have houtcome := Output.formatterReport_outcome h
  by_cases hended : e.ending = .exited 0
  · have hlegible : (Output.firstSyntaxError e.stderr).isOk = true := by
      rw [Output.formatterReport, hended] at h
      obtain ⟨found, hfound, _⟩ := Output.bind_eq_ok_iff.1 h
      rw [hfound]
      rfl
    have hformatted : r.formatted = some e.stdout := houtcome.formatted_iff.2 ⟨rfl, hended, rfl⟩
    have hclear : r.isBlocking = false := by
      cases houtcome with
      | formatted => rfl
      | unrun ending => simp [ending] at hended
      | misparsed ending nonzero => simp [ending, nonzero] at hended
      | misformatted _ _ check => cases check
      | clean _ check => cases check
      | failed ending nonzero => simp [ending, nonzero] at hended
    rw [ofReport_of_clear hclear hformatted]
    refine ⟨?_, fun _ => rfl⟩
    by_cases hsame : e.stdout = text
    · have hedits : r.edits text = [] := (r.edits_eq_nil hclear hformatted).2 hsame
      simp [Execution.rewrites?, hsame, hedits]
    · have hedits : r.edits text = [⟨Span.whole text, e.stdout⟩] := r.edits_of_ne hclear hformatted hsame
      simp [Execution.rewrites?, hsame, hedits, hended, hlegible]
  · have hnone : e.rewrites? text = none := if_neg fun h => hended h.1
    have hunformatted : r.formatted = none := by
      cases hformatted : r.formatted with
      | none => rfl
      | some formatted => exact absurd (houtcome.formatted_iff.1 hformatted).2.1 hended
    rw [hnone]
    refine offers_none ?_
    unfold ofReport
    dsimp only
    split
    · rfl
    · split
      · rfl
      · rw [hunformatted]
        rfl

end FormatVerdict

/-- The answer of a formatter offers what its run brings. -/
theorem Plugin.offers_answerOf (p q : Plugin) (tool : Tool.Formatter) (reports : Bool) {document : String}
    {options : CallOptions} (text : String) (e : Execution) (d : TextDocument) :
    (Registry.formatShare q d
      (p.answerOf (.formatter tool) reports (.format document options) text e).1).Offers text
        (e.rewrites? text) := by
  simp only [Plugin.answerOf]
  split
  · rename_i error hreport
    -- Nothing can be read from the run, whatever it has come to.
    have hnone : e.rewrites? text = none := by
      refine if_neg fun h => ?_
      obtain ⟨r, hr⟩ := Output.exists_formatterReport h.1 h.2.1
      cases hr.symm.trans hreport
    rw [hnone]
    exact FormatVerdict.offers_none rfl
  · rename_i r hreport
    exact FormatVerdict.offers_ofReport hreport _ _ text

namespace Bench

/-! ## Activities -/

/-- The formatter was asked for the format with this number. -/
def Activity.isFor (n : Nat) (a : Activity) : Bool :=
  match a.key, a.question with
  | .host m, .format .. => m == n
  | _, _ => false

theorem Activity.eq_of_isFor {n : Nat} {a : Activity} (h : a.isFor n = true) :
    a.key = .host n ∧ ∃ document options, a.question = .format document options := by
  unfold isFor at h
  split at h
  · rename_i m document options hkey hquestion
    rw [beq_iff_eq] at h
    exact ⟨h ▸ hkey, document, options, hquestion⟩
  · cases h

/-- The new text that the activity of a formatter has brought. -/
def Activity.rewrites? (a : Activity) : Option String :=
  a.execution.bind (·.rewrites? a.text)

/-- The calls of a host, and which of them it knows to have ended. -/
structure Host where
  plan : Nat → Option Errand
  buffers : Buffers
  known : List Finish

variable {host : Host}

/-- What is known of an activity when the calls are made as planned. -/
structure Activity.IsSound (host : Host) (a : Activity) : Prop where
  formats : ∀ n document, a.key = .host n → host.plan n = some (.format document) →
    ∃ options, a.question = .format document options
  planned : ∀ document options, a.question = .format document options →
    ∃ n, a.key = .host n ∧ host.plan n = some (.format document)
  formatter : ∀ document options, a.question = .format document options → a.plugin.IsFormatter
  text : ∀ document options, a.question = .format document options → a.text = (host.buffers.find document).text
  answer : ∀ document options, a.question = .format document options → a.answer = .formatted {}
  fresh : a.ended = false → a.execution = none

theorem Activity.IsSound.isFor {a : Activity} (h : a.IsSound host) {n : Nat} {document : String}
    (key : a.key = .host n) (errand : host.plan n = some (.format document)) : a.isFor n = true := by
  obtain ⟨options, hquestion⟩ := h.formats n document key errand
  simp [Activity.isFor, key, hquestion]

/-! ## The outlook -/

namespace Outlook

variable {o o' : Outlook} {es es' : List Workspace.Effect} {n c c' : Nat} {v : FormatVerdict}

/-- How often a formatter has been asked for a format or may still be. -/
def tally (o : Outlook) (es : List Workspace.Effect) (n : Nat) : Nat :=
  o.upcoming.countP (fun e => e.isFormat n) + es.countP (Workspace.Effect.isFormat n) +
    o.activities.countP (Activity.isFor n)

/-- What a format may have ended with: what the run has brought, or no edits when there will be no run. -/
inductive Settles (o : Outlook) (es : List Workspace.Effect) (n : Nat) (v : FormatVerdict) : Prop
  | run {a : Activity} (mem : a ∈ o.activities) (isFor : a.isFor n = true) (ended : a.ended = true)
      (offers : v.Offers a.text a.rewrites?)
  | unasked (edits : v.edits = []) (called : n < o.calls) (never : o.tally es n = 0)

/-- The agenda of a bench with effects that are still to be seen to. -/
def agenda (host : Host) (o : Outlook) (es : List Workspace.Effect) :
    Agenda where
  errand := host.plan
  buffers := host.buffers
  verdict := o.Settles es
  asks _ := True

/-- The bench is where the plan may have brought it after `c` calls, and `es` are still to be seen to. -/
structure KeepsTo (host : Host) (c : Nat) (o : Outlook)
    (es : List Workspace.Effect) : Prop where
  counted : o.calls = c
  workspace : o.workspace.KeepsTo (o.agenda host es)
  calm : o.workspace.outbox = []
  upcoming : ∀ e ∈ o.upcoming, (o.agenda host es).ExpectsWork e
  answered : ∀ n i answer, Bench.registryEvent (.answered (.host n) i answer) ∈ o.upcoming →
    ∀ document, host.plan n = some (.format document) → ∃ a ∈ o.activities, a.isFor n = true ∧ a.ended = true ∧
      ∀ p, (Registry.formatShare p (host.buffers.find document) answer).Offers a.text a.rewrites?
  effects : ∀ e ∈ es, (o.agenda host es).AllowsWork e
  activities : ∀ a ∈ o.activities, a.IsSound host
  once : ∀ n, o.tally es n ≤ if n < o.calls then 1 else 0
  known : ∀ f ∈ host.known, f ∈ o.finished
  replied : ∀ f ∈ o.finished, host.plan f.call ≠ some .start → ∃ reply, f.outcome = .done reply
  formatted : ∀ f ∈ o.finished, ∀ document, host.plan f.call = some (.format document) →
    ∃ v, f.outcome = .done (.review (.formatted v)) ∧ o.Settles es f.call v

/-- No call that was made asks for more, and what has ended stays as it is. -/
structure Precedes (o : Outlook) (es : List Workspace.Effect) (o' : Outlook)
    (es' : List Workspace.Effect) : Prop where
  calls : o.calls ≤ o'.calls
  kept : ∀ a ∈ o.activities, a.ended = true → a ∈ o'.activities
  finished : ∀ f ∈ o.finished, f ∈ o'.finished
  tally : ∀ n < o.calls, o'.tally es' n ≤ o.tally es n

theorem Settles.mono (h : o.Settles es n v) (precedes : o.Precedes es o' es') : o'.Settles es' n v := by
  cases h with
  | run mem isFor ended offers => exact .run (precedes.kept _ mem ended) isFor ended offers
  | unasked edits called never =>
      exact .unasked edits (Nat.lt_of_lt_of_le called precedes.calls)
        (Nat.le_zero.1 (never ▸ precedes.tally n called))

theorem agenda_isFair (host : Host) (o : Outlook)
    (es : List Workspace.Effect) : (o.agenda host es).IsFair := by
  rintro n v w hsettles hv hw
  cases hsettles with
  | run mem isFor ended offers =>
      refine .run mem isFor ended ⟨?_, fun hedits => absurd hw hedits⟩
      rw [hw, ← hv, offers.edits]
  | unasked _ called never => exact .unasked hw called never

/-- What is told, what activities there are and what has ended, on the way from one outlook to the next. -/
structure Adds (host : Host) (o o' : Outlook)
    (es' : List Workspace.Effect) : Prop where
  upcoming : ∀ e ∈ o'.upcoming, e ∈ o.upcoming ∨ (o'.agenda host es').ExpectsWork e ∧
    ∀ n i answer document, e = Bench.registryEvent (.answered (.host n) i answer) →
      host.plan n = some (.format document) → ∃ a ∈ o'.activities, a.isFor n = true ∧ a.ended = true ∧
        ∀ p, (Registry.formatShare p (host.buffers.find document) answer).Offers a.text a.rewrites?
  activities : ∀ a ∈ o'.activities, a ∈ o.activities ∨ a.IsSound host
  once : ∀ n, o'.tally es' n ≤ if n < o'.calls then 1 else 0
  finished : ∀ f ∈ o'.finished, f ∈ o.finished ∨
    (host.plan f.call ≠ some .start → ∃ reply, f.outcome = .done reply) ∧
      ∀ document, host.plan f.call = some (.format document) →
        ∃ v, f.outcome = .done (.review (.formatted v)) ∧ o'.Settles es' f.call v

theorem KeepsTo.advance (h : o.KeepsTo host c es) (precedes : o.Precedes es o' es')
    (adds : Adds host o o' es') (counted : o'.calls = c') (workspace : o'.workspace.KeepsTo (o'.agenda host es'))
    (calm : o'.workspace.outbox = []) (effects : ∀ e ∈ es', (o'.agenda host es').AllowsWork e) :
    o'.KeepsTo host c' es' where
  counted := counted
  workspace := workspace
  calm := calm
  upcoming e he := by
    rcases adds.upcoming e he with hold | ⟨hnew, _⟩
    · exact (h.upcoming e hold).mono rfl
    · exact hnew
  answered n i answer he document errand := by
    rcases adds.upcoming _ he with hold | ⟨_, hnew⟩
    · obtain ⟨a, ha, hfor, hended, hoffers⟩ := h.answered n i answer hold document errand
      exact ⟨a, precedes.kept a ha hended, hfor, hended, hoffers⟩
    · exact hnew n i answer document rfl errand
  effects := effects
  activities a ha := (adds.activities a ha).elim (h.activities a) id
  once := adds.once
  known f hf := precedes.finished f (h.known f hf)
  replied f hf := (adds.finished f hf).elim (h.replied f) (·.1)
  formatted f hf document errand := by
    rcases adds.finished f hf with hold | ⟨_, hnew⟩
    · obtain ⟨v, houtcome, hsettles⟩ := h.formatted f hold document errand
      exact ⟨v, houtcome, hsettles.mono precedes⟩
    · exact hnew document errand

/-- The workspace is left alone, and what is still to be seen to was so before. -/
theorem KeepsTo.beside (h : o.KeepsTo host c es) (precedes : o.Precedes es o' es')
    (adds : Adds host o o' es') (counted : o'.calls = c') (workspace : o'.workspace = o.workspace)
    (effects : ∀ e ∈ es', e ∈ es) : o'.KeepsTo host c' es' := by
  refine h.advance precedes adds counted ?_ (workspace ▸ h.calm) fun e he => ?_
  · rw [workspace]
    exact h.workspace.mono h.calm rfl rfl fun n v hsettles => hsettles.mono precedes
  · exact (h.effects e (effects e he)).mono rfl (fun n v hsettles => hsettles.mono precedes) fun _ _ => trivial

/-! ### What happens -/

theorem tally_cons (o : Outlook) (e : Workspace.Effect) (es : List Workspace.Effect) (n : Nat) :
    o.tally (e :: es) n = o.tally es n + if e.isFormat n then 1 else 0 := by
  unfold tally
  rw [List.countP_cons]
  omega

theorem tally_hold (o : Outlook) (m : Message) (es : List Workspace.Effect) (n : Nat) :
    (o.hold m).tally es n = o.tally es n + if m.event?.any (Workspace.Event.isFormat n) then 1 else 0 := by
  unfold tally hold
  dsimp only
  rw [Multiset.countP_add]
  cases m.event? with
  | none => simp
  | some e =>
      have hsingle : Multiset.countP (fun e => Workspace.Event.isFormat n e = true)
          ((some e).toList : Multiset Workspace.Event) = if e.isFormat n then 1 else 0 := by
        rw [Option.toList_some, Multiset.coe_countP, List.countP_singleton]
        simp
      rw [hsingle, Option.any_some]
      omega

theorem mem_hold {m : Message} {e : Workspace.Event} :
    e ∈ (o.hold m).upcoming ↔ m.event? = some e ∨ e ∈ o.upcoming := by
  unfold hold
  simp [Multiset.mem_add]

/-- An effect is seen to that leaves the outlook as it is. -/
theorem KeepsTo.pass {e : Workspace.Effect} (h : o.KeepsTo host c (e :: es)) :
    o.KeepsTo host c es := by
  have htally (n : Nat) : o.tally es n ≤ o.tally (e :: es) n := by
    rw [tally_cons]
    omega
  exact h.beside ⟨Nat.le_refl _, fun a ha _ => ha, fun f hf => hf, fun n _ => htally n⟩
    ⟨fun e he => .inl he, fun a ha => .inl ha, fun n => Nat.le_trans (htally n) (h.once n), fun f hf => .inl hf⟩
    h.counted rfl fun e he => List.mem_cons_of_mem _ he

/-- The workspace is to be told something that begins no format. -/
theorem KeepsTo.hold (h : o.KeepsTo host c es) {m : Message}
    (expected : ∀ e, m.event? = some e → (o.agenda host es).ExpectsWork e)
    (other : ∀ e n, m.event? = some e → e.isFormat n = false)
    (told : ∀ n i answer document, m.event? = some (Bench.registryEvent (.answered (.host n) i answer)) →
      host.plan n = some (.format document) → ∃ a ∈ o.activities, a.isFor n = true ∧ a.ended = true ∧
        ∀ p, (Registry.formatShare p (host.buffers.find document) answer).Offers a.text a.rewrites?) :
    (o.hold m).KeepsTo host c es := by
  have htally (n : Nat) : (o.hold m).tally es n = o.tally es n := by
    rw [tally_hold]
    cases hevent : m.event? with
    | none => rfl
    | some e => simp [other e n hevent]
  refine h.beside ⟨Nat.le_refl _, fun a ha _ => ha, fun f hf => hf, fun n _ => (htally n).le⟩
    ⟨fun e he => ?_, fun a ha => .inl ha, fun n => (htally n).le.trans (h.once n), fun f hf => .inl hf⟩
    h.counted rfl fun e he => he
  rcases mem_hold.1 he with hnew | hold
  · refine .inr ⟨(expected e hnew).mono rfl, ?_⟩
    rintro n i answer document rfl errand
    exact told n i answer document hnew errand
  · exact .inl hold

/-- What the workspace has put off is to be told it. -/
theorem KeepsTo.later {e : Workspace.Event} (h : o.KeepsTo host c (.later e :: es)) :
    (o.hold (.workspace e)).KeepsTo host c es := by
  have hlater := h.effects _ List.mem_cons_self
  refine h.pass.hold (fun e' he' => ?_) (fun e' n he' => ?_) fun n i answer document he' => ?_
  · cases he'
    exact hlater.expects.mono rfl
  · cases he'
    cases hlater with
    | later => rfl
  · cases he'
    cases hlater with
    | later allowed =>
        cases allowed with
        | registry due => cases due

theorem KeepsTo.finish {outcome : Outcome Workspace.Reply}
    (h : o.KeepsTo host c (.finish n outcome :: es)) (now : Buffers) :
    KeepsTo host c { o with finished := o.finished ++ [⟨n, outcome, now⟩] } es := by
  have hpassed := h.pass
  have hprecedes : o.Precedes (.finish n outcome :: es)
      { o with finished := o.finished ++ [⟨n, outcome, now⟩] } es :=
    ⟨Nat.le_refl _, fun a ha _ => ha, fun f hf => List.mem_append_left _ hf, fun m _ => (tally_cons o _ es m ▸ Nat.le_add_right _ _)⟩
  refine h.beside hprecedes ⟨fun e he => .inl he, fun a ha => .inl ha, hpassed.once, fun f hf => ?_⟩
    h.counted rfl fun e he => List.mem_cons_of_mem _ he
  rcases List.mem_append.1 hf with hold | hnew
  · exact .inl hold
  · obtain rfl := List.mem_singleton.1 hnew
    refine .inr ?_
    have hallowed := h.effects _ List.mem_cons_self
    cases hallowed with
    | formatted errand verdict =>
        exact ⟨fun _ => ⟨_, rfl⟩, fun document errand' => ⟨_, rfl, verdict.mono hprecedes⟩⟩
    | settled errand reply => exact ⟨fun _ => ⟨_, rfl⟩, fun document errand' => absurd errand' (errand document)⟩
    | raised errand trouble =>
        refine ⟨fun hother => absurd errand hother, fun document errand' => ?_⟩
        cases errand.symm.trans errand'

/-- A plugin is asked. -/
theorem KeepsTo.ask {key : CallKey} {part : Nat} {p : Plugin} {question : Question}
    (h : o.KeepsTo host c (.ask key part p question :: es)) {a : Activity} (hkey : a.key = key)
    (hplugin : a.plugin = p) (hquestion : a.question = question)
    (text : ∀ document options, question = .format document options → a.text = (host.buffers.find document).text)
    (answer : ∀ document options, question = .format document options → a.answer = .formatted {})
    (fresh : a.execution = none) :
    KeepsTo host c { o with activities := o.activities ++ [a] } es := by
  have hallowed : (o.agenda host (.ask key part p question :: es)).Allows (.ask key part p question) := by
    have hallowed := h.effects _ List.mem_cons_self
    cases hallowed with
    | ask allowed => exact allowed
  have htally (m : Nat) : Outlook.tally { o with activities := o.activities ++ [a] } es m =
      o.tally (.ask key part p question :: es) m := by
    have hsame : a.isFor m = (Workspace.Effect.ask key part p question).isFormat m := by
      rw [Activity.isFor, hkey, hquestion]
      cases key <;> cases question <;> rfl
    rw [tally_cons, ← hsame]
    unfold tally
    dsimp only
    rw [List.countP_append, List.countP_singleton]
    omega
  refine h.beside ⟨Nat.le_refl _, fun a ha _ => List.mem_append_left _ ha, fun f hf => hf, fun m _ => (htally m).le⟩
    ⟨fun e he => .inl he, fun a' ha' => ?_, fun m => (htally m).le.trans (h.once m), fun f hf => .inl hf⟩
    h.counted rfl fun e he => List.mem_cons_of_mem _ he
  rcases List.mem_append.1 ha' with hold | hnew
  · exact .inl hold
  obtain rfl := List.mem_singleton.1 hnew
  refine .inr ⟨fun n document hhost errand => ?_, fun document options hformat => ?_,
    fun document options hformat => ?_, fun document options hformat => ?_,
    fun document options hformat => ?_, fun _ => fresh⟩
  · rw [hquestion]
    rw [hkey] at hhost
    subst hhost
    cases hallowed with
    | probe errand' => cases errand.symm.trans errand'
    | format errand' options =>
        cases errand.symm.trans errand'
        exact ⟨options, rfl⟩
  · rw [hquestion] at hformat
    rw [hkey]
    subst hformat
    cases hallowed with
    | format errand' => exact ⟨_, rfl, errand'⟩
  · rw [hquestion] at hformat
    rw [hplugin]
    subst hformat
    cases hallowed with
    | format _ _ formatter => exact formatter
  · exact text document options (hquestion ▸ hformat)
  · exact answer document options (hquestion ▸ hformat)

/-- The answer to a question, or the end of an activity that gives none. -/
inductive Tells (host : Host) (a : Activity) : Registry.Event → Prop
  | answer (answer : Answer) (offers : ∀ n document, a.key = .host n → host.plan n = some (.format document) →
      ∀ p, (Registry.formatShare p (host.buffers.find document) answer).Offers a.text a.rewrites?) :
      Tells host a (.answered a.key a.part answer)
  | stop : Tells host a (.stopped a.key a.part)

/-- An activity ends. -/
theorem KeepsTo.settle {i : Nat} {a : Activity} (h : o.KeepsTo host c es)
    (found : o.activities[i]? = some a) (active : a.ended = false) (execution : Option Execution)
    {e : Registry.Event} (tells : Tells host { a with execution := execution, ended := true } e) :
    (Outlook.hold { o with activities := o.activities.set i { a with execution := execution, ended := true } }
      (.workspace (Bench.registryEvent e))).KeepsTo host c es := by
  have hbound : i < o.activities.length := (List.getElem?_eq_some_iff.1 found).1
  have hmem : a ∈ o.activities := List.mem_of_getElem? found
  generalize hended : ({ a with execution := execution, ended := true } : Activity) = a' at tells ⊢
  have hmem' : a' ∈ o.activities.set i a' :=
    List.mem_of_getElem? (by rw [List.getElem?_set_self hbound])
  have htally (n : Nat) : Outlook.tally { o with activities := o.activities.set i a' } es n = o.tally es n := by
    have hcount : (o.activities.set i a').countP (Activity.isFor n) = o.activities.countP (Activity.isFor n) := by
      have hget : o.activities[i] = a := (List.getElem?_eq_some_iff.1 found).2
      have hsame : a'.isFor n = a.isFor n := by
        subst hended
        rfl
      rw [List.countP_set hbound, hget, hsame]
      have hpos : a.isFor n = true → 0 < o.activities.countP (Activity.isFor n) :=
        fun hfor => List.countP_pos_iff.2 ⟨a, hmem, hfor⟩
      split
      · rename_i hfor
        have := hpos hfor
        omega
      · omega
    simp only [tally, hcount]
  have hset : KeepsTo host c { o with activities := o.activities.set i a' } es := by
    refine h.beside ⟨Nat.le_refl _, fun b hb hbended => ?_, fun f hf => hf, fun n _ => (htally n).le⟩
      ⟨fun e he => .inl he, fun b hb => ?_, fun n => (htally n).le.trans (h.once n), fun f hf => .inl hf⟩
      h.counted rfl fun e he => he
    · obtain ⟨j, hj⟩ := List.mem_iff_getElem?.1 hb
      refine List.mem_of_getElem? (i := j) ?_
      rw [List.getElem?_set_ne ?_, hj]
      rintro rfl
      rw [found] at hj
      cases hj
      rw [active] at hbended
      cases hbended
    · rcases List.mem_or_eq_of_mem_set hb with hold | rfl
      · exact .inl hold
      · subst hended
        have hsound := h.activities a hmem
        exact .inr ⟨hsound.formats, hsound.planned, hsound.formatter, hsound.text, hsound.answer, nofun⟩
  have hsound : a'.IsSound host := hset.activities a' hmem'
  have ha' : a'.ended = true := by rw [← hended]
  cases tells with
  | stop =>
      refine hset.hold (fun e he => ?_) (fun e n he => ?_) fun n i answer document he => ?_
      · cases he
        exact .stopped _ _
      · cases he
        rfl
      · cases he
  | answer answer offers =>
      refine hset.hold (fun e he => ?_) (fun e n he => ?_) fun n i answer' document he errand => ?_
      · cases he
        exact .answered _ _ _
      · cases he
        rfl
      · injection he with he
        injection he with he
        injection he with he
        injection he with hkey _ hanswer
        subst hanswer
        exact ⟨a', hmem', hsound.isFor hkey errand, ha', offers n document hkey errand⟩

/-- The workspace is told something, and what it wants done is to be seen to. -/
theorem KeepsTo.react {e : Workspace.Event} (h : (o.hold (.workspace e)).KeepsTo host c []) :
    KeepsTo host c { o with workspace := { o.workspace.step e with outbox := [] } }
      (o.workspace.step e).outbox := by
  have htold : e ∈ (o.hold (.workspace e)).upcoming := mem_hold.2 (.inl rfl)
  have hexpected := h.upcoming e htold
  have hcalm : o.workspace.outbox = [] := h.calm
  have hasks (n : Nat) : (o.workspace.step e).outbox.countP (Workspace.Effect.isFormat n) ≤
      if e.isFormat n then 1 else 0 := h.workspace.countP_isFormat hcalm hexpected n
  have hbefore (n : Nat) : (o.hold (.workspace e)).tally [] n = o.tally [] n + if e.isFormat n then 1 else 0 :=
    tally_hold o (.workspace e) [] n
  generalize ho' : ({ o with workspace := { o.workspace.step e with outbox := [] } } : Outlook) = o'
  obtain ⟨hcalls, hactivities, hupcoming, hfinished⟩ : o'.calls = o.calls ∧ o'.activities = o.activities ∧
      o'.upcoming = o.upcoming ∧ o'.finished = o.finished := by
    rw [← ho']
    exact ⟨rfl, rfl, rfl, rfl⟩
  have hafter (n : Nat) : o'.tally (o.workspace.step e).outbox n =
      o.tally [] n + (o.workspace.step e).outbox.countP (Workspace.Effect.isFormat n) := by
    rw [← ho']
    simp only [tally, List.countP_nil]
    omega
  have htally (n : Nat) : o'.tally (o.workspace.step e).outbox n ≤ (o.hold (.workspace e)).tally [] n := by
    have := hasks n
    have := hbefore n
    have := hafter n
    omega
  have hprecedes : (o.hold (.workspace e)).Precedes [] o' (o.workspace.step e).outbox :=
    ⟨hcalls.ge, fun a ha _ => hactivities ▸ ha, fun f hf => hfinished ▸ hf, fun n _ => htally n⟩
  have hlater : o.workspace.KeepsTo (o'.agenda host (o.workspace.step e).outbox) :=
    h.workspace.mono hcalm rfl rfl fun n v hsettles => hsettles.mono hprecedes
  have hstepped : (o.workspace.step e).KeepsTo (o'.agenda host (o.workspace.step e).outbox) := by
    refine hlater.step hcalm (agenda_isFair host o' _) (hexpected.mono rfl)
      ⟨fun _ _ _ _ => trivial, ?_, ?_⟩
    · rintro n document p i answer rfl errand formatter
      obtain ⟨a, ha, hfor, hended, hoffers⟩ := h.answered n i answer htold document errand
      exact .run (hactivities ▸ ha) hfor hended (hoffers p)
    · rintro n document token heq hnone
      have hformat : e.isFormat n = true := by
        rw [heq]
        exact beq_self_eq_true n
      have honce : (o.hold (.workspace e)).tally [] n ≤ if n < o.calls then 1 else 0 := h.once n
      have hsome := hbefore n
      have hquiet := Workspace.countP_isFormat_le n (o.workspace.step e).outbox
      rw [if_pos hformat] at hsome
      change ((o.workspace.step e).outbox.filterMap Workspace.Effect.inquiry?) = [] at hnone
      rw [hnone, List.length_nil] at hquiet
      -- The event was the one chance that the format had to be asked for.
      have hcalled : n < o.calls := by
        by_contra hlate
        rw [if_neg hlate] at honce
        omega
      rw [if_pos hcalled] at honce
      have := hafter n
      exact .unasked rfl (hcalls ▸ hcalled) (by omega)
  refine h.advance hprecedes ⟨fun e' he' => .inl (mem_hold.2 (.inr (hupcoming ▸ he'))),
    fun a ha => .inl (hactivities ▸ ha), fun n => ?_, fun f hf => .inl (hfinished ▸ hf)⟩
    (hcalls.trans h.counted) ?_ ?_ hstepped.outbox
  · rw [hcalls]
    exact Nat.le_trans (htally n) (h.once n)
  · have hworkspace : o'.workspace = { o.workspace.step e with outbox := [] } := by rw [← ho']
    rw [hworkspace]
    exact hstepped.rest
  · rw [← ho']

/-- The host makes a call as it is planned. -/
theorem KeepsTo.issue (h : o.KeepsTo host c []) {request : Workspace.Request}
    (planned : ∀ a : Agenda, a.errand = host.plan → a.ExpectsWork (.call c request)) :
    (Outlook.hold { o with calls := c + 1 } (.workspace (.call c request))).KeepsTo host (c + 1) [] := by
  have hcounted := h.counted
  have htally (n : Nat) : (Outlook.hold { o with calls := c + 1 } (.workspace (.call c request))).tally [] n =
      o.tally [] n + if (Workspace.Event.call c request).isFormat n then 1 else 0 :=
    tally_hold { o with calls := c + 1 } (.workspace (.call c request)) [] n
  have hnumber {n : Nat} (hformat : (Workspace.Event.call c request).isFormat n = true) : n = c := by
    obtain ⟨document, token, heq⟩ := Workspace.Event.eq_of_isFormat hformat
    cases heq
    rfl
  refine h.beside ⟨hcounted.trans_le (Nat.le_succ c), fun a ha _ => ha, fun f hf => hf, fun n hn => ?_⟩ ⟨fun e he => ?_,
    fun a ha => .inl ha, fun n => ?_, fun f hf => .inl hf⟩ rfl rfl fun e he => he
  · rw [htally, if_neg fun hformat => ?_]
    · exact Nat.le_refl _
    · have := hnumber hformat
      omega
  · rcases mem_hold.1 he with hnew | hold
    · cases hnew
      exact .inr ⟨planned _ rfl, fun n i answer document heq => by cases heq⟩
    · exact .inl hold
  · have honce := h.once n
    change _ ≤ if n < c + 1 then 1 else 0
    rw [hcounted] at honce
    rw [htally]
    by_cases hformat : (Workspace.Event.call c request).isFormat n = true
    · have hlast := hnumber hformat
      rw [if_neg (by omega)] at honce
      rw [if_pos hformat, if_pos (by omega)]
      omega
    · rw [if_neg hformat]
      split at honce
      · rw [if_pos (by omega)]
        omega
      · omega

end Outlook

end Bench

end Shellwright
