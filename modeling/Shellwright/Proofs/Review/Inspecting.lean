import Shellwright.Proofs.Registry.Turns
import Shellwright.Proofs.Review.Endings
import Shellwright.Proofs.Review.Passing
/-!
# What is checked for a run

Whatever the registry checks for a run is the document of the run, and only the token of the run can
call it off.
-/

namespace Shellwright.Registry

/-- The document of run `k` is checked with the token of the run. -/
structure Suits (docs : Nat → Option String) (k : Nat) (document : String) (options : CallOptions) :
    Prop where
  document : docs k = some document
  token : options.token = some (.run k)

/-- What is under way for runs is checks of their documents. -/
def Inspects (docs : Nat → Option String) (r : Registry) : Prop :=
  ∀ k c, r.calls.get? (.run k) = some c →
    ∃ check : Check, c = check.call ∧ Suits docs k check.document check.options

/-- What plugins are asked for runs is to check their documents. -/
def Inquires (docs : Nat → Option String) (inquiries : List Inquiry) : Prop :=
  ∀ q ∈ inquiries, ∀ k, q.key = .run k →
    ∃ document options, q.question = .check document options ∧ Suits docs k document options

/-- A check that the event begins for a run is about its document. -/
def Event.Begins (docs : Nat → Option String) (e : Event) : Prop :=
  ∀ k request, e = .call (.run k) request →
    ∃ document options, request = .check document options ∧ Suits docs k document options

variable {docs : Nat → Option String} {r r' : Registry} {e : Event}

theorem Check.start_on {active : List Plugin} {d : TextDocument} {document : String}
    {options : CallOptions} {c : Check} (h : Check.start active d document options = .on c) :
    c.document = document ∧ c.options = options := by
  unfold Check.start at h
  split at h
  · cases h
  · cases h
  · cases h
    exact ⟨rfl, rfl⟩

/-- A check stays with its document. -/
theorem Check.turn_on {d : TextDocument} {c c' : Check} {t : Turn} (h : c.turn d t = .on c') :
    c'.document = c.document ∧ c'.options = c.options := by
  unfold Check.turn at h
  split at h
  · split at h <;> cases h
    exact ⟨rfl, rfl⟩
  · split at h <;> cases h <;> exact ⟨rfl, rfl⟩
  · split at h <;> cases h
    exact ⟨rfl, rfl⟩
  · cases h
  · cases h
    exact ⟨rfl, rfl⟩
  · cases h
    exact ⟨rfl, rfl⟩

theorem Becomes.inspected {k : Nat} {question : Question} {turned : Turned}
    (becomes : Becomes (.run k) question turned r')
    (suits : ∀ c, turned = .on c → Suits docs k c.document c.options) {c : Call}
    (call : r'.calls.get? (.run k) = some c) :
    ∃ check : Check, c = check.call ∧ Suits docs k check.document check.options := by
  rw [becomes.call] at call
  cases turned with
  | on check =>
      cases call
      exact ⟨check, rfl, suits check rfl⟩
  | ends outcome => cases call

/-- What a step makes of the check of a run, and what is asked for it. -/
theorem step_becomes_run (h : r.outbox = []) (buffers : Buffers) (inspects : r.Inspects docs)
    (begins : e.Begins docs) {k : Nat} (about : e.key? = some (.run k)) :
    r.step buffers e = r ∨ ∃ document options turned, Suits docs k document options ∧
      (∀ c, turned = .on c → Suits docs k c.document c.options) ∧
      Becomes (.run k) (.check document options) turned (r.step buffers e) := by
  by_cases hnew : ∃ request, e = .call (.run k) request
  · obtain ⟨request, rfl⟩ := hnew
    obtain ⟨document, options, rfl, hsuits⟩ := begins k request rfl
    refine .inr ⟨document, options, _, hsuits, ?_, startCheck_becomes h buffers document options⟩
    intro c hon
    obtain ⟨hdocument, hoptions⟩ := Check.start_on hon
    rw [hdocument, hoptions]
    exact hsuits
  · have hold : ∀ request, e ≠ .call (.run k) request := fun request heq => hnew ⟨request, heq⟩
    cases hcall : r.calls.get? (.run k) with
    | none => exact .inl (step_absent buffers about hold hcall)
    | some c =>
        obtain ⟨check, rfl, hsuits⟩ := inspects k c hcall
        obtain ⟨t, hturn⟩ := exists_turn about hold
        refine .inr ⟨_, _, _, hsuits, ?_, step_becomes h buffers hcall hturn⟩
        intro c' hon
        obtain ⟨hdocument, hoptions⟩ := Check.turn_on hon
        rw [hdocument, hoptions]
        exact hsuits

theorem step_inspects (h : r.outbox = []) (buffers : Buffers) (inspects : r.Inspects docs)
    (begins : e.Begins docs) : (r.step buffers e).Inspects docs := by
  intro k c call
  by_cases habout : e.key? = some (.run k)
  · rcases step_becomes_run h buffers inspects begins habout with hsame | ⟨_, _, _, _, hon, hbecomes⟩
    · rw [hsame] at call
      exact inspects k c call
    · exact hbecomes.inspected hon call
  · rw [(step_unconcerned h buffers habout).call] at call
    exact inspects k c call

theorem Inspects.mono {docs' : Nat → Option String} (h : r.Inspects docs)
    (le : ∀ k document, docs k = some document → docs' k = some document) : r.Inspects docs' := by
  intro k c call
  obtain ⟨check, hcheck, hsuits⟩ := h k c call
  exact ⟨check, hcheck, le k _ hsuits.document, hsuits.token⟩

theorem Inquires.mono {docs' : Nat → Option String} {inquiries : List Inquiry}
    (h : Inquires docs inquiries)
    (le : ∀ k document, docs k = some document → docs' k = some document) :
    Inquires docs' inquiries := by
  intro q hq k hkey
  obtain ⟨document, options, hquestion, hsuits⟩ := h q hq k hkey
  exact ⟨document, options, hquestion, le k _ hsuits.document, hsuits.token⟩

/-- To call a call off asks nobody. -/
theorem abort_asks (h : r.outbox = []) (buffers : Buffers) (key : CallKey) :
    (r.step buffers (.abort key)).asks = [] := by
  have hstart := Leaves.start h
  change (r.withCall key (r.abort key)).asks = []
  unfold withCall
  split
  · rename_i c _
    unfold Registry.abort
    split
    · have hlock := hstart.withLock { r.lock with waiting := r.lock.waiting.filter (· != key) }
      exact (hlock.finish key .aborted).asks
    · exact ((hstart.setCall key { c with aborting := true }).quits key _).asks
  · exact hstart.asks

theorem step_inquires (h : r.outbox = []) (buffers : Buffers) (inspects : r.Inspects docs)
    (begins : e.Begins docs) : Inquires docs (r.step buffers e).asks := by
  intro q hq k hkey
  by_cases habout : e.key? = some (.run k)
  · rcases step_becomes_run h buffers inspects begins habout with
      hsame | ⟨document, options, _, hsuits, _, hbecomes⟩
    · rw [hsame, (Leaves.start h).asks] at hq
      cases hq
    · exact ⟨document, options, hbecomes.asks q hq hkey, hsuits⟩
  · exact absurd hkey ((step_unconcerned h buffers habout).asked q hq)

end Shellwright.Registry

namespace Shellwright.Review

/-- The question to a plugin that is to be passed on. -/
def Effect.inquiry? : Effect → Option Registry.Inquiry
  | .ask key part plugin question => some ⟨key, part, plugin, question⟩
  | _ => none

end Shellwright.Review

namespace Shellwright.Reviewer

open Review

/-- The questions to plugins that are to be passed on. -/
def asked (r : Reviewer) : List Registry.Inquiry :=
  r.outbox.filterMap Effect.inquiry?

/-- The documents of the runs. -/
def docs (r : Reviewer) (k : Nat) : Option String :=
  r.runs[k]?.map Run.document

variable {r r' : Reviewer} {e : Event}

theorem asked_eq (r : Reviewer) : r.asked = r.passed.filterMap Registry.Effect.inquiry? := by
  unfold asked passed
  rw [List.filterMap_filterMap]
  congr 1
  funext e
  cases e with
  | later event => cases event <;> rfl
  | _ => rfl

theorem docs_of_later (h : Later r.desk r'.desk) {k : Nat} {document : String}
    (known : r.docs k = some document) : r'.docs k = some document := by
  obtain ⟨run, hrun, rfl⟩ := Option.map_eq_some_iff.1 known
  obtain ⟨run', hrun', hticket⟩ := h.runs k run hrun
  exact Option.map_eq_some_iff.2 ⟨run', hrun', (Run.eq_of_ticket hticket).2.2⟩

theorem Leads.asked {own : Nat → Prop} {registry : Registry} {effects : List Registry.Effect}
    (h : Leads own registry effects r r') :
    r'.asked = r.asked ++ effects.filterMap Registry.Effect.inquiry? := by
  rw [asked_eq, h.passed, List.filterMap_append, ← asked_eq, Registry.filterMap_filter_passes]
  intro effect hpasses
  cases effect with
  | later event => cases hpasses
  | ask key part plugin question => cases hpasses
  | _ => rfl

theorem tellRegistry_asked (r : Reviewer) (event : Registry.Event) :
    (r.tellRegistry event).asked = r.asked ++ (r.registry.step r.buffers event).asks := by
  have hleads : Leads (fun _ => True) _ _ r (r.tellRegistry event) :=
    tellRegistry_leads r event fun _ _ _ => trivial
  exact hleads.asked

theorem foldl_abortRun_asked (calm : r.registry.outbox = []) (runs : List Nat) :
    (runs.foldl abortRun r).asked = r.asked := by
  induction runs generalizing r with
  | nil => rfl
  | cons k rest ih =>
      have hfirst : (r.abortRun k).asked = r.asked := by
        unfold abortRun
        split
        · rw [tellRegistry_asked, Registry.abort_asks calm, List.append_nil]
        · rfl
      rw [List.foldl_cons, ih ((abortRun_rests calm k).calm calm), hfirst]

theorem abort_asked (calm : r.registry.outbox = []) (n : Nat) :
    (r.step (.abort n)).asked = r.asked := by
  change (r.withCall n (r.abort n)).asked = r.asked
  unfold withCall
  split
  · rename_i c _
    have hcalm : (r.setCall n { c with aborting := true }).registry.outbox = [] := calm
    unfold abort
    simp only
    split
    · rw [tellRegistry_asked, Registry.abort_asks hcalm, List.append_nil]
      rfl
    · exact foldl_abortRun_asked hcalm _
  · rfl

/-- The registry is asked for the check of a run by the review only. -/
def Hosted : Event → Bool
  | .registry (.call (.run _) _) => false
  | _ => true

theorem conveyed_begins (hosted : Hosted e = true) {event : Registry.Event}
    (conveyed : r.conveyed e = some event) : event.Begins r.docs := by
  rintro k request rfl
  cases e with
  | registry event =>
      cases conveyed
      cases hosted
  | call n request' =>
      cases request' with
      | format document token => cases conveyed
      | fixAll document token editable =>
          obtain ⟨_, ⟨⟩⟩ := Option.ite_none_right_eq_some.1 conveyed
      | _ => cases conveyed
  | begin n =>
      unfold Reviewer.conveyed at conveyed
      simp only at conveyed
      split at conveyed
      · rename_i run hrun
        obtain ⟨_, ⟨⟩⟩ := Option.ite_none_left_eq_some.1 conveyed
        exact ⟨_, _, rfl, by rw [docs, hrun]; rfl, rfl⟩
      · cases conveyed
  | _ => cases conveyed

/-- What is under way and what is asked for runs is about their documents. -/
theorem step_inspected (calm : r.registry.outbox = []) (outbox : r.outbox = [])
    (hosted : Hosted e = true) (inspects : r.registry.Inspects r.docs) :
    (r.step e).registry.Inspects (r.step e).docs ∧
      Registry.Inquires (r.step e).docs (r.step e).asked := by
  have hlater : ∀ k document, r.docs k = some document → (r.step e).docs k = some document :=
    fun k document => docs_of_later (step_acts calm e).desk.later
  have hnone : r.asked = [] := by
    rw [asked, outbox]
    rfl
  suffices h : (r.step e).registry.Inspects r.docs ∧ Registry.Inquires r.docs (r.step e).asked from
    ⟨h.1.mono hlater, h.2.mono hlater⟩
  by_cases habort : ∃ n, e = .abort n
  · obtain ⟨n, rfl⟩ := habort
    rw [abort_asked calm, hnone]
    have hproof : AbortProof (Registry.Inspects r.docs) := fun registry buffers key hcalm h =>
      Registry.step_inspects hcalm buffers h fun k request heq => nomatch heq
    exact ⟨abort_registry hproof calm inspects n, fun q hq => nomatch hq⟩
  · have hleads := step_leads calm (e := e) fun n heq => habort ⟨n, heq⟩
    rw [hleads.registry, hleads.asked, hnone, List.nil_append]
    unfold reached
    cases hconveyed : r.conveyed e with
    | none =>
        refine ⟨inspects, fun q hq => ?_⟩
        simp only [calm] at hq
        cases hq
    | some event =>
        have hbegins := conveyed_begins hosted hconveyed
        exact ⟨Registry.step_inspects calm r.buffers inspects hbegins,
          Registry.step_inquires calm r.buffers inspects hbegins⟩

end Shellwright.Reviewer
