import Shellwright.Proofs.Registry.Ends
/-!
# Formats under way

The formatters of a call are asked one after another, each when the one before it has answered, until
one of them has edits. The cases of a step are listed here, so that no later proof has to look into it.
-/

namespace Shellwright

/-- The verdict of formatters that were asked in this order: that of the first with edits, or else what
all of them say. -/
def FormatVerdict.first (vs : List FormatVerdict) : FormatVerdict :=
  (vs.find? (!·.edits.isEmpty)).getD { toVerdict := Verdict.merge (vs.map (·.toVerdict)) }

theorem FormatVerdict.first_of_quiet {vs : List FormatVerdict} (h : ∀ v ∈ vs, v.edits = []) :
    first vs = { toVerdict := Verdict.merge (vs.map (·.toVerdict)) } := by
  have hnone : vs.find? (!·.edits.isEmpty) = none :=
    List.find?_eq_none.2 fun v hv => by simp [h v hv]
  rw [first, hnone]
  rfl

theorem FormatVerdict.first_append {vs : List FormatVerdict} {v : FormatVerdict}
    (h : ∀ w ∈ vs, w.edits = []) (edits : v.edits ≠ []) : first (vs ++ [v]) = v := by
  have hnone : vs.find? (!·.edits.isEmpty) = none :=
    List.find?_eq_none.2 fun w hw => by simp [h w hw]
  have hsome : [v].find? (!·.edits.isEmpty) = some v := by simp [edits]
  rw [first, List.find?_append, hnone, Option.none_or, hsome]
  rfl

/-- A verdict is without edits exactly when nobody has any. -/
theorem FormatVerdict.edits_first {vs : List FormatVerdict} :
    (first vs).edits = [] ↔ ∀ v ∈ vs, v.edits = [] := by
  constructor
  · intro h
    cases hfind : vs.find? (!·.edits.isEmpty) with
    | none => exact fun v hv => by simpa using List.find?_eq_none.1 hfind v hv
    | some w =>
        have hw := List.find?_some hfind
        rw [first, hfind] at h
        simp [show w.edits = [] from h] at hw
  · intro h
    rw [first_of_quiet h]

/-- A verdict on a text that is already formatted, by all that it says. -/
structure FormatVerdict.IsQuiet (v : FormatVerdict) : Prop where
  conclusive : v.inconclusive = false
  edits : v.edits = []
  diagnostics : v.diagnostics = []

/-- Formatters that are asked one after another say nothing exactly when each says nothing. -/
theorem FormatVerdict.isQuiet_first {vs : List FormatVerdict} :
    (first vs).IsQuiet ↔ ∀ v ∈ vs, v.IsQuiet := by
  constructor
  · rintro ⟨hconclusive, hedits, hdiagnostics⟩ v hv
    have hquiet := edits_first.1 hedits
    rw [first_of_quiet hquiet] at hconclusive hdiagnostics
    have hmem : v.toVerdict ∈ vs.map (·.toVerdict) := List.mem_map_of_mem hv
    refine ⟨?_, hquiet v hv, List.flatMap_eq_nil_iff.1 hdiagnostics _ hmem⟩
    simpa using List.any_eq_false.1 hconclusive _ hmem
  · intro h
    rw [first_of_quiet fun v hv => (h v hv).edits]
    refine ⟨List.any_eq_false.2 ?_, rfl, List.flatMap_eq_nil_iff.2 ?_⟩
    · intro w hw
      obtain ⟨v, hv, rfl⟩ := List.mem_map.1 hw
      simp [(h v hv).conclusive]
    · intro w hw
      obtain ⟨v, hv, rfl⟩ := List.mem_map.1 hw
      exact (h v hv).diagnostics

namespace Registry

/-- What the answer of a formatter about a document contributes; an error becomes a diagnostic. -/
def formatShare (p : Plugin) (d : TextDocument) : Answer → FormatVerdict
  | .formatted v => v
  | .checked v => { toVerdict := v }
  | .available _ => {}
  | .raised text => { hasErrors := true, diagnostics := (p.failure "format" text d).diagnostics }

theorem formatVerdict_share (r : Registry) (buffers : Buffers) (p : Plugin) (document : String)
    (a : Answer) :
    (r.formatVerdict buffers p document a).2 = formatShare p (buffers.find document) a := by
  cases a <;> rfl

/-- The formatters that would be asked about a document. -/
def formatters (r : Registry) (d : TextDocument) : List Plugin :=
  match r.snapshot d with
  | .ok plugins => plugins.filter (·.formats)
  | .error _ => []

theorem formatters_of_ok {r : Registry} {d : TextDocument} {plugins : List Plugin}
    (h : r.snapshot d = .ok plugins) : r.formatters d = plugins.filter (·.formats) := by
  rw [formatters, h]

/-- The call waits for the formatter `p`; `rest` are still to be asked, and `collected` have been said. -/
def Consults (r : Registry) (key : CallKey) (document : String) (options : CallOptions) (p : Plugin)
    (rest : List Plugin) (collected : List Verdict) : Prop :=
  ∃ c, r.calls.get? key = some c ∧ c.stage = .formatting document options p rest collected

/-- The next formatter is asked, or the call ends because there is none. -/
inductive Turns (key : CallKey) (document : String) (options : CallOptions)
    (collected : List Verdict) (r' : Registry) : List Plugin → Prop
  | asks (p : Plugin) (rest : List Plugin)
      (consults : r'.Consults key document options p rest collected)
      (asked : r'.asks = [⟨key, 0, p, .format document options⟩]) (open' : r'.finishes = []) :
      Turns key document options collected r' (p :: rest)
  | ends (asked : r'.asks = []) (gone : r'.calls.get? key = none)
      (ended : r'.finishes =
        [(key, .done (.formatted { toVerdict := Verdict.merge collected }))]) :
      Turns key document options collected r' []

variable {r r₁ : Registry} {key : CallKey} {document : String} {options : CallOptions}

theorem get?_without (r : Registry) (key : CallKey) : (r.without key).calls.get? key = none :=
  (Keyed.get?_drop _ _ _).trans (if_pos rfl)

theorem askFormatter_turns (h : r₁.Leaves r [] [] []) (key : CallKey) (document : String)
    (options : CallOptions) (collected : List Verdict) (plugins : List Plugin) :
    Turns key document options collected (r₁.askFormatter key document options collected plugins)
      plugins := by
  cases plugins with
  | nil =>
      have hleaves := h.finish key (.done (.formatted { toVerdict := Verdict.merge collected }))
      refine .ends hleaves.asks ?_ hleaves.finishes
      rw [askFormatter, hleaves.calls]
      exact get?_without r key
  | cons p rest =>
      have hleaves := (h.setCall key ⟨.formatting document options p rest collected, false⟩).ask key 0
        p (.format document options)
      refine .asks p rest ⟨⟨.formatting document options p rest collected, false⟩, ?_, rfl⟩
        hleaves.asks hleaves.finishes
      rw [askFormatter, hleaves.calls]
      exact Keyed.get?_put_self _ _ _

/-- How a format begins. -/
inductive Opens (r : Registry) (buffers : Buffers) (key : CallKey) (document : String)
    (options : CallOptions) (r' : Registry) : Prop
  | raised (text : String) (asked : r'.asks = []) (gone : r'.calls.get? key = none)
      (ended : r'.finishes = [(key, .raised (.support text))])
  | asks (plugins : List Plugin) (snapshot : r.snapshot (buffers.find document) = .ok plugins)
      (turns : Turns key document options [] r' (plugins.filter (·.formats)))

theorem startFormat_opens (h : r.outbox = []) (buffers : Buffers) (key : CallKey)
    (document : String) (options : CallOptions) :
    Opens r buffers key document options
      (r.step buffers (.call key (.format document options))) := by
  have hstart := Leaves.start h
  change Opens r buffers key document options (r.startFormat buffers key document options)
  unfold startFormat
  split
  · rename_i text _
    have hleaves := hstart.finish key (.raised (.support text))
    refine .raised text hleaves.asks ?_ hleaves.finishes
    rw [hleaves.calls]
    exact get?_without r key
  · rename_i plugins hsnapshot
    exact .asks plugins hsnapshot (askFormatter_turns hstart key document options [] _)

/-- How a format goes on with an event. -/
inductive GoesOn (buffers : Buffers) (key : CallKey) (document : String) (options : CallOptions)
    (p : Plugin) (rest : List Plugin) (collected : List Verdict) (e : Event) (r' : Registry) : Prop
  | waits (unanswered : ∀ i a, e ≠ .answered key i a)
      (consults : r'.Consults key document options p rest collected)
      (asked : ∀ q ∈ r'.asks, q.key ≠ key) (open' : ∀ outcome, (key, outcome) ∉ r'.finishes)
  | turns (i : Nat) (a : Answer) (event : e = .answered key i a)
      (quiet : (formatShare p (buffers.find document) a).edits = [])
      (turns : Turns key document options
        (collected ++ [(formatShare p (buffers.find document) a).toVerdict]) r' rest)
  | wins (i : Nat) (a : Answer) (event : e = .answered key i a)
      (edits : (formatShare p (buffers.find document) a).edits ≠ []) (asked : r'.asks = [])
      (gone : r'.calls.get? key = none)
      (ended : r'.finishes =
        [(key, .done (.formatted (formatShare p (buffers.find document) a)))])
  | stops (unanswered : ∀ i a, e ≠ .answered key i a) (asked : r'.asks = [])
      (gone : r'.calls.get? key = none) (ended : r'.finishes = [(key, .aborted)])

variable {buffers : Buffers} {p : Plugin} {rest : List Plugin} {collected : List Verdict} {e : Event}

theorem settleFormat_goesOn (h : r.outbox = []) (i : Nat) (a : Answer) :
    GoesOn buffers key document options p rest collected (.answered key i a)
      (r.settleFormat buffers key document options p rest collected a) := by
  have hverdict := formatVerdict_leaves (Leaves.start h) buffers p document a
  have hshare := formatVerdict_share r buffers p document a
  unfold settleFormat
  simp only [hshare]
  split
  · rename_i hnone
    exact .turns i a rfl (List.isEmpty_iff.1 hnone)
      (askFormatter_turns hverdict key document options _ rest)
  · rename_i hsome
    have hleaves := hverdict.finish key
      (.done (.formatted (formatShare p (buffers.find document) a)))
    refine .wins i a rfl (fun hnil => hsome (List.isEmpty_iff.2 hnil)) hleaves.asks ?_
      hleaves.finishes
    rw [hleaves.calls]
    exact get?_without r key

theorem step_goesOn (h : r.outbox = [])
    (consults : r.Consults key document options p rest collected)
    (old : ∀ request, e ≠ .call key request) :
    GoesOn buffers key document options p rest collected e (r.step buffers e) := by
  have hstart := Leaves.start h
  obtain ⟨c, hcall, hstage⟩ := consults
  by_cases hanswer : ∃ i a, e = .answered key i a
  · obtain ⟨i, a, rfl⟩ := hanswer
    simp only [step, withCall, hcall, answered, hstage]
    exact settleFormat_goesOn h i a
  have hunanswered : ∀ i a, e ≠ .answered key i a := fun i a heq => hanswer ⟨i, a, heq⟩
  have hstay {r' : Registry} {c' : Call} (stage : c'.stage = .formatting document options p rest collected)
      (call : r'.calls.get? key = some c') (hleaves : r'.asks = [] ∧ r'.finishes = []) :
      GoesOn buffers key document options p rest collected e r' := by
    refine .waits hunanswered ⟨c', call, stage⟩ ?_ ?_
    · simp [hleaves.1]
    · simp [hleaves.2]
  have hrests : GoesOn buffers key document options p rest collected e r :=
    hstay hstage hcall ⟨hstart.asks, hstart.finishes⟩
  have hstop : GoesOn buffers key document options p rest collected e (r.finish key .aborted) := by
    have hleaves := hstart.finish key .aborted
    refine .stops hunanswered hleaves.asks ?_ hleaves.finishes
    rw [hleaves.calls]
    exact get?_without r key
  by_cases hforeign : e.key? ≠ some key
  · have hother := step_unconcerned h buffers hforeign
    exact .waits hunanswered ⟨c, hother.call.trans hcall, hstage⟩ hother.asked hother.finishes
  have hkey : e.key? = some key := Classical.not_not.1 hforeign
  cases e with
  | call k request =>
      cases hkey
      exact absurd rfl (old request)
  | granted k =>
      cases hkey
      simp only [step, withCall, hcall, hstage]
      exact hrests
  | begin k i =>
      cases hkey
      simp only [step, withCall, hcall, Registry.begin, hstage]
      split
      · exact hstop
      · exact hrests
  | answered k i a =>
      cases hkey
      exact absurd rfl (hunanswered i a)
  | stopped k i =>
      cases hkey
      simp only [step, withCall, hcall]
      split
      · exact hstop
      · exact hrests
  | gathered k =>
      cases hkey
      simp only [step, withCall, hcall, gathered, hstage]
      split
      · exact hstop
      · exact hrests
  | abort k =>
      cases hkey
      simp only [step, withCall, hcall, abort, hstage]
      have hleaves := (hstart.setCall key
        ⟨.formatting document options p rest collected, true⟩).quits key
        (outstanding (.formatting document options p rest collected))
      have hstage' : (⟨.formatting document options p rest collected, true⟩ : Call).stage =
          .formatting document options p rest collected := rfl
      refine hstay hstage' ?_ ⟨hleaves.asks, hleaves.finishes⟩
      rw [hleaves.calls]
      exact Keyed.get?_put_self _ _ _
  | _ => cases hkey

end Registry

end Shellwright
