import Shellwright.Proofs.Diagnostic.Edits
import Shellwright.Proofs.Review.Fixing
/-!
# Texts that formats and fixes keep

A formatter that cannot parse a document says so and gives no edits, and the next formatter is asked.
A format is refused for a syntax error exactly when no formatter has edits all the same.

The host may change a document while its formatter works on it. All that keeps a fix from overwriting
the newer text is that an edit has to span the whole of it, and two texts may have the same span.
-/

namespace Shellwright

/-! ## Formats that are refused -/

namespace Review

/-- The reply to a format or a fix by which nothing was edited and nothing is to be. -/
def Reply.KeepsText : Reply → Prop
  | .formatted v => v.edits = []
  | .fixed outcome => outcome ≠ .applied ∧ outcome ≠ .rejected
  | _ => False

theorem FormatPurpose.reply_keepsText {v : FormatVerdict} (quiet : v.edits = []) (accepted : Bool)
    (purpose : FormatPurpose) : (purpose.reply v accepted).KeepsText := by
  cases purpose with
  | edits => exact quiet
  | fix editable =>
      simp only [reply, Reply.KeepsText, fixOutcome, quiet, List.isEmpty_nil, if_true]
      split
      · simp
      · split <;> simp

namespace Course

variable (c : Course)

/-- Up to event `t` call `n` consulted a formatter that reports a syntax error in the document. -/
def Alarmed (n : Nat) (document : String) (t : Nat) : Prop :=
  ∃ k ∈ c.consulted n (t + 1), ∃ d ∈ (c.share document k).diagnostics,
    d.code = some Diagnostic.syntaxErrorCode

/-- Up to event `t` call `n` consulted a formatter that has edits. -/
def Offered (n : Nat) (document : String) (t : Nat) : Prop :=
  ∃ k ∈ c.consulted n (t + 1), (c.share document k).edits ≠ []

/-- The format with verdict `v`, begun with event `t₀` and decided with event `t`, changes nothing. -/
structure Refuses (n : Nat) (document : String) (t₀ t : Nat) (v : FormatVerdict) : Prop where
  edits : v.edits = []
  buffers : (c.reviewer (t + 1)).buffers = (c.reviewer t).buffers
  replies : ∀ token purpose u reply, c.Starts n t₀ document token purpose → t₀ ≤ u →
    c.Single n t₀ u → c.Ends u n (.done reply) → reply.KeepsText

variable {c} {n t t₀ : Nat} {document : String} {options : CallOptions} {v : FormatVerdict}

theorem Formats.offered_iff (h : c.Formats n document options t₀ t v) :
    c.Offered n document t ↔ v.edits ≠ [] := by
  rw [h.consulted.verdict, Ne, FormatVerdict.edits_first, Offered]
  simp

theorem Formats.refuses_of_quiet (h : c.Formats n document options t₀ t v) (quiet : v.edits = []) :
    c.Refuses n document t₀ t v where
  edits := quiet
  buffers := Reviewer.step_buffers_of_quiet (c.orderly t).calm quiet h.ended
  replies token purpose u reply starts since single ended := by
    rw [starts.reply_eq h since single ended]
    exact FormatPurpose.reply_keepsText quiet _ purpose

/-- Syntax errors refuse a format exactly when no other formatter that is consulted has edits. -/
theorem syntax_refuses_iff (h : c.Formats n document options t₀ t v) :
    (c.Alarmed n document t → c.Refuses n document t₀ t v) ↔
      ¬ (c.Alarmed n document t ∧ c.Offered n document t) := by
  constructor
  · rintro hrefuses ⟨halarmed, hoffered⟩
    exact h.offered_iff.1 hoffered (hrefuses halarmed).edits
  · intro hnot halarmed
    refine h.refuses_of_quiet (Classical.byContradiction fun hedits => ?_)
    exact hnot ⟨halarmed, h.offered_iff.2 hedits⟩

/-- What a formatter says that cannot parse the text `if`. -/
def alarm : FormatVerdict :=
  { hasErrors := true
    diagnostics :=
      [⟨Span.whole "if", "Syntax error", .error, some Diagnostic.syntaxErrorCode, "first"⟩] }

/-- What a formatter says that replaces the text `if`. -/
def replacement : FormatVerdict :=
  { edits := [⟨Span.whole "if", "fi"⟩] }

/-- A document is fixed; the first formatter cannot parse it, and the second one answers with `v`. -/
def alarmThen (v : FormatVerdict) : Course :=
  fixOf [formatter 0 "first", formatter 1 "second"] "if"
    [.registry (.answered (.host 0) 0 (.formatted alarm)),
      .registry (.answered (.host 0) 0 (.formatted v))]

theorem alarmThen_formats {v v' : FormatVerdict}
    (ended : (alarmThen v).Settles 2 (.host 0) (.done (.formatted v'))) :
    (alarmThen v).Formats 0 "d" {} 0 2 v' := by
  refine fixOf_starts.formats (Nat.zero_le 2) (fixOf_single ?_ 2) ended
  rintro e (_ | ⟨_, _ | ⟨_, ⟨⟩⟩⟩) <;> exact id

/-- What the first formatter was asked and has said. -/
def alarmed : Consultation :=
  ⟨formatter 0 "first", 0, 1, .formatted alarm⟩

/-- The second formatter finds nothing to change, and the fix is refused. -/
theorem alarmThen_nothing_refuses :
    (alarmThen {}).Refuses 0 "d" 0 2 (FormatVerdict.first [alarm, {}]) := by
  have hformats : (alarmThen {}).Formats 0 "d" {} 0 2 (FormatVerdict.first [alarm, {}]) :=
    alarmThen_formats (List.mem_singleton_self _)
  have halarmed : (alarmThen {}).Alarmed 0 "d" 2 :=
    ⟨alarmed, List.mem_cons_self, _, List.mem_singleton_self _, rfl⟩
  refine (syntax_refuses_iff hformats).2 ?_ halarmed
  rintro ⟨-, hoffered⟩
  exact hformats.offered_iff.1 hoffered rfl

/-- The edits of the second formatter replace the text that the first one could not parse. -/
theorem exists_alarm_unrefused :
    ¬ ∀ (c : Course) (n : Nat) (document : String) (options : CallOptions) (t₀ t : Nat)
      (v : FormatVerdict), c.Formats n document options t₀ t v → c.Alarmed n document t →
      c.Refuses n document t₀ t v := by
  intro h
  have hformats : (alarmThen replacement).Formats 0 "d" {} 0 2 replacement :=
    alarmThen_formats (List.mem_singleton_self _)
  have halarmed : (alarmThen replacement).Alarmed 0 "d" 2 :=
    ⟨alarmed, List.mem_cons_self, _, List.mem_singleton_self _, rfl⟩
  have hfixed : ((alarmThen replacement).reviewer 3).buffers ≠
      ((alarmThen replacement).reviewer 2).buffers := by decide
  exact hfixed (h _ 0 "d" {} 0 2 _ hformats halarmed).buffers

end Course

end Review

/-! ## Fixes of documents that change meanwhile -/

namespace Reviewer

open Review

/-- The editable document that has the address of `document`; the edits of a fix go there. -/
def target? (r : Reviewer) (document : String) (editable : List String) : Option String :=
  editable.reverse.find? fun name => (r.document name).uri == (r.document document).uri

variable {r : Reviewer} {document name : String} {editable : List String} {edits : List TextEdit}

theorem applyEdits_of_some (h : r.target? document editable = some name) :
    r.applyEdits document editable edits =
      ({ r with buffers := Keyed.put r.buffers name ((r.document name).applyEdits edits).2 },
        ((r.document name).applyEdits edits).1) := by
  unfold target? at h
  unfold applyEdits
  simp only [h]

theorem edited_of_some {v : FormatVerdict} (edits : v.edits ≠ [])
    (h : r.target? document editable = some name) :
    (r.edited document v (.fix editable)).find name = ((r.document name).applyEdits v.edits).2 := by
  have hsome : v.edits.isEmpty = false := by simpa using edits
  simp only [edited, hsome, applyEdits_of_some h, Bool.false_eq_true, if_false]
  rw [Buffers.find, Keyed.get?_put_self]
  rfl

end Reviewer

namespace Review

theorem fixOutcome_applied {v : FormatVerdict} {accepted : Bool} :
    fixOutcome v accepted = .applied ↔ v.edits ≠ [] ∧ accepted = true := by
  constructor
  · intro h
    unfold fixOutcome at h
    split at h
    · split at h
      · cases h
      · split at h <;> cases h
    · rename_i hedits
      split at h
      · rename_i haccepted
        exact ⟨by simpa using hedits, haccepted⟩
      · cases h
  · rintro ⟨hedits, rfl⟩
    simp [fixOutcome, hedits]

namespace Course

variable (c : Course)

/-- When the edits of formatter `k` are there with event `t`, the document that they go to is not the
text that it was given. -/
structure Outdated (n : Nat) (document : String) (editable : List String) (t : Nat)
    (k : Consultation) (name : String) : Prop where
  answered : (c.consulted n (t + 1)).getLast? = some k
  target : (c.reviewer t).target? document editable = some name
  changed : ((c.reviewer t).document name).text ≠ c.textAsked document k

/-- A newer text is kept, and the fix does not end as if it were applied. -/
def Lossless (n : Nat) (document : String) (editable : List String) (t₀ t : Nat) : Prop :=
  ∀ k name, c.Outdated n document editable t k name →
    (c.reviewer (t + 1)).document name = (c.reviewer t).document name ∧
    ∀ u, t₀ ≤ u → c.Single n t₀ u → ¬ c.Ends u n (.done (.fixed .applied))

variable {c} {n t t₀ : Nat} {document : String} {token : Option Token} {options : CallOptions}
  {editable : List String} {v : FormatVerdict}

/-- Whatever the host does while a formatter works, no newer text is lost exactly when none has by chance
the span that the first edit replaces. -/
theorem fix_lossless_iff (starts : c.Starts n t₀ document token (.fix editable))
    (single : c.Single n t₀ t) (open' : ∀ u, t₀ ≤ u → u < t → ∀ outcome, ¬ c.Ends u n outcome)
    (formats : c.Formats n document options t₀ t v) :
    c.Lossless n document editable t₀ t ↔
      ∀ k name edit, c.Outdated n document editable t k name → v.edits.head? = some edit →
        edit.range ≠ Span.whole ((c.reviewer t).document name).text := by
  have hbuffers : (c.reviewer (t + 1)).buffers = _ := (starts.decides single open' formats).buffers
  constructor
  · intro lossless k name edit outdated first spans
    obtain ⟨hkept, -⟩ := lossless k name outdated
    obtain ⟨rest, hedits⟩ := List.head?_eq_some_iff.1 first
    have hsome : v.edits ≠ [] := by simp [hedits]
    rw [Reviewer.document, hbuffers, Reviewer.edited_of_some hsome outdated.target, hedits] at hkept
    exact TextDocument.applyEdits_ne rest spans hkept
  · intro apart k name outdated
    -- The first edit is refused, and with it the others.
    have hrefused (edits : v.edits ≠ []) : ((c.reviewer t).document name).applyEdits v.edits =
        (false, (c.reviewer t).document name) := by
      obtain ⟨edit, rest, hedits⟩ := List.exists_cons_of_ne_nil edits
      have hspan := apart k name edit outdated (by rw [hedits]; rfl)
      rw [hedits, TextDocument.applyEdits, if_neg hspan]
    constructor
    · rw [Reviewer.document, hbuffers]
      by_cases hedits : v.edits = []
      · rw [Reviewer.edited_of_quiet hedits]
        rfl
      · rw [Reviewer.edited_of_some hedits outdated.target, hrefused hedits]
    · intro u since single ended
      have hreply := starts.reply_eq formats since single ended
      rw [FormatPurpose.reply] at hreply
      obtain ⟨hedits, haccepts⟩ := fixOutcome_applied.1 (Reply.fixed.inj hreply).symm
      rw [Reviewer.accepts, Reviewer.applyEdits_of_some outdated.target, hrefused hedits] at haccepts
      cases haccepts

/-- What a formatter says to the text `ab`. -/
def shouted : FormatVerdict :=
  { edits := [⟨Span.whole "ab", "AB"⟩] }

/-- The host changes the document to `text` while the formatter works on `ab`. -/
def changedTo (text : String) : Course :=
  fixOf [formatter 0 "fmt"] "ab"
    [.update "d" text, .registry (.answered (.host 0) 0 (.formatted shouted))]

theorem changedTo_single (text : String) (t : Nat) : (changedTo text).Single 0 0 t := by
  refine fixOf_single ?_ t
  rintro e (_ | ⟨_, _ | ⟨_, ⟨⟩⟩⟩) <;> exact id

/-- A shorter text is kept. -/
theorem changedTo_shorter_lossless : (changedTo "c").Lossless 0 "d" ["d"] 0 2 := by
  have hopen : ∀ u < 2,
      (((changedTo "c").reviewer u).step ((changedTo "c").event u)).endsOf 0 = [] := by decide
  have hformats : (changedTo "c").Formats 0 "d" {} 0 2 shouted :=
    fixOf_starts.formats (Nat.zero_le 2) (changedTo_single "c" 2) (List.mem_singleton_self _)
  refine (fix_lossless_iff fixOf_starts (changedTo_single "c" 2) (not_ends_before hopen)
    hformats).2 ?_
  rintro k name edit outdated ⟨⟩
  have htarget : ((changedTo "c").reviewer 2).target? "d" ["d"] = some "d" := rfl
  obtain rfl := Option.some.inj (htarget.symm.trans outdated.target)
  decide

/-- A text with as many lines and as long a last line is overwritten. -/
theorem exists_fix_lossy :
    ¬ ∀ (c : Course) (n : Nat) (document : String) (token : Option Token) (editable : List String)
      (options : CallOptions) (t₀ t : Nat) (v : FormatVerdict),
      c.Starts n t₀ document token (.fix editable) → c.Single n t₀ t →
      (∀ u, t₀ ≤ u → u < t → ∀ outcome, ¬ c.Ends u n outcome) →
      c.Formats n document options t₀ t v → c.Lossless n document editable t₀ t := by
  intro h
  have hopen : ∀ u < 2,
      (((changedTo "cd").reviewer u).step ((changedTo "cd").event u)).endsOf 0 = [] := by decide
  have hformats : (changedTo "cd").Formats 0 "d" {} 0 2 shouted :=
    fixOf_starts.formats (Nat.zero_le 2) (changedTo_single "cd" 2) (List.mem_singleton_self _)
  have houtdated : (changedTo "cd").Outdated 0 "d" ["d"] 2
      ⟨formatter 0 "fmt", 0, 2, .formatted shouted⟩ "d" := ⟨rfl, rfl, by decide⟩
  have hlossless := h _ 0 "d" none ["d"] {} 0 2 shouted fixOf_starts (changedTo_single "cd" 2)
    (not_ends_before hopen) hformats
  have hlost : ((changedTo "cd").reviewer 3).document "d" ≠
      ((changedTo "cd").reviewer 2).document "d" := by decide
  exact hlost (hlossless _ "d" houtdated).1

end Course

end Review

end Shellwright
