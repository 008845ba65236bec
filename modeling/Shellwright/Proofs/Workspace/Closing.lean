import Shellwright.Proofs.Review.Closed
import Shellwright.Proofs.Workspace.Steps
/-!
# Closed documents

Once a document has been closed there are no diagnostics of its address, and none are published until
it is named again, except by a call that was under way when the document was closed: it may go on to
have the document checked, which opens a new session.
-/

namespace Shellwright.Workspace

open Review

/-- How a workspace begins, and all that happens to it. -/
structure Course where
  settings : Settings
  loader : FactoryLoader
  buffers : Buffers
  event : Nat → Event

namespace Course

/-- The workspace after the first `t` events; what it wants done is seen to each time. -/
def workspace (c : Course) : Nat → Workspace
  | 0 => create c.settings c.loader c.buffers
  | t + 1 => { (c.workspace t).step (c.event t) with outbox := [] }

def sink (c : Course) (t : Nat) : DiagnosticSink :=
  (c.workspace t).reviewer.sink

def address (c : Course) (document : String) : String :=
  (c.buffers.find document).uri

/-- At time `t` call `n` may still have the document checked, and ever since time `t₀`, or since it was
made to check all that was open. -/
def Lingers (c : Course) (t₀ t n : Nat) (document : String) : Prop :=
  ∃ t₁, t₀ ≤ t₁ ∧ t₁ < t ∧
    (t₁ = t₀ ∨ (c.event t₁).Sweeps n ∧ document ∈ (c.workspace t₁).documents.values) ∧
    ∀ t₂, t₁ < t₂ → t₂ ≤ t → (c.workspace t₂).InFlight n document

/-- With event `t` run `k` is dispatched for the document. -/
def Dispatches (c : Course) (t k : Nat) (document : String) : Prop :=
  (c.workspace t).reviewer.runs[k]? = none ∧
    ∃ run, (c.workspace (t + 1)).reviewer.runs[k]? = some run ∧ run.document = document

/-- With event `t` run `k` has its verdict published. -/
def Publishes (c : Course) (t k : Nat) (run : Run) (session : Session) (verdict : Verdict) : Prop :=
  Reviewer.Publishes (c.workspace t).reviewer (c.workspace (t + 1)).reviewer k run session verdict

/-- A call that was under way at time `t₀` has a document of the address checked, and what is found is
published before time `T`. -/
def Resurfaces (c : Course) (t₀ T : Nat) (uri : String) : Prop :=
  ∃ n document t₁ t₂ k run session verdict, t₁ < t₂ ∧ t₂ < T ∧ c.address document = uri ∧
    c.Lingers t₀ t₁ n document ∧ c.Dispatches t₁ k document ∧
    c.Publishes t₂ k run session verdict ∧ session.uri = uri

/-- From time `t₀` to `T` no event names a document of the address. -/
def Unnamed (c : Course) (t₀ T : Nat) (uri : String) : Prop :=
  ∀ t document, t₀ < t → t < T → c.address document = uri → ¬(c.event t).Names document

/-! ## Every moment of a course -/

variable (c : Course)

theorem calm (t : Nat) : (c.workspace t).Calm := by
  induction t with
  | zero => exact ⟨rfl, rfl⟩
  | succ t ih =>
      have hcalm := (step_acts ih (c.event t)).calm
      exact ⟨hcalm.reviewer, hcalm.registry⟩

theorem acts (t : Nat) :
    Acts (Event.Names · (c.event t)) (Event.Sweeps · (c.event t)) (c.workspace t)
      (c.workspace (t + 1)) := by
  have hacts := step_acts (c.calm t) (c.event t)
  exact ⟨hacts.desk, hacts.places, hacts.inFlight, c.calm (t + 1)⟩

theorem sound (t : Nat) : Sound (c.workspace t).desk := by
  induction t with
  | zero => exact Sound.start
  | succ t ih =>
      obtain ⟨_, _, hdoes⟩ := (c.acts t).desk
      exact hdoes.sound ih

theorem address_eq (t : Nat) (document : String) :
    ((c.workspace t).reviewer.document document).uri = c.address document := by
  induction t with
  | zero => rfl
  | succ t ih => exact ((c.acts t).places document).trans ih

variable {c} {t₀ t T n : Nat} {uri document : String}

theorem Lingers.succ (h : c.Lingers t₀ t n document)
    (inFlight : (c.workspace (t + 1)).InFlight n document) : c.Lingers t₀ (t + 1) n document := by
  obtain ⟨t₁, hstart, hlt, hcause, hsince⟩ := h
  exact ⟨t₁, hstart, Nat.lt_succ_of_lt hlt, hcause, Registry.throughout_succ hsince inFlight⟩

/-- A call that may have the document checked, though it was not named since, has lingered. -/
theorem lingers_of_inFlight (unnamed : c.Unnamed t₀ T (c.address document)) (hlt : t₀ < t)
    (hle : t ≤ T) (inFlight : (c.workspace t).InFlight n document) : c.Lingers t₀ t n document := by
  induction hlt with
  | refl =>
      refine ⟨t₀, Nat.le_refl t₀, Nat.lt_succ_self t₀, .inl rfl, fun t₂ hafter hle₂ => ?_⟩
      obtain rfl : t₂ = t₀ + 1 := by omega
      exact inFlight
  | @step t hlt ih =>
      rcases (c.acts t).inFlight n document inFlight with hbefore | hnamed | ⟨hsweeps, hmem⟩
      · exact (ih (Nat.le_of_lt hle) hbefore).succ inFlight
      · exact absurd hnamed (unnamed t document hlt hle rfl)
      · refine ⟨t, Nat.le_of_lt hlt, Nat.lt_succ_self t, .inr ⟨hsweeps, hmem⟩,
          fun t₂ hafter hle₂ => ?_⟩
        obtain rfl : t₂ = t + 1 := by omega
        exact inFlight

/-! ## After a document has been closed -/

/-- No timer is set for the address, and its runs were dispatched by calls that lingered. -/
structure Silent (c : Course) (t₀ t : Nat) (uri : String) : Prop where
  idle : (c.workspace t).desk.Idle uri
  late : ∀ k run, (c.workspace t).desk.Live uri k run → c.address run.document = uri ∧
    ∃ n t₁, t₁ < t ∧ c.Lingers t₀ t₁ n run.document ∧ c.Dispatches t₁ k run.document

theorem silent_of_closes (closes : (c.event t₀).Closes document) :
    c.Silent t₀ (t₀ + 1) (c.address document) ∧
      (c.sink (t₀ + 1)).published.get? (c.address document) = none ∧
      (c.sink (t₀ + 1)).publications (c.address document) =
        (c.sink t₀).publications (c.address document) := by
  have hdesk : (c.workspace (t₀ + 1)).desk = (c.workspace t₀).desk.close (c.address document) := by
    rw [← c.address_eq t₀]
    exact step_closes_desk closes
  have hunregistered : (c.workspace (t₀ + 1)).desk.sessions.get? (c.address document) = none := by
    rw [hdesk]
    exact (Sessions.get?_close _ _ _).trans (if_pos rfl)
  have hsink : c.sink (t₀ + 1) = (c.sink t₀).clear (c.address document) := congrArg Desk.sink hdesk
  obtain ⟨hidle, hdead⟩ := (c.sound (t₀ + 1)).idle hunregistered
  refine ⟨⟨hidle, fun k run hlive => absurd hlive (hdead k run)⟩, ?_, ?_⟩
  · rw [hsink]
    exact (Keyed.get?_drop _ _ _).trans (if_pos rfl)
  · rw [hsink]
    rfl

theorem Silent.succ (h : c.Silent t₀ t uri) (unnamed : c.Unnamed t₀ T uri) (hlt : t₀ < t)
    (htT : t < T) : c.Silent t₀ (t + 1) uri := by
  obtain ⟨e, hnamed, hdoes⟩ := (c.acts t).desk
  refine ⟨hdoes.idle (c.sound t) h.idle ?_, fun k run' hlive => ?_⟩
  · intro name hname huri
    exact unnamed t name hlt htT ((c.address_eq t name).symm.trans huri) (hnamed name hname)
  · rcases hdoes.live (c.sound t) h.idle hlive with ⟨run, hbefore, hticket⟩ | ⟨hnew, hmay, huri⟩
    · obtain ⟨haddress, n, t₁, hlt₁, hlingers, hdispatches⟩ := h.late k run hbefore
      rw [(Run.eq_of_ticket hticket).2.2] at haddress hlingers hdispatches
      exact ⟨haddress, n, t₁, Nat.lt_succ_of_lt hlt₁, hlingers, hdispatches⟩
    -- Nothing has named the document of a new run, so a call that lingers has dispatched it.
    · have haddress : c.address run'.document = uri := (c.address_eq t _).symm.trans huri
      rcases hmay with hname | ⟨n, hawaits⟩
      · exact absurd hname (unnamed t _ hlt htT haddress)
      · refine ⟨haddress, n, t, Nat.lt_succ_self t, ?_, hnew, run', hlive.run_eq, rfl⟩
        exact lingers_of_inFlight (haddress ▸ unnamed) hlt (Nat.le_of_lt htT) (.inl hawaits)

theorem silent (closes : (c.event t₀).Closes document)
    (unnamed : c.Unnamed t₀ T (c.address document)) (hlt : t₀ < t) (hle : t ≤ T) :
    c.Silent t₀ t (c.address document) := by
  induction hlt with
  | refl => exact (silent_of_closes closes).1
  | @step t hlt ih => exact (ih (Nat.le_of_lt hle)).succ unnamed hlt hle

/-- A publication for a closed address comes from a call that lingered. -/
theorem Silent.resurfaces (h : c.Silent t₀ t uri) (htT : t < T) {k : Nat} {run : Run}
    {session : Session} {verdict : Verdict} (publishes : c.Publishes t k run session verdict)
    (own : session.uri = uri) : c.Resurfaces t₀ T uri := by
  have hlive : (c.workspace t).desk.Live uri k run :=
    ⟨publishes.run_eq, session, publishes.session_eq, own, publishes.is_open⟩
  obtain ⟨haddress, n, t₁, hlt, hlingers, hdispatches⟩ := h.late k run hlive
  exact ⟨n, run.document, t₁, t, k, run, session, verdict, hlt, htT, haddress, hlingers,
    hdispatches, publishes, own⟩

/-- From when a document is closed until it is named again there are no diagnostics of its address and
none are published, unless a call that was under way has the document checked again. -/
theorem closed_clear_iff (c : Course) (document : String) (t₀ T : Nat)
    (closes : (c.event t₀).Closes document)
    (unnamed : c.Unnamed t₀ T (c.address document)) :
    (∀ t, t₀ < t → t ≤ T → (c.sink t).published.get? (c.address document) = none ∧
      (c.sink t).publications (c.address document) =
        (c.sink t₀).publications (c.address document)) ↔
      ¬c.Resurfaces t₀ T (c.address document) := by
  constructor
  -- A publication counts, whatever was found.
  · rintro hclear ⟨n, name, t₁, t₂, k, run, session, verdict, hlt, hltT, _, hlingers, _, hpublishes,
      huri⟩
    obtain ⟨t₃, hstart, hlt₃, _⟩ := hlingers
    have hbefore := (hclear t₂ (by omega) (Nat.le_of_lt hltT)).2
    have hafter := (hclear (t₂ + 1) (by omega) hltT).2
    have hsink : c.sink (t₂ + 1) = (c.sink t₂).publish session.uri verdict.diagnostics :=
      hpublishes.sink
    rw [hsink, DiagnosticSink.publications_publish, if_pos huri] at hafter
    omega
  · intro hnever t hlt hle
    induction hlt with
    | refl => exact (silent_of_closes closes).2
    | @step t hlt ih =>
        obtain ⟨hclear, hcount⟩ := ih (Nat.le_of_lt hle)
        obtain ⟨e, _, hdoes⟩ := (c.acts t).desk
        rcases Reviewer.clear_or_publishes (c.sound t) hdoes hclear with ⟨hclear', hcount'⟩ |
          ⟨k, run, session, verdict, hpublishes, huri⟩
        · exact ⟨hclear', hcount'.trans hcount⟩
        · exact absurd ((silent closes unnamed hlt (Nat.le_of_lt hle)).resurfaces hle hpublishes huri)
            hnever

/-- A formatter that the host supplies. -/
def formatter : Plugin :=
  ⟨0, "fmt", "Fmt", "1.0", true, supportAll, .external 0⟩

def finding (code : Option String) : Diagnostic :=
  ⟨⟨⟨0, 0⟩, ⟨0, 1⟩⟩, "bad", .error, code, "fmt"⟩

/-- A document is closed while its formatter is at work, which then finds that it cannot be parsed. -/
def closedWhileFormatted : Course where
  settings := {}
  loader := .none
  buffers := [("d", { uri := "file:///d.sh" })]
  event t :=
    [.review (.registry (.register formatter)),
      .review (.registry (.call (.host 0) (.activate "fmt"))),
      .review (.registry (.answered (.host 0) 0 (.available true))),
      .call 1 (.format "d" none),
      .close "d",
      .review (.registry (.answered (.host 1) 0
        (.formatted { diagnostics := [finding (some Diagnostic.syntaxErrorCode)] }))),
      .review (.begin 0),
      .review (.registry (.begin (.run 0) 0)),
      .review (.registry (.answered (.run 0) 0 (.checked { diagnostics := [finding none] }))),
      .review (.registry (.gathered (.run 0)))].getD t (.abort 0)

theorem unnamed_closedWhileFormatted : closedWhileFormatted.Unnamed 4 10 "file:///d.sh" := by
  intro t document hlt hltT _ hnamed
  obtain rfl | rfl | rfl | rfl | rfl : t = 5 ∨ t = 6 ∨ t = 7 ∨ t = 8 ∨ t = 9 := by omega
  all_goals exact hnamed

/-- The format that was under way is what brings the document back. -/
theorem closedWhileFormatted_resurfaces : closedWhileFormatted.Resurfaces 4 10 "file:///d.sh" := by
  have hiff := closed_clear_iff closedWhileFormatted "d" 4 10 rfl unnamed_closedWhileFormatted
  refine Classical.byContradiction fun hnever => ?_
  exact absurd (hiff.2 hnever 10 (by decide) (by decide)).1 (by decide)

/-- A document that has been closed and not been named again can have diagnostics. -/
theorem exists_closed_published :
    ¬ ∀ (c : Course) (document : String) (t₀ t : Nat), (c.event t₀).Closes document →
      c.Unnamed t₀ t (c.address document) → t₀ < t →
      (c.sink t).published.get? (c.address document) = none := by
  intro h
  have hnone := h closedWhileFormatted "d" 4 10 rfl unnamed_closedWhileFormatted (by decide)
  exact absurd hnone (by decide)

end Course

end Shellwright.Workspace
