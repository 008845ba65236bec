import Shellwright.Proofs.Review.Agenda
import Shellwright.Proofs.Workspace.Configured
/-!
# A workspace that keeps to an agenda

The plugins that a workspace builds are those of the library and those of third parties; when no third
party formats, the formatter of the library is the only one. Every call that ends brings the reply that
its errand is after.
-/

namespace Shellwright

/-- The plugins of third parties do not format, and say of every document whether they handle it. -/
def FactoryLoader.IsModest (loader : FactoryLoader) : Prop :=
  ∀ factories log, loader.load = .ok (factories, log) →
    ∀ f ∈ factories, ∀ next settings p, f.make next settings = .ok (some p) →
      p.formats = false ∧ ∀ d text, p.supports d ≠ .error text

namespace Plugin

theorem exists_factory_of_mem {settings : Settings} {factories : List Factory} {next : Nat} {p : Plugin}
    (h : p ∈ (ofFactories settings next factories).1) :
    ∃ f ∈ factories, ∃ number, f.make number settings = .ok (some p) := by
  induction factories generalizing next with
  | nil => cases h
  | cons f rest ih =>
      have hrest (hp : p ∈ (ofFactories settings (next + 1) rest).1) :
          ∃ f' ∈ f :: rest, ∃ number, f'.make number settings = .ok (some p) := by
        obtain ⟨f', hf', hmade⟩ := ih hp
        exact ⟨f', List.mem_cons_of_mem _ hf', hmade⟩
      unfold ofFactories at h
      dsimp only at h
      split at h
      · rename_i q hmake
        rcases List.mem_cons.1 h with rfl | hp
        · exact ⟨f, List.mem_cons_self, next, hmake⟩
        · exact hrest hp
      · exact hrest h
      · exact hrest h

/-- Of the plugins that are built only one formats. -/
theorem sole_build {settings : Settings} {made : Nat} {factories : List Factory}
    (modest : ∀ f ∈ factories, ∀ next settings p, f.make next settings = .ok (some p) →
      p.formats = false ∧ ∀ d text, p.supports d ≠ .error text) :
    Sole (Registry.byName (build settings made factories).1).values := by
  have hplugins : ∀ p ∈ (build settings made factories).1,
      (p.formats = true → p.name = "shfmt" ∧ p.IsFormatter) ∧ ∀ d text, p.supports d ≠ .error text := by
    intro p hp
    rcases List.mem_append.1 hp with hbuiltin | hforeign
    · rcases mem_builtins.1 hbuiltin with ⟨_, rfl⟩ | ⟨_, rfl⟩
      · exact ⟨fun _ => ⟨rfl, _, _, rfl⟩, fun d text => by simp [ofFormatter, supportByExtension]⟩
      · exact ⟨fun h => by simp [ofLinter] at h, fun d text => by simp [ofLinter, supportByExtension]⟩
    · obtain ⟨f, hf, next, hmake⟩ := exists_factory_of_mem hforeign
      obtain ⟨hformats, hwilling⟩ := modest f hf next settings p hmake
      exact ⟨fun h => by simp [hformats] at h, hwilling⟩
  have hentries : ∀ e ∈ Registry.byName (build settings made factories).1,
      e.1 = e.2.name ∧ e.2 ∈ (build settings made factories).1 := by
    intro e he
    have hget : Keyed.get? (Registry.byName (build settings made factories).1) e.1 = some e.2 :=
      Keyed.get?_of_mem (Keyed.nodup_keys_ofList _) he
    refine Keyed.get?_ofList (P := fun name p => name = p.name ∧ p ∈ (build settings made factories).1) ?_ hget
    intro pair hpair
    obtain ⟨p, hp, rfl⟩ := List.mem_map.1 hpair
    exact ⟨rfl, hp⟩
  refine .of_keyed (Keyed.nodup_keys_ofList _) "shfmt" (fun e he hformats => ?_) fun e he => ?_
  · obtain ⟨hname, hmem⟩ := hentries e he
    exact hname ▸ (hplugins e.2 hmem).1 hformats
  · exact (hplugins e.2 (hentries e he).2).2

end Plugin

namespace Agenda

open Workspace

/-- What a workspace may want done. -/
inductive AllowsWork (a : Agenda) : Effect → Prop
  | later {e : Review.Event} (allowed : a.AllowsReview (.later e)) : AllowsWork a (.later (.review e))
  | cancel (run : Nat) : AllowsWork a (.cancel run)
  | ask {key : CallKey} {part : Nat} {p : Plugin} {question : Question}
      (allowed : a.Allows (.ask key part p question)) : AllowsWork a (.ask key part p question)
  | started (run : Nat) : AllowsWork a (.started run)
  | stopped (run : Nat) : AllowsWork a (.stopped run)
  | log (record : LogRecord) : AllowsWork a (.log record)
  | formatted {n : Nat} {document : String} (errand : a.errand n = some (.format document))
      {v : FormatVerdict} (verdict : a.verdict n v) :
      AllowsWork a (.finish n (.done (.review (.formatted v))))
  | settled {n : Nat} (errand : ∀ document, a.errand n ≠ some (.format document)) (reply : Reply) :
      AllowsWork a (.finish n (.done reply))
  | raised {n : Nat} (errand : a.errand n = some .start) (trouble : Trouble) :
      AllowsWork a (.finish n (.raised trouble))

/-- What may happen to a workspace. -/
inductive ExpectsWork (a : Agenda) : Event → Prop
  | due {e : Registry.Event} (due : e.IsDue) : ExpectsWork a (.review (.registry e))
  | answered (key : CallKey) (part : Nat) (answer : Answer) :
      ExpectsWork a (.review (.registry (.answered key part answer)))
  | stopped (key : CallKey) (part : Nat) : ExpectsWork a (.review (.registry (.stopped key part)))
  | begin (run : Nat) : ExpectsWork a (.review (.begin run))
  | ended (run : Nat) : ExpectsWork a (.review (.ended run))
  | start {n : Nat} (errand : a.errand n = some .start) : ExpectsWork a (.call n .start)
  | format {n : Nat} {document : String} (errand : a.errand n = some (.format document))
      (token : Option Token) : ExpectsWork a (.call n (.format document token))
  | shutdown {n : Nat} (errand : a.errand n = some .shutdown) : ExpectsWork a (.call n .shutdown)

theorem ExpectsWork.mono {a b : Agenda} {e : Event} (h : a.ExpectsWork e) (errand : b.errand = a.errand) :
    b.ExpectsWork e := by
  cases h with
  | due due => exact .due due
  | answered key part answer => exact .answered key part answer
  | stopped key part => exact .stopped key part
  | begin run => exact .begin run
  | ended run => exact .ended run
  | start errand' => exact .start (errand ▸ errand')
  | format errand' token => exact .format (errand ▸ errand') token
  | shutdown errand' => exact .shutdown (errand ▸ errand')

/-- More may be wanted as formats end. -/
theorem AllowsWork.mono {a b : Agenda} {e : Effect} (h : a.AllowsWork e) (errand : b.errand = a.errand)
    (verdict : ∀ n v, a.verdict n v → b.verdict n v) (asks : ∀ n, a.asks n → b.asks n) : b.AllowsWork e := by
  cases h with
  | later allowed =>
      cases allowed with
      | registry due => exact .later (.registry due)
      | begin run => exact .later (.begin run)
      | ended run => exact .later (.ended run)
  | cancel run => exact .cancel run
  | ask allowed =>
      cases allowed with
      | probe errand' => exact .ask (.probe (errand ▸ errand') _ _)
      | format errand' options formatter asks' =>
          exact .ask (.format (errand ▸ errand') options formatter (asks _ asks'))
      | check n => exact .ask (.check n _ _ _ _)
  | started run => exact .started run
  | stopped run => exact .stopped run
  | log record => exact .log record
  | formatted errand' verdict' => exact .formatted (errand ▸ errand') (verdict _ _ verdict')
  | settled errand' reply => exact .settled (errand ▸ errand') reply
  | raised errand' trouble => exact .raised (errand ▸ errand') trouble

/-- What a workspace puts off is expected. -/
theorem AllowsWork.expects {a : Agenda} {e : Event} (h : a.AllowsWork (.later e)) : a.ExpectsWork e := by
  cases h with
  | later allowed =>
      cases allowed with
      | registry due => exact .due due
      | begin run => exact .begin run
      | ended run => exact .ended run

end Agenda

namespace Workspace

/-- The workspace is where the agenda may have brought it, with all that it wants done. -/
structure KeepsTo (a : Agenda) (w : Workspace) : Prop where
  reviewer : w.reviewer.KeepsTo a
  calm : w.reviewer.outbox = []
  calls : ∀ n stage, w.calls.get? n = some stage → stage = .starting ∧ a.errand n = some .start ∨
    stage = .closing ∧ a.errand n = some .shutdown
  modest : w.loader.IsModest
  outbox : ∀ e ∈ w.outbox, a.AllowsWork e

def Effect.inquiry? : Effect → Option Registry.Inquiry
  | .ask key part plugin question => some ⟨key, part, plugin, question⟩
  | _ => none

/-- A plugin is to be asked for the format with this number. -/
def Effect.isFormat (n : Nat) : Effect → Bool
  | .ask (.host m) _ _ (.format ..) => m == n
  | _ => false

/-- The format with this number is to begin. -/
def Event.isFormat (n : Nat) : Event → Bool
  | .call m (.format ..) => m == n
  | _ => false

theorem Event.eq_of_isFormat {n : Nat} {e : Event} (h : e.isFormat n = true) :
    ∃ document token, e = .call n (.format document token) := by
  unfold isFormat at h
  split at h
  · rename_i m document token
    exact ⟨document, token, by rw [beq_iff_eq.1 h]⟩
  · cases h

/-- The questions to plugins that are to be passed on. -/
def asked (w : Workspace) : List Registry.Inquiry :=
  w.outbox.filterMap Effect.inquiry?

theorem countP_isFormat_le (n : Nat) (es : List Effect) :
    es.countP (Effect.isFormat n) ≤ (es.filterMap Effect.inquiry?).length := by
  induction es with
  | nil => exact Nat.le_refl _
  | cons e rest ih =>
      rw [List.countP_cons, List.filterMap_cons]
      cases e with
      | ask key part p question =>
          dsimp only [Effect.inquiry?]
          rw [List.length_cons]
          split <;> omega
      | _ => exact ih

variable {a : Agenda} {w : Workspace} {n : Nat}

theorem KeepsTo.emit (h : w.KeepsTo a) {e : Effect} (allowed : a.AllowsWork e) : (w.emit e).KeepsTo a where
  reviewer := h.reviewer
  calm := h.calm
  calls := h.calls
  modest := h.modest
  outbox e' he' := by
    rcases List.mem_append.1 he' with hold | hnew
    · exact h.outbox e' hold
    · exact List.mem_singleton.1 hnew ▸ allowed

theorem KeepsTo.logs (h : w.KeepsTo a) (records : List LogRecord) :
    (records.foldl (fun w record => w.emit (.log record)) w).KeepsTo a := by
  induction records generalizing w with
  | nil => exact h
  | cons record rest ih => exact ih (h.emit (.log record))

theorem KeepsTo.setCall (h : w.KeepsTo a) {stage : Stage}
    (errand : stage = .starting ∧ a.errand n = some .start ∨ stage = .closing ∧ a.errand n = some .shutdown) :
    (w.setCall n stage).KeepsTo a := by
  refine ⟨h.reviewer, h.calm, fun m stage' call => ?_, h.modest, h.outbox⟩
  change (w.calls.put n stage).get? m = some stage' at call
  rw [Keyed.get?_put] at call
  split at call
  · rename_i hm
    cases call
    exact hm ▸ errand
  · exact h.calls m stage' call

theorem KeepsTo.finish (h : w.KeepsTo a) {outcome : Outcome Reply}
    (allowed : a.AllowsWork (.finish n outcome)) : (w.finish n outcome).KeepsTo a := by
  have hdropped : KeepsTo a { w with calls := w.calls.drop n } := by
    refine ⟨h.reviewer, h.calm, fun m stage call => ?_, h.modest, h.outbox⟩
    change (w.calls.drop n).get? m = some stage at call
    rw [Keyed.get?_drop] at call
    split at call
    · cases call
    · exact h.calls m stage call
  exact hdropped.emit allowed

/-! ## The review below -/

theorem KeepsTo.absorb (h : w.KeepsTo a) {e : Review.Effect} (allowed : a.AllowsReview e) :
    (w.absorb e).KeepsTo a := by
  cases allowed with
  | registry due => exact h.emit (.later (.registry due))
  | begin run => exact h.emit (.later (.begin run))
  | ended run => exact h.emit (.later (.ended run))
  | cancel run => exact h.emit (.cancel run)
  | ask allowed => exact h.emit (.ask allowed)
  | started run => exact h.emit (.started run)
  | stopped run => exact h.emit (.stopped run)
  | log record => exact h.emit (.log record)
  | formatted => exact h
  | settled => exact h
  | counted => exact h

/-- The end of a call below ends the call that was made of the workspace. -/
theorem KeepsTo.conclude (h : w.KeepsTo a) {e : Review.Effect} (allowed : a.AllowsReview e) {ending : Ending}
    (ends : endingOf? e = some ending) :
    (w.conclude ending).KeepsTo a ∧ (w.conclude ending).asked = w.asked := by
  have hfinish (w' : Workspace) (m : Nat) (outcome : Outcome Reply) : (w'.finish m outcome).asked = w'.asked := by
    simp [Workspace.finish, asked, Workspace.emit, Effect.inquiry?]
  cases allowed with
  | formatted errand verdict =>
      rename_i m document v
      cases ends
      have hnone : w.calls.get? m = none := by
        by_contra hsome
        obtain ⟨stage, hstage⟩ := Option.ne_none_iff_exists'.1 hsome
        rcases h.calls m stage hstage with ⟨_, herrand⟩ | ⟨_, herrand⟩ <;> simp [errand] at herrand
      simp only [Workspace.conclude, hnone, passOn, Outcome.map]
      exact ⟨h.finish (.formatted errand verdict), hfinish w _ _⟩
  | settled errand =>
      rename_i m
      cases ends
      have hother : ∀ document, a.errand m ≠ some (.format document) := by simp [errand]
      cases hcall : w.calls.get? m with
      | none =>
          simp only [Workspace.conclude, hcall, passOn, Outcome.map]
          exact ⟨h.finish (.settled hother _), hfinish w _ _⟩
      | some stage =>
          rcases h.calls m stage hcall with ⟨_, herrand⟩ | ⟨rfl, _⟩
          · simp [errand] at herrand
          · simp only [Workspace.conclude, hcall]
            refine ⟨KeepsTo.finish ?_ (.settled hother _), hfinish _ _ _⟩
            have hr := h.reviewer
            exact ⟨⟨⟨hr.registry.plugins, hr.registry.calls, hr.registry.outbox⟩, hr.calm, hr.buffers, hr.runs,
              hr.calls, hr.linked, hr.outbox⟩, h.calm, h.calls, h.modest, h.outbox⟩
  | counted errand count =>
      rename_i m
      cases ends
      have hother : ∀ document, a.errand m ≠ some (.format document) := by simp [errand]
      cases hcall : w.calls.get? m with
      | none =>
          simp only [Workspace.conclude, hcall, passOn, Outcome.map]
          exact ⟨h.finish (.settled hother _), hfinish w _ _⟩
      | some stage =>
          rcases h.calls m stage hcall with ⟨rfl, _⟩ | ⟨_, herrand⟩
          · simp only [Workspace.conclude, hcall]
            refine ⟨(h.emit (.log _)).finish (.settled hother _), (hfinish _ _ _).trans ?_⟩
            simp [Workspace.log, asked, Workspace.emit, Effect.inquiry?]
          · simp [errand] at herrand
  | _ => cases ends

theorem KeepsTo.tellReview (h : w.KeepsTo a) (fair : a.IsFair) {e : Review.Event}
    (expected : a.ExpectsReview e) (heeds : w.reviewer.Heeds a e) :
    (w.tellReview e).KeepsTo a ∧ (w.tellReview e).asked = w.asked ++ (w.reviewer.step e).asked := by
  have hstep := h.reviewer.step h.calm fair expected heeds
  have habsorbed (effects : List Review.Effect) (w : Workspace) (h : w.KeepsTo a)
      (allowed : ∀ e ∈ effects, a.AllowsReview e) : (effects.foldl Workspace.absorb w).KeepsTo a ∧
        (effects.foldl Workspace.absorb w).asked = w.asked ++ effects.filterMap Review.Effect.inquiry? := by
    induction effects generalizing w with
    | nil => exact ⟨h, (List.append_nil _).symm⟩
    | cons e rest ih =>
        obtain ⟨hkeeps, hasked⟩ := ih (w.absorb e) (h.absorb (allowed e List.mem_cons_self))
          fun e' he' => allowed e' (List.mem_cons_of_mem _ he')
        refine ⟨hkeeps, hasked.trans ?_⟩
        cases e <;> simp [Workspace.absorb, asked, Workspace.emit, Effect.inquiry?, Review.Effect.inquiry?,
          List.filterMap_cons]
  have hconcluded (effects : List Review.Effect) (w : Workspace) (h : w.KeepsTo a)
      (allowed : ∀ e ∈ effects, a.AllowsReview e) :
      ((effects.filterMap endingOf?).foldl Workspace.conclude w).KeepsTo a ∧
        ((effects.filterMap endingOf?).foldl Workspace.conclude w).asked = w.asked := by
    induction effects generalizing w with
    | nil => exact ⟨h, rfl⟩
    | cons e rest ih =>
        have hrest : ∀ e' ∈ rest, a.AllowsReview e' := fun e' he' => allowed e' (List.mem_cons_of_mem _ he')
        cases hends : endingOf? e with
        | none =>
            rw [List.filterMap_cons_none hends]
            exact ih w h hrest
        | some ending =>
            rw [List.filterMap_cons_some hends, List.foldl_cons]
            obtain ⟨hkeeps, hasked⟩ := h.conclude (allowed e List.mem_cons_self) hends
            obtain ⟨hkeeps', hasked'⟩ := ih _ hkeeps hrest
            exact ⟨hkeeps', hasked'.trans hasked⟩
  have htold : KeepsTo a { w with reviewer := { w.reviewer.step e with outbox := [] } } :=
    ⟨⟨hstep.registry, hstep.calm, hstep.buffers, hstep.runs, hstep.calls, hstep.linked, fun e he => by cases he⟩,
      rfl, h.calls, h.modest, h.outbox⟩
  obtain ⟨hkeeps, hasked⟩ := habsorbed _ _ htold hstep.outbox
  obtain ⟨hkeeps', hasked'⟩ := hconcluded _ _ hkeeps hstep.outbox
  exact ⟨hkeeps', hasked'.trans hasked⟩

/-! ## Steps -/

/-- What a step is told of the formats. -/
structure Heeds (a : Agenda) (w : Workspace) (e : Event) : Prop where
  asks : ∀ n document token, e = .call n (.format document token) → a.asks n
  told : ∀ n document p i answer, e = .review (.registry (.answered (.host n) i answer)) →
    a.errand n = some (.format document) → p.IsFormatter →
    a.verdict n (Registry.formatShare p (a.buffers.find document) answer)
  unasked : ∀ n document token, e = .call n (.format document token) → (w.step e).asked = [] →
    a.verdict n { toVerdict := Verdict.merge [] }

theorem KeepsTo.rebuild (h : w.KeepsTo a) (fair : a.IsFair) (errand : a.errand n = some .start) :
    (w.rebuild n .starting none).KeepsTo a := by
  unfold Workspace.rebuild
  split
  · exact h.finish (.raised errand _)
  rename_i factories log hload
  have hmodest := h.modest factories log hload
  dsimp only
  have hlogs := h.logs (log ++ (Plugin.build w.settings w.made factories).2.2)
  generalize (log ++ (Plugin.build w.settings w.made factories).2.2).foldl _ w = w₁ at hlogs
  have hmade : KeepsTo a { w₁ with made := (Plugin.build w.settings w.made factories).2.1 } :=
    ⟨hlogs.reviewer, hlogs.calm, hlogs.calls, hlogs.modest, hlogs.outbox⟩
  have hset := hmade.setCall (.inl ⟨rfl, errand⟩)
  refine (hset.tellReview fair (.registry (.replace errand _ none (Plugin.sole_build hmodest)) ?_)
    ⟨?_, ?_, ?_⟩).1
  · intro m document options heq
    cases heq
  · intro m document token heq
    cases heq
  · intro m document p i answer heq
    cases heq
  · intro m document token heq
    cases heq

/-- What the workspace wants done has been taken from it. -/
theorem KeepsTo.rest (h : w.KeepsTo a) : KeepsTo a { w with outbox := [] } :=
  ⟨h.reviewer, h.calm, h.calls, h.modest, fun e he => by cases he⟩

theorem KeepsTo.mono {b : Agenda} (h : w.KeepsTo a) (outbox : w.outbox = []) (errand : b.errand = a.errand)
    (buffers : b.buffers = a.buffers) (verdict : ∀ n v, a.verdict n v → b.verdict n v) : w.KeepsTo b where
  reviewer := h.reviewer.mono h.calm errand buffers verdict
  calm := h.calm
  calls n stage call := errand ▸ h.calls n stage call
  modest := h.modest
  outbox e he := by rw [outbox] at he; cases he

/-- A format asks the plugins that the review asks. -/
theorem KeepsTo.format_asked (h : w.KeepsTo a) (outbox : w.outbox = []) {document : String}
    (errand : a.errand n = some (.format document)) (token : Option Token) :
    (w.step (.call n (.format document token))).asked =
      (w.reviewer.step (.call n (.format document token))).asked := by
  -- Whatever the formats may end with, the step asks the same.
  let lax : Agenda := { a with verdict := fun _ _ => True, asks := fun _ => True }
  have hlax : w.KeepsTo lax := h.mono outbox rfl rfl fun _ _ _ => trivial
  have hexpected : lax.ExpectsReview (.call n (.format document token)) := .format (a := lax) errand token
  have htold := (hlax.tellReview (fun _ _ _ _ _ _ => trivial) hexpected
    ⟨fun _ _ _ _ => trivial, fun _ _ _ _ _ _ _ _ => trivial, fun _ _ _ _ _ => trivial⟩).2
  have hnone : w.asked = [] := by rw [asked, outbox]; rfl
  rw [hnone] at htold
  exact htold

theorem KeepsTo.step (h : w.KeepsTo a) (outbox : w.outbox = []) (fair : a.IsFair) {e : Event}
    (expected : a.ExpectsWork e) (heeds : w.Heeds a e) : (w.step e).KeepsTo a := by
  -- Apart from the formats nothing is to be heeded.
  have hpasses {e' : Review.Event} (hexpected : a.ExpectsReview e')
      (hcall : ∀ n document token, e' ≠ .call n (.format document token))
      (htold : ∀ n document p i answer, e' = .registry (.answered (.host n) i answer) →
        a.errand n = some (.format document) → p.IsFormatter →
        a.verdict n (Registry.formatShare p (a.buffers.find document) answer)) :
      (w.tellReview e').KeepsTo a :=
    (h.tellReview fair hexpected ⟨fun n document token heq => absurd heq (hcall n document token), htold,
      fun n document token heq => absurd heq (hcall n document token)⟩).1
  cases expected with
  | start errand => exact h.rebuild fair errand
  | format errand token =>
      rename_i m document
      refine (h.tellReview fair (.format errand token) ⟨?_, ?_, ?_⟩).1
      · intro n document token heq
        cases heq
        exact heeds.asks _ _ _ rfl
      · intro n document p i answer heq
        cases heq
      · intro n document token heq hasked
        cases heq
        refine heeds.unasked _ _ _ rfl ?_
        rwa [h.format_asked outbox errand]
  | shutdown errand =>
      have hset := h.setCall (.inr ⟨rfl, errand⟩)
      refine (hset.tellReview fair (.shutdown errand) ⟨?_, ?_, ?_⟩).1
      · intro n document token heq
        cases heq
      · intro n document p i answer heq
        cases heq
      · intro n document token heq
        cases heq
  | due due =>
      refine hpasses (.registry (.due due) ?_) (fun m document token heq => by cases heq) ?_
      · rintro m document options rfl
        cases due
      · rintro m document p i answer heq
        cases heq
        cases due
  | answered key part answer =>
      refine hpasses (.registry (.answered key part answer) fun m document options heq => by cases heq)
        (fun m document token heq => by cases heq) ?_
      rintro m document p i answer' heq
      cases heq
      exact heeds.told m document p part answer rfl
  | stopped key part =>
      exact hpasses (.registry (.stopped key part) fun m document options heq => by cases heq)
        (fun m document token heq => by cases heq) fun m document p i answer heq => by cases heq
  | begin run =>
      exact hpasses (.begin run) (fun m document token heq => by cases heq)
        fun m document p i answer heq => by cases heq
  | ended run =>
      exact hpasses (.ended run) (fun m document token heq => by cases heq)
        fun m document p i answer heq => by cases heq

/-- A format asks one plugin at most, and nothing else asks for its sake. -/
theorem KeepsTo.countP_isFormat (h : w.KeepsTo a) (outbox : w.outbox = []) {e : Event}
    (expected : a.ExpectsWork e) (n : Nat) :
    (w.step e).outbox.countP (Effect.isFormat n) ≤ if e.isFormat n then 1 else 0 := by
  by_cases hformat : e.isFormat n = true
  · rw [if_pos hformat]
    obtain ⟨document, token, rfl⟩ := Event.eq_of_isFormat hformat
    have herrand : a.errand n = some (.format document) := by
      cases expected with
      | format errand => exact errand
    have hasked : (w.step (.call n (.format document token))).asked.length ≤ 1 := by
      rw [h.format_asked outbox herrand]
      exact h.reviewer.length_asked_format h.calm n document token
    exact Nat.le_trans (countP_isFormat_le n _) hasked
  · rw [if_neg hformat, Nat.le_zero, List.countP_eq_zero]
    let strict : Agenda := { a with verdict := fun _ _ => True, asks := fun n => e.isFormat n = true }
    have hstrict : w.KeepsTo strict := h.mono outbox rfl rfl fun _ _ _ => trivial
    have hstep := hstrict.step outbox (fun _ _ _ _ _ _ => trivial) (expected.mono rfl)
      ⟨fun m document token heq => by simp [strict, heq, Event.isFormat], fun _ _ _ _ _ _ _ _ => trivial,
        fun _ _ _ _ _ => trivial⟩
    intro effect heffect hasks
    have hallowed := hstep.outbox effect heffect
    cases hallowed with
    | ask allowed =>
        cases allowed with
        | format errand options formatter asks =>
            rw [Effect.isFormat, beq_iff_eq] at hasks
            exact hformat (hasks ▸ asks)
        | _ => cases hasks
    | _ => cases hasks

end Workspace

end Shellwright
