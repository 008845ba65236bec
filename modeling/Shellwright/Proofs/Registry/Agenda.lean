import Shellwright.Proofs.Registry.Formatting
import Shellwright.Proofs.Registry.Isolation
import Shellwright.Proofs.Registry.Replacing
/-!
# A registry that keeps to an agenda

A host starts the plugins, has documents formatted and shuts down; runs check documents in between. As long
as nothing else is asked of a registry, every call stands where its errand may have brought it, a formatter
is asked only for a format, and what a format ends with is what the formatter has said.
-/

namespace Shellwright

/-- What a call is made for. -/
inductive Errand
  | start
  | format (document : String)
  | shutdown
  deriving DecidableEq

/-- What the calls of a host are made for. -/
structure Agenda where
  errand : Nat → Option Errand
  buffers : Buffers
  /-- What a format may have ended with by now. -/
  verdict : Nat → FormatVerdict → Prop
  /-- The formats for which a formatter may be asked by now. -/
  asks : Nat → Prop

/-- Verdicts without edits are as good as one another. -/
def Agenda.IsFair (a : Agenda) : Prop :=
  ∀ n v w, a.verdict n v → v.edits = [] → w.edits = [] → a.verdict n w

/-- The plugin works with the formatter of the library. -/
def Plugin.IsFormatter (p : Plugin) : Prop :=
  ∃ tool reportFailures, p.backend = .tool (.formatter tool) reportFailures

/-- At most one of the plugins formats, and each says of every document whether it handles it. -/
structure Plugin.Sole (ps : List Plugin) : Prop where
  one : (ps.filter (·.formats)).length ≤ 1
  formatter : ∀ p ∈ ps, p.formats = true → p.IsFormatter
  willing : ∀ p ∈ ps, ∀ d text, p.supports d ≠ .error text

theorem Plugin.Sole.sublist {ps qs : List Plugin} (h : Plugin.Sole ps) (sub : qs.Sublist ps) :
    Plugin.Sole qs where
  one := Nat.le_trans (sub.filter _).length_le h.one
  formatter p hp := h.formatter p (sub.subset hp)
  willing p hp := h.willing p (sub.subset hp)

/-- Plugins under their own names, of which only those of one name format. -/
theorem Plugin.Sole.of_keyed {ps : Keyed String Plugin} (distinct : ps.keys.Nodup) (name : String)
    (named : ∀ e ∈ ps, e.2.formats = true → e.1 = name ∧ e.2.IsFormatter)
    (willing : ∀ e ∈ ps, ∀ d text, e.2.supports d ≠ .error text) : Plugin.Sole ps.values := by
  have hone : ∀ {qs : Keyed String Plugin}, qs.Sublist ps →
      (qs.values.filter (·.formats)).length ≤ 1 := by
    intro qs hsub
    -- The entries that format stand under one key, and keys are distinct.
    have hkeys : ((qs.filter fun e => e.2.formats).map Prod.fst).Nodup :=
      ((List.filter_sublist.trans hsub).map Prod.fst).nodup distinct
    have hnames : ∀ key ∈ (qs.filter fun e => e.2.formats).map Prod.fst, key = name := by
      intro key hkey
      obtain ⟨e, he, rfl⟩ := List.mem_map.1 hkey
      obtain ⟨hmem, hformats⟩ := List.mem_filter.1 he
      exact (named e (hsub.subset hmem) hformats).1
    have hlength : ((qs.filter fun e => e.2.formats).map Prod.fst).length ≤ 1 := by
      have hsame := List.eq_replicate_iff.2 ⟨rfl, hnames⟩
      rw [hsame] at hkeys
      exact List.nodup_replicate.1 hkeys
    have hvalues : qs.values.filter (·.formats) = (qs.filter fun e => e.2.formats).map Prod.snd := by
      unfold Keyed.values
      rw [List.filter_map]
      rfl
    rw [hvalues, List.length_map]
    rwa [List.length_map] at hlength
  refine ⟨hone (List.Sublist.refl _), fun p hp hformats => ?_, fun p hp => ?_⟩
  · obtain ⟨e, he, rfl⟩ := List.mem_map.1 hp
    exact (named e he hformats).2
  · obtain ⟨e, he, rfl⟩ := List.mem_map.1 hp
    exact willing e he

namespace Agenda

open Registry

/-- Where a call of the registry may wait. -/
inductive Admits (a : Agenda) : CallKey → Stage → Prop
  | queued {n : Nat} (errand : a.errand n = some .start) (plugins : List Plugin)
      (names : Option (List String)) (sole : Plugin.Sole (byName plugins).values) :
      Admits a (.host n) (.queued (.replace plugins names))
  | probing {n : Nat} (errand : a.errand n = some .start) (fresh : Keyed String Plugin)
      (probes : List (String × Progress Bool)) (sole : Plugin.Sole fresh.values) :
      Admits a (.host n) (.probing (.replace fresh) probes)
  | formatting {n : Nat} {document : String} (errand : a.errand n = some (.format document))
      (options : CallOptions) (p : Plugin) (formatter : p.IsFormatter) :
      Admits a (.host n) (.formatting document options p [] [])
  | checking (n : Nat) (document : String) (options : CallOptions)
      (parts : List (Plugin × Progress Verdict)) :
      Admits a (.run n) (.checking document options parts)

/-- What a registry may want done. -/
inductive Allows (a : Agenda) : Effect → Prop
  | later {e : Event} (due : e.IsDue) : Allows a (.later e)
  | probe {n : Nat} (errand : a.errand n = some .start) (part : Nat) (p : Plugin) :
      Allows a (.ask (.host n) part p .available)
  | format {n : Nat} {document : String} (errand : a.errand n = some (.format document))
      (options : CallOptions) {p : Plugin} (formatter : p.IsFormatter) (asks : a.asks n) :
      Allows a (.ask (.host n) 0 p (.format document options))
  | check (n part : Nat) (p : Plugin) (document : String) (options : CallOptions) :
      Allows a (.ask (.run n) part p (.check document options))
  | log (record : LogRecord) : Allows a (.log record)
  | counted {n : Nat} (errand : a.errand n = some .start) (k : Nat) :
      Allows a (.finish (.host n) (.done (.count k)))
  | formatted {n : Nat} {document : String} (errand : a.errand n = some (.format document))
      {v : FormatVerdict} (verdict : a.verdict n v) :
      Allows a (.finish (.host n) (.done (.formatted v)))
  | checked (n : Nat) (v : Verdict) : Allows a (.finish (.run n) (.done (.checked v)))

/-- What may happen to a registry. -/
inductive Expects (a : Agenda) : Event → Prop
  | replace {n : Nat} (errand : a.errand n = some .start) (plugins : List Plugin)
      (names : Option (List String)) (sole : Plugin.Sole (byName plugins).values) :
      Expects a (.call (.host n) (.replace plugins names))
  | format {n : Nat} {document : String} (errand : a.errand n = some (.format document))
      (options : CallOptions) : Expects a (.call (.host n) (.format document options))
  | check (n : Nat) (document : String) (options : CallOptions) :
      Expects a (.call (.run n) (.check document options))
  | due {e : Event} (due : e.IsDue) : Expects a e
  | answered (key : CallKey) (part : Nat) (answer : Answer) : Expects a (.answered key part answer)
  | stopped (key : CallKey) (part : Nat) : Expects a (.stopped key part)

end Agenda

namespace Registry

/-- The registry is where the agenda may have brought it, with all that it wants done. -/
structure KeepsTo (a : Agenda) (r : Registry) : Prop where
  plugins : Plugin.Sole r.plugins.values
  calls : ∀ key c, r.calls.get? key = some c → c.aborting = false ∧ a.Admits key c.stage
  outbox : ∀ e ∈ r.outbox, a.Allows e

variable {a : Agenda} {r : Registry} {key : CallKey} {n : Nat} {document : String}
  {options : CallOptions} {buffers : Buffers}

theorem KeepsTo.emit (h : r.KeepsTo a) {e : Effect} (allowed : a.Allows e) : (r.emit e).KeepsTo a where
  plugins := h.plugins
  calls := h.calls
  outbox e' he' := by
    rcases List.mem_append.1 he' with hold | hnew
    · exact h.outbox e' hold
    · exact List.mem_singleton.1 hnew ▸ allowed

theorem KeepsTo.log (h : r.KeepsTo a) (level : LogLevel) (text : String) : (r.log level text).KeepsTo a :=
  h.emit (.log _)

theorem KeepsTo.begins (h : r.KeepsTo a) (key : CallKey) (parts : List Nat) :
    (parts.foldl (fun r i => r.emit (.later (.begin key i))) r).KeepsTo a := by
  induction parts generalizing r with
  | nil => exact h
  | cons i rest ih => exact ih (h.emit (.later (e := .begin key i) trivial))

theorem KeepsTo.setCall (h : r.KeepsTo a) {stage : Stage} (admitted : a.Admits key stage) :
    (r.setCall key ⟨stage, false⟩).KeepsTo a where
  plugins := h.plugins
  calls k c call := by
    change (r.calls.put key ⟨stage, false⟩).get? k = some c at call
    rw [Keyed.get?_put] at call
    split at call
    · rename_i hkey
      cases call
      exact ⟨rfl, hkey ▸ admitted⟩
    · exact h.calls k c call
  outbox := h.outbox

theorem KeepsTo.finish (h : r.KeepsTo a) {outcome : Outcome Reply}
    (allowed : a.Allows (.finish key outcome)) : (r.finish key outcome).KeepsTo a := by
  have hdropped : KeepsTo a { r with calls := r.calls.drop key } := by
    refine ⟨h.plugins, fun k c call => ?_, h.outbox⟩
    change (r.calls.drop key).get? k = some c at call
    rw [Keyed.get?_drop] at call
    split at call
    · cases call
    · exact h.calls k c call
  have hended := hdropped.emit allowed
  unfold Registry.finish
  dsimp only
  split
  · unfold release
    split
    · exact ⟨hended.plugins, hended.calls, hended.outbox⟩
    · rename_i next rest _
      have hpassed (lock : Lock) : KeepsTo a { { r with calls := r.calls.drop key }.emit
          (.finish key outcome) with lock := lock } := ⟨hended.plugins, hended.calls, hended.outbox⟩
      exact (hpassed ⟨some next, rest⟩).emit (.later (e := .granted next) trivial)
  · exact hended

/-! ## The start of the plugins -/

theorem KeepsTo.completeProbes (h : r.KeepsTo a) (errand : a.errand n = some .start)
    {fresh : Keyed String Plugin} (sole : Plugin.Sole fresh.values)
    (probes : List (String × Progress Bool)) :
    (r.completeProbes (.host n) (.replace fresh) probes).KeepsTo a := by
  have hfresh : KeepsTo a { r with plugins := fresh, active := probed probes true } :=
    ⟨sole, h.calls, h.outbox⟩
  exact (hfresh.log _ _).finish (.counted errand _)

theorem KeepsTo.startProbes (h : r.KeepsTo a) (errand : a.errand n = some .start)
    {fresh : Keyed String Plugin} (sole : Plugin.Sole fresh.values) (names : List String) :
    (r.startProbes (.host n) (.replace fresh) names).KeepsTo a := by
  unfold Registry.startProbes
  split
  · exact h.completeProbes errand sole []
  · exact (h.setCall (.probing errand fresh _ sole)).begins _ _

theorem KeepsTo.settleProbe (h : r.KeepsTo a) (errand : a.errand n = some .start)
    {fresh : Keyed String Plugin} (sole : Plugin.Sole fresh.values) (stage : Stage)
    (probes : List (String × Progress Bool)) (i : Nat) (ok : Bool) :
    (r.settleProbe (.host n) ⟨stage, false⟩ (.replace fresh) probes i ok).KeepsTo a := by
  have hset := h.setCall (.probing errand fresh (setProbe probes i (.settled ok)) sole)
  unfold Registry.settleProbe
  dsimp only
  split
  · exact hset.emit (.later trivial)
  · exact hset

theorem KeepsTo.enter (h : r.KeepsTo a) (errand : a.errand n = some .start) {plugins : List Plugin}
    (sole : Plugin.Sole (byName plugins).values) (names : Option (List String)) :
    (r.enter (.host n) (.replace plugins names)).KeepsTo a :=
  h.startProbes errand sole _

theorem KeepsTo.acquire (h : r.KeepsTo a) (errand : a.errand n = some .start) {plugins : List Plugin}
    (sole : Plugin.Sole (byName plugins).values) (names : Option (List String)) :
    (r.acquire (.host n) (.replace plugins names)).KeepsTo a := by
  have hlock (lock : Lock) : KeepsTo a { r with lock := lock } := ⟨h.plugins, h.calls, h.outbox⟩
  unfold Registry.acquire
  split
  · exact (hlock _).enter errand sole names
  · exact (hlock _).setCall (.queued errand plugins names sole)

theorem KeepsTo.freshPlugins (h : r.KeepsTo a) (fresh : Keyed String Plugin) (plugins : List Plugin) :
    (r.freshPlugins fresh plugins).1.KeepsTo a := by
  induction plugins generalizing r fresh with
  | nil => exact h
  | cons p rest ih =>
      unfold Registry.freshPlugins
      split
      · exact ih (h.log _ _) _
      · exact ih h _

/-! ## Formats -/

/-- The active plugins that handle a document are among all. -/
theorem KeepsTo.snapshot (h : r.KeepsTo a) (d : TextDocument) :
    ∃ ps, r.snapshot d = .ok ps ∧ ps.Sublist r.plugins.values := by
  have hactive : (r.plugins.values.filter fun p => r.isActive p.name).Sublist r.plugins.values :=
    List.filter_sublist
  refine ⟨_, supporting_eq fun p hp text => ?_, List.filter_sublist.trans hactive⟩
  exact h.plugins.willing p (hactive.subset hp) d text

/-- One formatter may be asked, and no other after it. -/
theorem KeepsTo.startFormat (h : r.KeepsTo a) (calm : r.outbox = [])
    (errand : a.errand n = some (.format document)) (asks : a.asks n)
    (unasked : (r.startFormat buffers (.host n) document options).asks = [] →
      a.verdict n { toVerdict := Verdict.merge [] }) :
    (r.startFormat buffers (.host n) document options).KeepsTo a := by
  obtain ⟨ps, hsnapshot, hsub⟩ := h.snapshot (buffers.find document)
  have hsole := h.plugins.sublist ((List.filter_sublist (p := (·.formats))).trans hsub)
  have hformat : ∀ p ∈ ps.filter (·.formats), p.formats = true := fun p hp => (List.mem_filter.1 hp).2
  have hone := (h.plugins.sublist hsub).one
  unfold Registry.startFormat at unasked ⊢
  rw [hsnapshot] at unasked ⊢
  dsimp only at unasked ⊢
  cases hformatters : ps.filter (·.formats) with
  | nil =>
      rw [hformatters] at unasked
      refine h.finish (.formatted errand (unasked ?_))
      exact ((Leaves.start calm).finish (.host n) _).asks
  | cons p rest =>
      rw [hformatters] at hsole hformat hone
      have hrest : rest = [] := List.length_eq_zero_iff.1 (by simpa using hone)
      subst hrest
      have hmem : p ∈ [p] := List.mem_singleton_self p
      have hformatter := hsole.formatter p hmem (hformat p hmem)
      exact (h.setCall (.formatting errand options p hformatter)).emit
        (.format errand options hformatter asks)

theorem KeepsTo.formatVerdict (h : r.KeepsTo a) (buffers : Buffers) (p : Plugin) (document : String) (answer : Answer) :
    (r.formatVerdict buffers p document answer).1.KeepsTo a := by
  cases answer with
  | raised text => exact h.log _ _
  | _ => exact h

theorem KeepsTo.settleFormat (h : r.KeepsTo a) (fair : a.IsFair)
    (errand : a.errand n = some (.format document)) {p : Plugin} {answer : Answer}
    (told : a.verdict n (formatShare p (buffers.find document) answer)) :
    (r.settleFormat buffers (.host n) document options p [] [] answer).KeepsTo a := by
  have hverdict := h.formatVerdict buffers p document answer
  have hshare := formatVerdict_share r buffers p document answer
  unfold Registry.settleFormat
  simp only [hshare]
  split
  · rename_i hquiet
    exact hverdict.finish (.formatted errand (fair n _ _ told (List.isEmpty_iff.1 hquiet) rfl))
  · exact hverdict.finish (.formatted errand told)

/-! ## Checks -/

theorem KeepsTo.startCheck (h : r.KeepsTo a) (n : Nat) (document : String) (options : CallOptions) :
    (r.startCheck buffers (.run n) document options).KeepsTo a := by
  obtain ⟨ps, hsnapshot, _⟩ := h.snapshot (buffers.find document)
  unfold Registry.startCheck
  rw [hsnapshot]
  cases ps with
  | nil => exact h.finish (.checked n _)
  | cons p rest => exact (h.setCall (.checking n document options _)).begins _ _

theorem KeepsTo.checkVerdict (h : r.KeepsTo a) (buffers : Buffers) (p : Plugin) (document : String) (answer : Answer) :
    (r.checkVerdict buffers p document answer).1.KeepsTo a := by
  cases answer with
  | raised text => exact h.log _ _
  | _ => exact h

theorem KeepsTo.availability (h : r.KeepsTo a) (name : String) (answer : Answer) :
    (r.availability name answer).1.KeepsTo a := by
  unfold Registry.availability
  split
  · exact h
  · exact h.log _ _
  · exact h.log _ _

/-! ## Steps -/

theorem KeepsTo.begin (h : r.KeepsTo a) {i : Nat} {stage : Stage} (admitted : a.Admits key stage) :
    (r.begin key i ⟨stage, false⟩).KeepsTo a := by
  cases admitted with
  | queued => exact h
  | formatting => exact h
  | probing errand fresh probes sole =>
      simp only [Registry.begin, Bool.false_eq_true, if_false]
      split
      · exact h
      · split
        · exact KeepsTo.settleProbe (h.log _ _) errand sole _ _ _ _
        · exact (h.setCall (.probing errand fresh _ sole)).emit (.probe errand _ _)
  | checking n document options parts =>
      simp only [Registry.begin, Bool.false_eq_true, if_false]
      split
      · exact h
      · exact (h.setCall (.checking n document options _)).emit (.check n _ _ _ _)

theorem KeepsTo.answered (h : r.KeepsTo a) (fair : a.IsFair) {i : Nat} {stage : Stage} {answer : Answer}
    (admitted : a.Admits key stage)
    (told : ∀ n document p, key = .host n → a.errand n = some (.format document) → p.IsFormatter →
      a.verdict n (formatShare p (buffers.find document) answer)) :
    (r.answered buffers key i ⟨stage, false⟩ answer).KeepsTo a := by
  cases admitted with
  | queued => exact h
  | formatting errand options p formatter => exact h.settleFormat fair errand (told _ _ p rfl errand formatter)
  | probing errand fresh probes sole =>
      simp only [Registry.answered]
      split
      · exact h
      · exact (h.availability _ answer).settleProbe errand sole _ _ _ _
  | checking n document options parts =>
      simp only [Registry.answered]
      split
      · exact h
      · rename_i p _ _
        have hset := (h.checkVerdict buffers p document answer).setCall
          (.checking n document options
            (setPart parts i (.settled (r.checkVerdict buffers p document answer).2)))
        split
        · exact hset.emit (.later trivial)
        · exact hset

theorem KeepsTo.gathered (h : r.KeepsTo a) {stage : Stage} (admitted : a.Admits key stage) :
    (r.gathered key ⟨stage, false⟩).KeepsTo a := by
  cases admitted with
  | queued => exact h
  | formatting => exact h
  | probing errand fresh probes sole => exact h.completeProbes errand sole probes
  | checking n document options parts => exact h.finish (.checked n _)

theorem KeepsTo.withCall (h : r.KeepsTo a) {f : Call → Registry}
    (goes : ∀ stage, a.Admits key stage → (f ⟨stage, false⟩).KeepsTo a) :
    (r.withCall key f).KeepsTo a := by
  unfold Registry.withCall
  split
  · rename_i c call
    obtain ⟨stage, aborting⟩ := c
    obtain ⟨haborting, hadmitted⟩ := h.calls key _ call
    cases haborting
    exact goes stage hadmitted
  · exact h

/-- What a step is told of the formats: a formatter has answered, or nobody is there to be asked. -/
structure Heeds (a : Agenda) (r : Registry) (buffers : Buffers) (e : Event) : Prop where
  asks : ∀ n document options, e = .call (.host n) (.format document options) → a.asks n
  told : ∀ n document p i answer, e = .answered (.host n) i answer →
    a.errand n = some (.format document) → p.IsFormatter →
    a.verdict n (formatShare p (buffers.find document) answer)
  unasked : ∀ n document options, e = .call (.host n) (.format document options) →
    (r.step buffers e).asks = [] → a.verdict n { toVerdict := Verdict.merge [] }

theorem KeepsTo.step (h : r.KeepsTo a) (calm : r.outbox = []) (fair : a.IsFair) {e : Event}
    (expected : a.Expects e) (heeds : r.Heeds a buffers e) : (r.step buffers e).KeepsTo a := by
  cases expected with
  | replace errand plugins names sole => exact (h.freshPlugins [] plugins).acquire errand sole names
  | format errand options =>
      exact h.startFormat calm errand (heeds.asks _ _ _ rfl) (heeds.unasked _ _ _ rfl)
  | check n document options => exact h.startCheck n document options
  | answered key part answer =>
      refine h.withCall fun stage admitted => h.answered fair admitted fun n document p hkey => ?_
      exact heeds.told n document p part answer (by rw [hkey])
  | stopped key part => exact h.withCall fun stage _ => h
  | due due =>
      cases e with
      | granted key =>
          refine h.withCall fun stage admitted => ?_
          cases admitted with
          | queued errand plugins names sole => exact h.enter errand sole names
          | _ => exact h
      | begin key i => exact h.withCall fun stage admitted => h.begin admitted
      | gathered key => exact h.withCall fun stage admitted => h.gathered admitted
      | _ => cases due

theorem KeepsTo.mono {b : Agenda} (h : r.KeepsTo a) (calm : r.outbox = []) (errand : b.errand = a.errand) :
    r.KeepsTo b := by
  refine ⟨h.plugins, fun key ⟨stage, aborting⟩ call => ?_, fun e he => by rw [calm] at he; cases he⟩
  obtain ⟨haborting, hadmitted⟩ := h.calls key _ call
  refine ⟨haborting, ?_⟩
  cases hadmitted with
  | queued errand' plugins names sole => exact .queued (errand ▸ errand') plugins names sole
  | probing errand' fresh probes sole => exact .probing (errand ▸ errand') fresh probes sole
  | formatting errand' options p formatter => exact .formatting (errand ▸ errand') options p formatter
  | checking n document options parts => exact .checking n document options parts

/-- No more than one plugin is asked when a format begins. -/
theorem length_asks_format (calm : r.outbox = []) (buffers : Buffers) (key : CallKey)
    (document : String) (options : CallOptions) :
    (r.step buffers (.call key (.format document options))).asks.length ≤ 1 := by
  cases startFormat_opens calm buffers key document options with
  | raised text asked => simp [asked]
  | asks plugins snapshot turns =>
      generalize plugins.filter (·.formats) = formatters at turns
      cases turns with
      | asks p rest consults asked => simp [asked]
      | ends asked => simp [asked]

end Registry

end Shellwright
