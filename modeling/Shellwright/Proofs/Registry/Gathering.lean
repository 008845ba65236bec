import Mathlib.Data.List.Perm.Basic
import Shellwright.Proofs.Registry.Ends
import Shellwright.Proofs.Registry.History
/-!
# Checks under way

The parts of a check and what is still to come of it. At any moment each part is to be asked, is being
asked or has answered, and the check is gathered once all have answered.
-/

namespace Shellwright.Registry

/-! ## Parts -/

/-- The verdict is one error, in the name of the plugin. -/
structure ErrorOf (p : Plugin) (v : Verdict) : Prop where
  flagged : v.hasErrors = true
  single : ∃ x : Diagnostic, v.diagnostics = [x] ∧ x.severity = .error ∧ x.source = p.name

/-- What an answer adds to a check: all that the plugin says, or one error in its name when it raises
one. -/
structure Contributes (p : Plugin) (a : Answer) (v : Verdict) : Prop where
  heard : ∀ said, a = .checked said → v = said
  raised : ∀ text, a = .raised text → ErrorOf p v

theorem checkVerdict_contributes (r : Registry) (buffers : Buffers) (p : Plugin) (document : String)
    (a : Answer) : Contributes p a (r.checkVerdict buffers p document a).2 := by
  cases a with
  | checked said => exact ⟨by rintro _ ⟨⟩; rfl, nofun⟩
  | raised text => exact ⟨nofun, by rintro _ ⟨⟩; exact ⟨rfl, _, rfl, rfl, rfl⟩⟩
  | available yes => exact ⟨nofun, nofun⟩
  | formatted v => exact ⟨nofun, nofun⟩

theorem getElem?_setPart (parts : List (Plugin × Progress Verdict)) (i j : Nat)
    (progress : Progress Verdict) :
    (setPart parts i progress)[j]? =
      parts[j]?.map fun entry => if i = j then (entry.1, progress) else entry := by
  unfold setPart
  rw [List.getElem?_modify]
  cases parts[j]? with
  | none => rfl
  | some entry => by_cases hij : i = j <;> simp [hij]

theorem getElem?_setPart_self {parts : List (Plugin × Progress Verdict)} {i : Nat} {p : Plugin}
    {old : Progress Verdict} (part : parts[i]? = some (p, old)) (progress : Progress Verdict) :
    (setPart parts i progress)[i]? = some (p, progress) := by
  rw [getElem?_setPart, part]
  simp

theorem getElem?_setPart_of_ne (parts : List (Plugin × Progress Verdict)) {i j : Nat}
    (progress : Progress Verdict) (h : j ≠ i) : (setPart parts i progress)[j]? = parts[j]? := by
  rw [getElem?_setPart]
  simp [Ne.symm h]

theorem map_fst_setPart (parts : List (Plugin × Progress Verdict)) (i : Nat)
    (progress : Progress Verdict) :
    (setPart parts i progress).map Prod.fst = parts.map Prod.fst := by
  refine List.ext_getElem? fun j => ?_
  rw [List.getElem?_map, getElem?_setPart, List.getElem?_map, Option.map_map]
  congr 1
  funext entry
  by_cases hij : i = j <;> simp [hij]

/-- The parts of the check of a document: `begins` are to be asked, `asks` are open and `answers` have
been given. -/
structure Parts (key : CallKey) (question : Question) (parts : List (Plugin × Progress Verdict))
    (begins : List Nat) (asks : List Inquiry) (answers : List (Inquiry × Answer)) : Prop where
  waiting : ∀ i, i ∈ begins ↔ ∃ p, parts[i]? = some (p, .waiting)
  once : begins.Nodup
  asked : ∀ i, i ∈ asks.map (·.part) ↔ ∃ p, parts[i]? = some (p, .asked)
  single : (asks.map (·.part)).Nodup
  put : ∀ q ∈ asks, ∃ p, parts[q.part]? = some (p, .asked) ∧ q = ⟨key, q.part, p, question⟩
  answered : ∀ i, i ∈ answers.map (·.1.part) ↔ ∃ p v, parts[i]? = some (p, .settled v)
  unique : (answers.map (·.1.part)).Nodup
  settled : ∀ i p v, parts[i]? = some (p, .settled v) →
    ∃ a, (⟨key, i, p, question⟩, a) ∈ answers ∧ Contributes p a v

section Parts

variable {key : CallKey} {question : Question} {parts : List (Plugin × Progress Verdict)}
  {begins begins' : List Nat} {asks asks' : List Inquiry} {answers : List (Inquiry × Answer)}
  {i : Nat} {p : Plugin}

theorem Parts.perm (h : Parts key question parts begins asks answers) (begins_perm : begins.Perm begins')
    (asks_perm : asks.Perm asks') : Parts key question parts begins' asks' answers where
  waiting i := begins_perm.mem_iff.symm.trans (h.waiting i)
  once := begins_perm.nodup h.once
  asked i := (asks_perm.map _).mem_iff.symm.trans (h.asked i)
  single := (asks_perm.map _).nodup h.single
  put q hq := h.put q (asks_perm.mem_iff.2 hq)
  answered := h.answered
  unique := h.unique
  settled := h.settled

/-- All parts are still to be asked. -/
theorem Parts.start (key : CallKey) (question : Question) (ps : List Plugin) :
    Parts key question (ps.map (·, .waiting)) (List.range ps.length) [] [] where
  waiting i := by
    rw [List.mem_range, List.getElem?_map]
    constructor
    · intro hlt
      exact ⟨ps[i], by rw [List.getElem?_eq_getElem hlt]; rfl⟩
    · rintro ⟨p, hp⟩
      obtain ⟨q, hq, _⟩ := Option.map_eq_some_iff.1 hp
      exact (List.getElem?_eq_some_iff.1 hq).1
  once := List.nodup_range
  asked i := by
    refine ⟨nofun, ?_⟩
    rintro ⟨p, hp⟩
    rw [List.getElem?_map] at hp
    obtain ⟨_, _, heq⟩ := Option.map_eq_some_iff.1 hp
    cases heq
  single := List.nodup_nil
  put q hq := nomatch hq
  answered i := by
    refine ⟨nofun, ?_⟩
    rintro ⟨p, v, hp⟩
    rw [List.getElem?_map] at hp
    obtain ⟨_, _, heq⟩ := Option.map_eq_some_iff.1 hp
    cases heq
  unique := List.nodup_nil
  settled i p v hp := by
    rw [List.getElem?_map] at hp
    obtain ⟨_, _, heq⟩ := Option.map_eq_some_iff.1 hp
    cases heq

/-- A part is asked. -/
theorem Parts.ask (h : Parts key question parts (i :: begins) asks answers)
    (part : parts[i]? = some (p, .waiting)) :
    Parts key question (setPart parts i .asked) begins (asks ++ [⟨key, i, p, question⟩]) answers := by
  obtain ⟨hbegun, honce⟩ := List.nodup_cons.1 h.once
  have hself := getElem?_setPart_self part .asked
  have hother {j : Nat} (hj : j ≠ i) := getElem?_setPart_of_ne parts .asked hj
  refine ⟨fun j => ?_, honce, fun j => ?_, ?_, fun q hq => ?_, fun j => ?_, h.unique,
    fun j p' v hj => ?_⟩
  · by_cases hj : j = i
    · subst hj
      simp [hself, hbegun]
    · rw [hother hj, ← h.waiting j, List.mem_cons]
      exact ⟨.inr, fun hmem => hmem.resolve_left hj⟩
  · rw [List.map_append, List.mem_append]
    by_cases hj : j = i
    · subst hj
      simp [hself]
    · rw [hother hj, ← h.asked j]
      simp [hj]
  · rw [List.map_append, List.nodup_append]
    refine ⟨h.single, by simp, ?_⟩
    rintro j hj j' hj' rfl
    obtain ⟨p', hasked⟩ := (h.asked j).1 hj
    obtain rfl : j = i := by simpa using hj'
    rw [part] at hasked
    cases hasked
  · rcases List.mem_append.1 hq with hq | hq
    · obtain ⟨p', hasked, heq⟩ := h.put q hq
      refine ⟨p', ?_, heq⟩
      rw [hother]
      · exact hasked
      · intro hqi
        rw [hqi, part] at hasked
        cases hasked
    · obtain rfl := List.mem_singleton.1 hq
      exact ⟨p, hself, rfl⟩
  · by_cases hj : j = i
    · subst hj
      rw [h.answered j, part, hself]
      simp
    · rw [hother hj, ← h.answered j]
  · by_cases hji : j = i
    · subst hji
      rw [hself] at hj
      cases hj
    · rw [hother hji] at hj
      exact h.settled j p' v hj

/-- A part has answered. -/
theorem Parts.settle {q : Inquiry} (h : Parts key question parts begins (q :: asks) answers)
    {a : Answer} {v : Verdict} (contributes : Contributes q.plugin a v) :
    Parts key question (setPart parts q.part (.settled v)) begins asks (answers ++ [(q, a)]) := by
  obtain ⟨p, part, hq⟩ := h.put q List.mem_cons_self
  have hself := getElem?_setPart_self part (.settled v)
  have hother {j : Nat} (hj : j ≠ q.part) := getElem?_setPart_of_ne parts (.settled v) hj
  obtain ⟨hopen, hsingle⟩ := List.nodup_cons.1 h.single
  refine ⟨fun j => ?_, h.once, fun j => ?_, hsingle, fun q' hq' => ?_, fun j => ?_, ?_,
    fun j p' v' hj => ?_⟩
  · by_cases hj : j = q.part
    · subst hj
      rw [h.waiting, part, hself]
      simp
    · rw [hother hj, ← h.waiting j]
  · by_cases hj : j = q.part
    · subst hj
      rw [hself]
      simpa using hopen
    · rw [hother hj, ← h.asked j, List.map_cons, List.mem_cons]
      exact ⟨.inr, fun hmem => hmem.resolve_left hj⟩
  · obtain ⟨p', hasked, heq⟩ := h.put q' (List.mem_cons_of_mem _ hq')
    refine ⟨p', ?_, heq⟩
    rw [hother]
    · exact hasked
    · exact fun hpart => hopen (List.mem_map.2 ⟨q', hq', hpart⟩)
  · rw [List.map_append, List.mem_append]
    by_cases hj : j = q.part
    · subst hj
      simp [hself]
    · rw [hother hj, ← h.answered j]
      simp [hj]
  · rw [List.map_append, List.nodup_append]
    refine ⟨h.unique, by simp, ?_⟩
    rintro j hj j' hj' rfl
    obtain ⟨p', v', hsettled⟩ := (h.answered j).1 hj
    obtain rfl : j = q.part := by simpa using hj'
    rw [part] at hsettled
    cases hsettled
  · by_cases hjq : j = q.part
    · subst hjq
      rw [hself] at hj
      cases hj
      have hplugin : q.plugin = p := congrArg Inquiry.plugin hq
      exact ⟨a, by rw [← hq]; simp, hplugin ▸ contributes⟩
    · rw [hother hjq] at hj
      obtain ⟨a', hmem, hcontributes⟩ := h.settled j p' v' hj
      exact ⟨a', List.mem_append_left _ hmem, hcontributes⟩

/-- A check in which not all have answered has something left to be asked or to be answered. -/
theorem Parts.unfinished (h : Parts key question parts begins asks answers)
    (open' : allChecked parts = false) : begins ≠ [] ∨ asks ≠ [] := by
  obtain ⟨entry, hmem, hunsettled⟩ := List.all_eq_false.1 open'
  obtain ⟨i, hi⟩ := List.mem_iff_getElem?.1 hmem
  obtain ⟨p, progress⟩ := entry
  cases progress with
  | waiting =>
      have hbegin := (h.waiting i).2 ⟨p, hi⟩
      exact .inl fun hnil => by simp [hnil] at hbegin
  | asked =>
      have hask := (h.asked i).2 ⟨p, hi⟩
      exact .inr fun hnil => by simp [hnil] at hask
  | settled v => exact absurd rfl hunsettled

theorem not_allChecked {progress : Progress Verdict} (part : parts[i]? = some (p, progress))
    (unsettled : progress.result? = none) : allChecked parts = false :=
  List.all_eq_false.2 ⟨_, List.mem_of_getElem? part, by simp [unsettled]⟩

/-- When all parts have answered there is one verdict for each. -/
theorem settled_of_allChecked (h : allChecked parts = true) :
    ∃ vs : List Verdict, parts.filterMap (·.2.result?) = vs ∧ parts.map (·.2) = vs.map .settled := by
  induction parts with
  | nil => exact ⟨[], rfl, rfl⟩
  | cons entry rest ih =>
      obtain ⟨p, progress⟩ := entry
      obtain ⟨hfirst, hrest⟩ := Bool.and_eq_true_iff.1 h
      obtain ⟨vs, hresults, hprogress⟩ := ih hrest
      cases progress with
      | settled v => exact ⟨v :: vs, congrArg (v :: ·) hresults, by simp [hprogress]⟩
      | waiting => cases hfirst
      | asked => cases hfirst

end Parts

/-! ## The world of a check -/

def Event.gathers (key : CallKey) : Event → Bool
  | .gathered k => k = key
  | _ => false

/-- The event calls the call off, or is what comes of that. -/
def Event.callsOff (key : CallKey) : Event → Bool
  | .abort k => k = key
  | .stopped k _ => k = key
  | _ => false

namespace World

/-- How often the parts of a call are still to be gathered. -/
def gatherings (w : World) (key : CallKey) : Nat :=
  w.due.countP (·.gathers key)

/-- The answers to a call that come with a move. -/
def replies (w : World) (key : CallKey) : Move → List (Inquiry × Answer)
  | .answer n a => (w.inquiries[n]?.filter (·.key = key)).toList.map (·, a)
  | _ => []

/-- The calls that end with a move. -/
def endings (w : World) (m : Move) : List (CallKey × Outcome Reply) :=
  match w.event? m with
  | some e => ((w.spend m).registry.step (w.spend m).buffers e).finishes
  | none => []

/-- The questions of a call that are put with a move. -/
def puts (w : World) (key : CallKey) (m : Move) : List Inquiry :=
  match w.event? m with
  | some e => ((w.spend m).registry.step (w.spend m).buffers e).asks.filter (·.key = key)
  | none => []

/-- What concerns the call is in both worlds the same, in any order. -/
structure Matches (w w' : World) (key : CallKey) : Prop where
  call : w'.registry.calls.get? key = w.registry.calls.get? key
  begins : (w.beginning key).Perm (w'.beginning key)
  asks : (w.inquiriesOf key).Perm (w'.inquiriesOf key)
  gatherings : w'.gatherings key = w.gatherings key

/-- Nothing is due to the call, and nothing has been asked for it. -/
structure Bare (w : World) (key : CallKey) : Prop where
  begun : w.beginning key = []
  asked : w.inquiriesOf key = []
  gathered : w.gatherings key = 0

/-- The plugins `ps` are being asked to check a document. -/
structure Gathers (w : World) (key : CallKey) (document : String) (options : CallOptions)
    (ps : List Plugin) (parts : List (Plugin × Progress Verdict))
    (answers : List (Inquiry × Answer)) : Prop where
  call : w.registry.calls.get? key = some ⟨.checking document options parts, false⟩
  plugins : parts.map Prod.fst = ps
  state : Parts key (.check document options) parts (w.beginning key) (w.inquiriesOf key) answers
  gathered : w.gatherings key = if allChecked parts then 1 else 0

variable {w w' w'' : World} {key : CallKey} {m : Move} {e : Event} {r' : Registry}
  {document : String} {options : CallOptions} {ps : List Plugin}
  {parts : List (Plugin × Progress Verdict)} {answers : List (Inquiry × Answer)}

theorem Matches.trans (h : w.Matches w' key) (h' : w'.Matches w'' key) : w.Matches w'' key :=
  ⟨h'.call.trans h.call, h.begins.trans h'.begins, h.asks.trans h'.asks,
    h'.gatherings.trans h.gatherings⟩

theorem Gathers.frame (h : w.Gathers key document options ps parts answers)
    (same : w.Matches w' key) : w'.Gathers key document options ps parts answers :=
  ⟨same.call.trans h.call, h.plugins, h.state.perm same.begins same.asks,
    same.gatherings.trans h.gathered⟩

theorem Orderly.bare_of_new (h : w.Orderly) (new : key ∉ w.known) : w.Bare key where
  begun := beginning_eq_nil fun e he k hkey heq => new (heq ▸ (h.due e he).2 k hkey)
  asked := inquiriesOf_eq_nil fun q hq heq => new (heq ▸ h.inquiries q hq)
  gathered := by
    refine List.countP_eq_zero.2 fun e he hgathers => ?_
    cases e with
    | gathered k =>
        obtain rfl : k = key := by simpa [Event.gathers] using hgathers
        exact new ((h.due _ he).2 k rfl)
    | _ => cases hgathers

theorem perm_of_getElem? {α : Type} {l : List α} {n : Nat} {a : α} (h : l[n]? = some a) :
    l.Perm (a :: l.eraseIdx n) := by
  obtain ⟨hlt, rfl⟩ := List.getElem?_eq_some_iff.1 h
  exact (List.getElem_cons_eraseIdx_perm hlt).symm

theorem eraseIdx_of_getElem?_none {α : Type} {l : List α} {n : Nat} (h : l[n]? = none) :
    l.eraseIdx n = l :=
  List.eraseIdx_of_length_le (List.getElem?_eq_none_iff.1 h)

/-- What is taken from a world does not concern the call. -/
theorem spend_matches
    (due : ∀ n e, m = .next n → w.due[n]? = some e →
      e.beginning? key = none ∧ e.gathers key = false)
    (asked : ∀ n q, (∃ a, m = .answer n a) ∨ m = .stop n → w.inquiries[n]? = some q →
      q.key ≠ key) : w.Matches (w.spend m) key := by
  have hless (n : Nat) (own : (∃ a, m = .answer n a) ∨ m = .stop n) :
      (w.inquiriesOf key).Perm ((w.inquiries.eraseIdx n).filter (·.key = key)) := by
    cases hq : w.inquiries[n]? with
    | none =>
        rw [eraseIdx_of_getElem?_none hq]
        exact .refl _
    | some q =>
        have hperm := (perm_of_getElem? hq).filter (·.key = key)
        rw [List.filter_cons_of_neg (by simpa using asked n q own hq)] at hperm
        exact hperm
  cases m with
  | host e => cases e <;> exact ⟨rfl, .refl _, .refl _, rfl⟩
  | edit b => exact ⟨rfl, .refl _, .refl _, rfl⟩
  | answer n a => exact ⟨rfl, .refl _, hless n (.inl ⟨a, rfl⟩), rfl⟩
  | stop n => exact ⟨rfl, .refl _, hless n (.inr rfl), rfl⟩
  | next n =>
      cases he : w.due[n]? with
      | none =>
          have hsame : w.spend (.next n) = w := by
            simp only [spend, eraseIdx_of_getElem?_none he]
          rw [hsame]
          exact ⟨rfl, .refl _, .refl _, rfl⟩
      | some e =>
          obtain ⟨hbegin, hgathers⟩ := due n e rfl he
          have hperm := perm_of_getElem? he
          refine ⟨rfl, ?_, .refl _, ?_⟩
          · have hbegins := hperm.filterMap (·.beginning? key)
            rw [List.filterMap_cons_none hbegin] at hbegins
            exact hbegins
          · have hcount := hperm.countP_eq (·.gathers key)
            rw [List.countP_cons_of_neg (by simp [hgathers])] at hcount
            exact hcount.symm

theorem beginning?_of_foreign (h : e.key? ≠ some key) : e.beginning? key = none := by
  cases e with
  | begin k i => exact if_neg fun heq => h (congrArg some heq)
  | _ => rfl

theorem gathers_of_foreign (h : e.key? ≠ some key) : e.gathers key = false := by
  cases e with
  | gathered k => exact decide_eq_false fun heq => h (congrArg some heq)
  | _ => rfl

/-- A step that does not concern the call. -/
theorem after_matches (h : w.registry.Unconcerned key r') : w.Matches (w.after r') key := by
  have hlater : ∀ l ∈ r'.laters, l.beginning? key = none ∧ l.gathers key = false := by
    intro l hl
    by_cases hkey : l.key? = some key
    · rw [h.later l hl hkey]
      exact ⟨rfl, rfl⟩
    · exact ⟨beginning?_of_foreign hkey, gathers_of_foreign hkey⟩
  refine ⟨h.call, ?_, ?_, ?_⟩
  · have hnone : r'.laters.filterMap (·.beginning? key) = [] :=
      List.filterMap_eq_nil_iff.2 fun l hl => (hlater l hl).1
    simp only [beginning, after, List.filterMap_append, hnone, List.append_nil]
    exact .refl _
  · have hnone : r'.asks.filter (·.key = key) = [] :=
      List.filter_eq_nil_iff.2 fun q hq => by simpa using h.asked q hq
    simp only [inquiriesOf, after, List.filter_append, hnone, List.append_nil]
    exact .refl _
  · have hnone : r'.laters.countP (·.gathers key) = 0 :=
      List.countP_eq_zero.2 fun l hl => by simp [(hlater l hl).2]
    simp only [World.gatherings, after, List.countP_append, hnone, Nat.add_zero]

/-! ## Moves of a call -/

theorem step_of_event (h : w.event? m = some e) : w.step m = (w.spend m).react e := by
  rw [World.step, h]

theorem endings_of_event (h : w.event? m = some e) :
    w.endings m = ((w.spend m).registry.step (w.spend m).buffers e).finishes := by
  rw [endings, h]

theorem puts_of_event (h : w.event? m = some e) : w.puts key m =
    ((w.spend m).registry.step (w.spend m).buffers e).asks.filter (·.key = key) := by
  rw [puts, h]

/-- What a move is to a call that is under way and is not called off. -/
inductive Bearing (w : World) (key : CallKey) (m : Move) : Prop
  /-- The move is about another call or about none, or the lock comes to the call, which does not wait
  for it. -/
  | passes (same : w.Matches (w.step m) key) (silent : w.replies key m = [])
      (unasked : w.puts key m = []) (open' : ∀ outcome, (key, outcome) ∉ w.endings m)
      (idle : ∀ e, w.event? m = some e → e.key? = some key → e = .granted key)
  | begins (n i : Nat) (move : m = .next n) (due : w.due[n]? = some (.begin key i))
  | hears (n : Nat) (a : Answer) (q : Inquiry) (move : m = .answer n a)
      (asked : w.inquiries[n]? = some q) (own : q.key = key)
  | gathers (n : Nat) (move : m = .next n) (due : w.due[n]? = some (.gathered key))

theorem Orderly.bearing_of_foreign (orderly : w.Orderly)
    (foreign : ∀ e, w.event? m = some e → e.key? ≠ some key) : w.Bearing key m := by
  have hspend : w.Matches (w.spend m) key := by
    refine spend_matches (fun n e hm he => ?_) (fun n q hm hq hkey => ?_)
    · have hother := foreign e (by rw [hm]; exact he)
      exact ⟨beginning?_of_foreign hother, gathers_of_foreign hother⟩
    · rcases hm with ⟨a, hm⟩ | hm
      · refine foreign (.answered q.key q.part a) ?_ (congrArg some hkey)
        rw [hm]
        exact Option.map_eq_some_iff.2 ⟨q, hq, rfl⟩
      · refine foreign (.stopped q.key q.part) ?_ (congrArg some hkey)
        rw [hm]
        exact Option.map_eq_some_iff.2 ⟨q, hq, rfl⟩
  have hsilent : w.replies key m = [] := by
    unfold replies
    split
    · rename_i n a
      cases hq : w.inquiries[n]? with
      | none => rfl
      | some q =>
          have hother : q.key ≠ key := fun hkey =>
            foreign (.answered q.key q.part a) (Option.map_eq_some_iff.2 ⟨q, hq, rfl⟩)
              (congrArg some hkey)
          simp [hother]
    · rfl
  have hidle : ∀ e, w.event? m = some e → e.key? = some key → e = .granted key :=
    fun e he hkey => absurd hkey (foreign e he)
  cases hevent : w.event? m with
  | none =>
      refine .passes ?_ hsilent ?_ ?_ hidle
      · rw [World.step, hevent]
        exact hspend
      · rw [puts, hevent]
      · rw [endings, hevent]
        exact fun _ hended => nomatch hended
  | some e =>
      have hstep := step_unconcerned (orderly.spend m).outbox (w.spend m).buffers (foreign e hevent)
      refine .passes ?_ hsilent ?_ ?_ hidle
      · rw [step_of_event hevent]
        exact hspend.trans (after_matches hstep)
      · rw [puts_of_event hevent]
        exact List.filter_eq_nil_iff.2 fun q hq => by simpa using hstep.asked q hq
      · rw [endings_of_event hevent]
        exact hstep.finishes

/-- The lock comes to a call that does not wait for it. -/
theorem Orderly.bearing_of_granted (orderly : w.Orderly) {c : Call}
    (call : w.registry.calls.get? key = some c) (busy : ∀ request, c.stage ≠ .queued request)
    {n : Nat} (due : w.due[n]? = some (.granted key)) : w.Bearing key (.next n) := by
  have hevent : w.event? (.next n) = some (.granted key) := due
  have hrests : w.registry.step w.buffers (.granted key) = w.registry := by
    simp only [Registry.step, Registry.withCall, call]
  have hspend : w.Matches (w.spend (.next n)) key := by
    refine spend_matches (fun n' e hm he => ?_) (fun n' q hm _ _ => ?_)
    · cases hm
      rw [due] at he
      cases he
      exact ⟨rfl, rfl⟩
    · rcases hm with ⟨a, hm⟩ | hm <;> cases hm
  have hstart := Leaves.start orderly.outbox
  have hsame : w.registry.Unconcerned key (w.registry.step w.buffers (.granted key)) := by
    rw [hrests]
    exact hstart.unconcerned rfl
  refine .passes ?_ rfl ?_ ?_ ?_
  · rw [step_of_event hevent]
    exact hspend.trans (after_matches hsame)
  · rw [puts_of_event hevent]
    exact List.filter_eq_nil_iff.2 fun q hq => by simpa using hsame.asked q hq
  · rw [endings_of_event hevent]
    exact hsame.finishes
  · intro e he _
    rw [hevent] at he
    exact (Option.some.inj he).symm

theorem Orderly.bearing (orderly : w.Orderly) {c : Call} (call : w.registry.calls.get? key = some c)
    (busy : ∀ request, c.stage ≠ .queued request)
    (kept : ∀ e, w.event? m = some e → e.callsOff key = false) : w.Bearing key m := by
  by_cases hforeign : ∀ e, w.event? m = some e → e.key? ≠ some key
  · exact orderly.bearing_of_foreign hforeign
  simp only [not_forall, not_not] at hforeign
  obtain ⟨e, hevent, hkey⟩ := hforeign
  have hknown : key ∈ w.known := (orderly.fits key c call).known
  cases m with
  | host e' =>
      obtain ⟨hadmits, ⟨⟩⟩ := Option.ite_none_right_eq_some.1 hevent
      cases e with
      | call k request =>
          cases hkey
          simp [admits, hknown] at hadmits
      | abort k =>
          cases hkey
          exact absurd (kept _ hevent) (by simp [Event.callsOff])
      | granted k => cases hadmits
      | begin k i => cases hadmits
      | answered k i a => cases hadmits
      | stopped k i => cases hadmits
      | gathered k => cases hadmits
      | _ => cases hkey
  | edit b => cases hevent
  | stop n =>
      obtain ⟨q, _, rfl⟩ := Option.map_eq_some_iff.1 hevent
      cases hkey
      exact absurd (kept _ hevent) (by simp [Event.callsOff])
  | answer n a =>
      obtain ⟨q, hq, rfl⟩ := Option.map_eq_some_iff.1 hevent
      exact .hears n a q rfl hq (Option.some.inj hkey)
  | next n =>
      have hdue : w.due[n]? = some e := hevent
      have hnotdue := (orderly.due e (List.mem_of_getElem? hdue)).1
      cases e with
      | granted k =>
          cases hkey
          exact orderly.bearing_of_granted call busy hdue
      | begin k i =>
          cases hkey
          exact .begins n i rfl hdue
      | gathered k =>
          cases hkey
          exact .gathers n rfl hdue
      | _ => cases hnotdue

/-! ## Parts that are begun and answered -/

section Begun

variable {n i : Nat} {q : Inquiry}

theorem beginning_perm (due : w.due[n]? = some (.begin key i)) :
    (w.beginning key).Perm (i :: (w.spend (.next n)).beginning key) := by
  have hown : (Event.begin key i).beginning? key = some i := if_pos rfl
  have hperm := (perm_of_getElem? due).filterMap (·.beginning? key)
  rw [List.filterMap_cons_some hown] at hperm
  exact hperm

theorem gatherings_of_begin (due : w.due[n]? = some (.begin key i)) :
    (w.spend (.next n)).gatherings key = w.gatherings key := by
  have hcount := (perm_of_getElem? due).countP_eq (·.gathers key)
  rw [List.countP_cons_of_neg (by simp [Event.gathers])] at hcount
  exact hcount.symm

theorem gatherings_pos (due : w.due[n]? = some (.gathered key)) : 0 < w.gatherings key :=
  List.countP_pos_iff.2 ⟨_, List.mem_of_getElem? due, by simp [Event.gathers]⟩

theorem event_answer (asked : w.inquiries[n]? = some q) (own : q.key = key) (a : Answer) :
    w.event? (.answer n a) = some (.answered key q.part a) := by
  rw [← own]
  exact Option.map_eq_some_iff.2 ⟨q, asked, rfl⟩

theorem replies_answer (asked : w.inquiries[n]? = some q) (own : q.key = key) (a : Answer) :
    w.replies key (.answer n a) = [(q, a)] := by
  simp [replies, asked, own]

theorem inquiriesOf_perm (asked : w.inquiries[n]? = some q) (own : q.key = key) (a : Answer) :
    (w.inquiriesOf key).Perm (q :: (w.spend (.answer n a)).inquiriesOf key) := by
  have hperm := (perm_of_getElem? asked).filter (·.key = key)
  rw [List.filter_cons_of_pos (by simpa using own)] at hperm
  exact hperm

/-- Whoever has a part to be asked or to answer, or is to be gathered, is not done. -/
theorem pending_of_work
    (work : w.beginning key ≠ [] ∨ w.inquiriesOf key ≠ [] ∨ 0 < w.gatherings key) :
    (∃ e ∈ w.due, e.key? = some key ∧ e ≠ .granted key) ∨ ∃ q ∈ w.inquiries, q.key = key := by
  rcases work with hbegins | hasks | hgathers
  · obtain ⟨i, hi⟩ := List.exists_mem_of_ne_nil _ hbegins
    obtain ⟨e, hdue, hbegin⟩ := List.mem_filterMap.1 hi
    cases e with
    | begin k j =>
        obtain ⟨hkey, -⟩ := Option.ite_none_right_eq_some.1 hbegin
        exact .inl ⟨_, hdue, congrArg some hkey, nofun⟩
    | _ => cases hbegin
  · obtain ⟨q, hq⟩ := List.exists_mem_of_ne_nil _ hasks
    obtain ⟨hopen, hkey⟩ := List.mem_filter.1 hq
    exact .inr ⟨q, hopen, of_decide_eq_true hkey⟩
  · obtain ⟨e, hdue, hgathers⟩ := List.countP_pos_iff.1 hgathers
    cases e with
    | gathered k => exact .inl ⟨_, hdue, congrArg some (of_decide_eq_true hgathers), nofun⟩
    | _ => cases hgathers

end Begun

/-! ## Moves of a check -/

theorem Gathers.begins (h : w.Gathers key document options ps parts answers)
    (outbox : w.registry.outbox = []) {n i : Nat} (due : w.due[n]? = some (.begin key i)) :
    (∃ parts', ((w.spend (.next n)).react (.begin key i)).Gathers key document options ps parts'
      answers) ∧
    (w.registry.step w.buffers (.begin key i)).finishes = [] := by
  have hstate := h.state.perm (beginning_perm due) (.refl _)
  obtain ⟨p, hpart⟩ := (hstate.waiting i).1 List.mem_cons_self
  have hstep : w.registry.step w.buffers (.begin key i) = (w.registry.setCall key
      ⟨.checking document options (setPart parts i .asked), false⟩).emit
        (.ask key i p (.check document options)) := by
    simp [Registry.step, Registry.withCall, h.call, Registry.begin, hpart]
  have hleaves := ((Leaves.start outbox).setCall key
    ⟨.checking document options (setPart parts i .asked), false⟩).ask key i p
      (.check document options)
  rw [hstep]
  refine ⟨⟨setPart parts i .asked, ?_⟩, hleaves.finishes⟩
  rw [react_eq_after]
  change ((w.spend (.next n)).after (w.registry.step w.buffers (.begin key i))).Gathers _ _ _ _ _ _
  rw [hstep]
  refine ⟨Keyed.get?_put_self _ _ _, (map_fst_setPart _ _ _).trans h.plugins, ?_, ?_⟩
  · have hasks : [(⟨key, i, p, .check document options⟩ : Inquiry)].filter (·.key = key) =
        [⟨key, i, p, .check document options⟩] := by simp
    rw [beginning_after hleaves, inquiriesOf_after hleaves, List.nil_append, hasks,
      List.filterMap_nil, List.append_nil]
    exact hstate.ask hpart
  · have hbefore := h.gathered
    rw [not_allChecked hpart rfl] at hbefore
    rw [not_allChecked (getElem?_setPart_self hpart .asked) rfl]
    simp only [World.gatherings, after, hleaves.laters, List.append_nil]
    exact (gatherings_of_begin due).trans hbefore

theorem Gathers.hears (h : w.Gathers key document options ps parts answers)
    (outbox : w.registry.outbox = []) {n : Nat} {q : Inquiry} (asked : w.inquiries[n]? = some q)
    (own : q.key = key) (a : Answer) :
    (∃ parts', ((w.spend (.answer n a)).react (.answered key q.part a)).Gathers key document options
      ps parts' (answers ++ [(q, a)])) ∧
    (w.registry.step w.buffers (.answered key q.part a)).finishes = [] := by
  have hstate := h.state.perm (.refl _) (inquiriesOf_perm asked own a)
  obtain ⟨p, hpart, hq⟩ := hstate.put q List.mem_cons_self
  have hplugin : q.plugin = p := congrArg Inquiry.plugin hq
  subst hplugin
  generalize hverdict : w.registry.checkVerdict w.buffers q.plugin document a = rv
  obtain ⟨r₁, v⟩ := rv
  have hcontributes := checkVerdict_contributes w.registry w.buffers q.plugin document a
  have hlog := checkVerdict_leaves (Leaves.start outbox) w.buffers q.plugin document a
  rw [hverdict] at hcontributes hlog
  have hset := hlog.setCall key
    ⟨.checking document options (setPart parts q.part (.settled v)), false⟩
  have hstep : w.registry.step w.buffers (.answered key q.part a) =
      if allChecked (setPart parts q.part (.settled v)) then
        (r₁.setCall key ⟨.checking document options (setPart parts q.part (.settled v)),
          false⟩).emit (.later (.gathered key))
      else r₁.setCall key ⟨.checking document options (setPart parts q.part (.settled v)),
        false⟩ := by
    simp [Registry.step, Registry.withCall, h.call, Registry.answered, hpart, hverdict]
  have hleaves : (w.registry.step w.buffers (.answered key q.part a)).Leaves
      (w.registry.setCall key ⟨.checking document options (setPart parts q.part (.settled v)), false⟩)
      (if allChecked (setPart parts q.part (.settled v)) then [.gathered key] else []) [] [] := by
    rw [hstep]
    split
    · exact hset.later (.gathered key)
    · exact hset
  refine ⟨⟨setPart parts q.part (.settled v), ?_⟩, hleaves.finishes⟩
  rw [react_eq_after]
  change ((w.spend (.answer n a)).after
    (w.registry.step w.buffers (.answered key q.part a))).Gathers _ _ _ _ _ _
  refine ⟨?_, (map_fst_setPart _ _ _).trans h.plugins, ?_, ?_⟩
  · change (w.registry.step w.buffers (.answered key q.part a)).calls.get? key = _
    rw [hleaves.calls]
    exact Keyed.get?_put_self _ _ _
  · have hbegins : (if allChecked (setPart parts q.part (.settled v)) then
        [Event.gathered key] else []).filterMap (·.beginning? key) = [] := by
      split <;> rfl
    rw [beginning_after hleaves, inquiriesOf_after hleaves, hbegins, List.append_nil]
    simp only [List.filter_nil, List.append_nil]
    exact hstate.settle hcontributes
  · have hbefore := h.gathered
    rw [not_allChecked hpart rfl] at hbefore
    have hnow : (w.spend (.answer n a)).due.countP (·.gathers key) = 0 := hbefore
    simp only [World.gatherings, after, hleaves.laters, List.countP_append, hnow]
    split <;> simp [Event.gathers]

/-- The verdicts are put together when all parts have answered. -/
theorem Gathers.completes (h : w.Gathers key document options ps parts answers)
    (outbox : w.registry.outbox = []) {n : Nat} (due : w.due[n]? = some (.gathered key)) :
    allChecked parts = true ∧
    (w.registry.step w.buffers (.gathered key)).finishes =
      [(key, .done (.checked (Verdict.merge (parts.filterMap (·.2.result?)))))] ∧
    (w.registry.step w.buffers (.gathered key)).calls.get? key = none := by
  have hall : allChecked parts = true := by
    have hpos := gatherings_pos due
    rw [h.gathered] at hpos
    split at hpos
    · assumption
    · cases hpos
  have hstep : w.registry.step w.buffers (.gathered key) =
      w.registry.completeCheck key parts := by
    simp [Registry.step, Registry.withCall, h.call, Registry.gathered]
  have hleaves := (Leaves.start outbox).finish key
    (.done (.checked (Verdict.merge (parts.filterMap (·.2.result?)))))
  rw [hstep]
  refine ⟨hall, hleaves.finishes, ?_⟩
  rw [completeCheck, hleaves.calls]
  exact (Keyed.get?_drop _ _ _).trans (if_pos rfl)

/-- Every move leaves the check under way, or ends it with the verdicts of all parts. -/
theorem Gathers.step (h : w.Gathers key document options ps parts answers) (orderly : w.Orderly)
    (kept : ∀ e, w.event? m = some e → e.callsOff key = false) :
    ((∃ parts', (w.step m).Gathers key document options ps parts' (answers ++ w.replies key m)) ∧
      ∀ outcome, (key, outcome) ∉ w.endings m) ∨
    allChecked parts = true ∧ w.replies key m = [] ∧
      w.endings m = [(key, .done (.checked (Verdict.merge (parts.filterMap (·.2.result?)))))] ∧
      (w.step m).registry.calls.get? key = none := by
  cases orderly.bearing h.call nofun kept with
  | passes same silent _ open' _ =>
      rw [silent, List.append_nil]
      exact .inl ⟨⟨parts, h.frame same⟩, open'⟩
  | begins n i move due =>
      subst move
      have hevent : w.event? (.next n) = some (.begin key i) := due
      obtain ⟨hgathers, hnone⟩ := h.begins orderly.outbox due
      refine .inl ⟨?_, fun outcome hended => ?_⟩
      · rw [step_of_event hevent]
        simpa [replies] using hgathers
      · rw [endings_of_event hevent] at hended
        change _ ∈ (w.registry.step w.buffers _).finishes at hended
        rw [hnone] at hended
        cases hended
  | hears n a q move asked own =>
      subst move
      have hevent := event_answer asked own a
      obtain ⟨hgathers, hnone⟩ := h.hears orderly.outbox asked own a
      refine .inl ⟨?_, fun outcome hended => ?_⟩
      · rw [replies_answer asked own, step_of_event hevent]
        exact hgathers
      · rw [endings_of_event hevent] at hended
        change _ ∈ (w.registry.step w.buffers _).finishes at hended
        rw [hnone] at hended
        cases hended
  | gathers n move due =>
      subst move
      have hevent : w.event? (.next n) = some (.gathered key) := due
      obtain ⟨hall, hended, hgone⟩ := h.completes orderly.outbox due
      rw [step_of_event hevent, endings_of_event hevent]
      exact .inr ⟨hall, rfl, hended, hgone⟩

end World

end Shellwright.Registry
