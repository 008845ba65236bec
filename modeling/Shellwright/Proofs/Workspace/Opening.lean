import Shellwright.Proofs.Review.Addresses
import Shellwright.Proofs.Workspace.Workshop
/-!
# Opening documents

Every document that is opened is to be checked by a run of its own. A document that comes at an address
for the second time has the first run called off before it begins.
-/

namespace Shellwright

theorem Keyed.get?_mapIdx {κ ν : Type} [DecidableEq κ] {values : List ν} (key : Nat → κ)
    (inj : ∀ i j, key i = key j → i = j) {k : Nat} {value : ν} (h : values[k]? = some value) :
    Keyed.get? (values.mapIdx fun i v => (key i, v)) (key k) = some value := by
  induction values generalizing key k with
  | nil => cases h
  | cons v rest ih =>
      rw [List.mapIdx_cons]
      cases k with
      | zero =>
          obtain rfl : v = value := Option.some.inj h
          simp [Keyed.get?]
      | succ k =>
          have hne : ¬key 0 = key (k + 1) := fun heq => absurd (inj _ _ heq) (Nat.succ_ne_zero k).symm
          have hrest := ih (fun i => key (i + 1)) (fun i j heq => Nat.succ.inj (inj _ _ heq)) h
          simpa [Keyed.get?, hne] using hrest

namespace Review

/-- The runs were dispatched for these addresses, one after another; the newest of each is known to its
session, and all others have been cancelled. -/
structure Sessions.Tracks (uris : List String) (s : Sessions) : Prop where
  length : s.cancelled.length = uris.length
  flags : ∀ (k : Nat) uri, uris[k]? = some uri →
    s.cancelled[k]? = some (decide (uri ∈ uris.drop (k + 1)))
  unknown : ∀ uri, s.get? uri = none → uri ∉ uris
  newest : ∀ uri n, s.get? uri = some n → ∃ session, s.at? n = some session ∧ session.uri = uri ∧
    ((session.source = none ∧ uri ∉ uris) ∨
      ∃ k, session.source = some k ∧ uris[k]? = some uri ∧ uri ∉ uris.drop (k + 1))

namespace Sessions

variable {uris : List String} {s : Sessions} {n : Nat} {uri : String}

theorem Tracks.start : Tracks [] {} :=
  ⟨rfl, nofun, fun _ _ => List.not_mem_nil, nofun⟩

theorem Tracks.obtain (h : s.Tracks uris) (uri : String) :
    (s.obtain uri).1.Tracks uris ∧ (s.obtain uri).1.get? uri = some (s.obtain uri).2 := by
  cases hget : s.get? uri with
  | some n =>
      rw [obtain_of_some hget]
      exact ⟨h, hget⟩
  | none =>
      have hget' := get?_obtain_none hget
      have hcancelled : (s.obtain uri).1.cancelled = s.cancelled := by
        unfold Sessions.obtain
        rw [hget]
      refine ⟨⟨?_, ?_, ?_, ?_⟩, ?_⟩
      · rw [hcancelled]
        exact h.length
      · rw [hcancelled]
        exact h.flags
      · intro other hother
        rw [hget'] at hother
        split at hother
        · cases hother
        · exact h.unknown other hother
      · intro other n hother
        rw [hget'] at hother
        split at hother
        · rename_i heq
          cases hother
          refine ⟨{ uri := uri }, ?_, heq.symm, .inl ⟨rfl, heq ▸ h.unknown uri hget⟩⟩
          rw [at?_obtain_none hget, if_pos rfl]
        · obtain ⟨session, hsession, hrest⟩ := h.newest other n hother
          refine ⟨session, ?_, hrest⟩
          rw [at?_obtain_none hget, if_neg (Nat.ne_of_lt (lt_of_at? hsession))]
          exact hsession
      · rw [hget', if_pos rfl, obtain_number_none hget]

theorem Tracks.cancelPending (h : s.Tracks uris) (n : Nat) : (s.cancelPending n).Tracks uris := by
  refine ⟨h.length, h.flags, h.unknown, fun uri m hm => ?_⟩
  obtain ⟨session, hsession, huri, hsource⟩ := h.newest uri m hm
  unfold Sessions.cancelPending
  rw [at?_modify, hsession]
  by_cases heq : n = m
  · rw [if_pos heq]
    exact ⟨_, rfl, huri, hsource⟩
  · rw [if_neg heq]
    exact ⟨session, rfl, huri, hsource⟩

/-- What has been cancelled when a run is dispatched: the newest run before it at its address. -/
theorem Tracks.cancelled_cancelNewest (h : s.Tracks uris) (get : s.get? uri = some n) {k : Nat}
    {other : String} (hk : uris[k]? = some other) :
    (s.cancelNewest n).cancelled[k]? =
      some (decide (other ∈ uris.drop (k + 1) ∨ other = uri)) := by
  have hflag := h.flags k other hk
  obtain ⟨session, hsession, huri, ⟨hsource, hfresh⟩ | ⟨j, hsource, hj, hlast⟩⟩ := h.newest uri n get
  · have hne : other ≠ uri := by
      rintro rfl
      exact hfresh (List.mem_of_getElem? hk)
    have hsame : s.cancelNewest n = s := by
      unfold Sessions.cancelNewest
      rw [hsession, Option.bind_some, hsource]
    rw [hsame, hflag]
    simp [hne]
  · have hset : (s.cancelNewest n).cancelled = s.cancelled.set j true := by
      unfold Sessions.cancelNewest
      rw [hsession, Option.bind_some, hsource]
      rfl
    rw [hset, List.getElem?_set]
    by_cases hjk : j = k
    · subst hjk
      obtain rfl : other = uri := Option.some.inj (hk.symm.trans hj)
      have hlt : j < s.cancelled.length := (List.getElem?_eq_some_iff.1 hflag).1
      simp [hlt]
    · rw [if_neg hjk, hflag]
      -- A run of the same address that is not the newest is followed by the newest one.
      have hlater : other = uri → other ∈ uris.drop (k + 1) := by
        rintro rfl
        rcases Nat.lt_or_gt_of_ne hjk with hlt | hgt
        · refine absurd (List.mem_iff_getElem?.2 ⟨k - (j + 1), ?_⟩) hlast
          rw [List.getElem?_drop, show j + 1 + (k - (j + 1)) = k by omega]
          exact hk
        · refine List.mem_iff_getElem?.2 ⟨j - (k + 1), ?_⟩
          rw [List.getElem?_drop, show k + 1 + (j - (k + 1)) = j by omega]
          exact hj
      have hiff : other ∈ uris.drop (k + 1) ∨ other = uri ↔ other ∈ uris.drop (k + 1) :=
        ⟨fun h => h.elim id hlater, .inl⟩
      simp only [hiff]

/-- One more run is dispatched, for a known address. -/
theorem Tracks.supersede (h : s.Tracks uris) (get : s.get? uri = some n) :
    (s.supersede n).Tracks (uris ++ [uri]) := by
  have hlength : (s.cancelNewest n).cancelled.length = uris.length :=
    (length_cancelNewest s n).trans h.length
  have hcancelled : (s.supersede n).cancelled = (s.cancelNewest n).cancelled ++ [false] := rfl
  have hmem : ∀ (k : Nat) (other : String), uris[k]? = some other →
      (uris ++ [uri]).drop (k + 1) = uris.drop (k + 1) ++ [uri] := by
    intro k other hk
    exact List.drop_append_of_le_length (List.getElem?_eq_some_iff.1 hk).1
  refine ⟨?_, ?_, ?_, ?_⟩
  · rw [hcancelled, List.length_append, hlength, List.length_append]
    rfl
  · intro k other hk
    rw [hcancelled]
    rcases Nat.lt_or_ge k uris.length with hlt | hge
    · rw [List.getElem?_append_left hlt] at hk
      rw [List.getElem?_append_left (hlength ▸ hlt), h.cancelled_cancelNewest get hk, hmem k other hk]
      simp
    · obtain rfl : k = uris.length := by
        have hlt := (List.getElem?_eq_some_iff.1 hk).1
        rw [List.length_append, List.length_singleton] at hlt
        omega
      rw [← hlength, List.getElem?_concat_length, hlength]
      simp
  · intro other hother
    rw [get?_supersede] at hother
    rw [List.mem_append, List.mem_singleton]
    rintro (hold | rfl)
    · exact h.unknown other hother hold
    · rw [get] at hother
      cases hother
  · intro other m hother
    rw [get?_supersede] at hother
    obtain ⟨session, hsession, huri, hsource⟩ := h.newest other m hother
    rw [at?_supersede, hsession]
    by_cases hm : n = m
    · subst hm
      obtain ⟨session', hsession', huri', _⟩ := h.newest uri n get
      obtain rfl : session = session' := Option.some.inj (hsession.symm.trans hsession')
      obtain rfl : other = uri := huri.symm.trans huri'
      rw [if_pos rfl]
      refine ⟨_, rfl, huri, .inr ⟨uris.length, congrArg some hlength, ?_, ?_⟩⟩
      · exact List.getElem?_concat_length
      · simp
    · have hne : other ≠ uri := by
        rintro rfl
        exact hm (Option.some.inj (get.symm.trans hother))
      rw [if_neg hm]
      refine ⟨session, rfl, huri, ?_⟩
      rcases hsource with ⟨hnone, hfresh⟩ | ⟨k, hk, hat, hlast⟩
      · exact .inl ⟨hnone, by simp [hfresh, hne]⟩
      · refine .inr ⟨k, hk, ?_, ?_⟩
        · rw [List.getElem?_append_left (List.getElem?_eq_some_iff.1 hat).1]
          exact hat
        · rw [hmem k other hat]
          simp [hlast, hne]

end Sessions

theorem Desk.diagnose_tracks {d : Desk} {uris : List String} (h : d.sessions.Tracks uris)
    (uri document : String) : (d.diagnose uri document).sessions.Tracks (uris ++ [uri]) := by
  obtain ⟨hobtained, hget⟩ := h.obtain uri
  exact (hobtained.cancelPending _).supersede hget

end Review

namespace Reviewer

variable {r : Reviewer} {document : String}

theorem cancelNewest_wishes (r : Reviewer) (number : Nat) :
    (r.cancelNewest number).tasks = r.tasks ∧ (r.cancelNewest number).replies = r.replies := by
  unfold cancelNewest
  split
  · rename_i run _
    have htasks := tasks_emit r (.cancel run)
    have hreplies := replies_emit r (.cancel run)
    exact ⟨htasks.trans (List.append_nil _), hreplies.trans (List.append_nil _)⟩
  · exact ⟨rfl, rfl⟩

/-- A new run is to begin. -/
theorem diagnose_wishes (h : (r.document document).isShell = true) :
    (r.diagnose document).1.tasks = r.tasks ++ [.event (.review (.begin r.runs.length))] ∧
      (r.diagnose document).1.replies = r.replies := by
  unfold diagnose
  rw [if_neg (by simp [h])]
  simp only [dispatch]
  generalize hready : ({ r with
    sessions := (r.sessions.obtain (r.document document).uri).1.cancelPending
      (r.sessions.obtain (r.document document).uri).2 } : Reviewer) = ready
  obtain ⟨htasks, hreplies⟩ :=
    cancelNewest_wishes ready (r.sessions.obtain (r.document document).uri).2
  obtain ⟨out, hout⟩ :=
    cancelNewest_mutters ready (r.sessions.obtain (r.document document).uri).2
  have hruns : (ready.cancelNewest (r.sessions.obtain (r.document document).uri).2).runs = r.runs := by
    rw [hout, ← hready]
  constructor
  · rw [tasks_emit, hruns]
    refine congrArg (· ++ _) (htasks.trans ?_)
    rw [← hready]
    rfl
  · rw [replies_emit]
    refine (List.append_nil _).trans (hreplies.trans ?_)
    rw [← hready]
    rfl

/-- A call to check a script has a run dispatched, and waits for it. -/
theorem call_diagnose_eq (h : (r.document document).isShell = true) (n : Nat) :
    ∃ out, r.step (.call n (.diagnose document)) =
        { r with
          sessions := (r.desk.diagnose (r.document document).uri document).sessions
          runs := (r.desk.diagnose (r.document document).uri document).runs
          calls := r.calls.put n ⟨.running r.runs.length, false⟩
          outbox := out } ∧
      out.filterMap Review.Effect.task? = r.tasks ++ [.event (.review (.begin r.runs.length))] ∧
      out.filterMap Review.Effect.reply? = r.replies := by
  obtain ⟨out, hout⟩ := diagnose_eq h
  obtain ⟨htasks, hreplies⟩ := diagnose_wishes h
  rw [hout] at htasks hreplies
  refine ⟨out, ?_, htasks, hreplies⟩
  have hcall : r.call n (.diagnose document) =
      (r.diagnose document).1.setCall n ⟨.running r.runs.length, false⟩ := by
    unfold call
    simp only [hout]
  change r.call n (.diagnose document) = _
  rw [hcall, hout]
  rfl

end Reviewer

namespace Workshop

open Review (Run)
open Workspace (Task)

variable {s : Workshop} {documents : List TextDocument} {f : Floor} {n : Nat}

/-- The first `n` documents have been opened: a run is to begin for each, and nothing else has happened. -/
structure Opened (s : Workshop) (documents : List TextDocument) (n : Nat) (f : Floor) : Prop where
  calls : f.workspace.calls = []
  outbox : f.workspace.outbox = []
  wishes : f.workspace.reviewer.outbox = []
  registry : f.workspace.reviewer.registry = { plugins := s.plugins, active := s.active }
  buffers : f.workspace.reviewer.buffers = documents.mapIdx fun i d => (toString i, d)
  timeout : f.workspace.reviewer.timeout = s.limit
  sessions : f.workspace.reviewer.sessions.Tracks ((documents.map TextDocument.uri).take n)
  length : f.workspace.reviewer.runs.length = n
  runs : ∀ k < n, ∃ run : Run, f.workspace.reviewer.runs[k]? = some run ∧ run.document = toString k ∧
    run.dropped = false ∧ run.outcome = none
  waiting : ∀ k, f.workspace.reviewer.calls.get? k =
    if k < n then some ⟨.running k, false⟩ else none
  tasks : f.tasks = (List.range n).map fun k => .event (.review (.begin k))
  replies : f.replies = []

theorem toString_inj {a b : Nat} (h : toString a = toString b) : a = b := by
  have hdigits : Nat.toDigits 10 a = Nat.toDigits 10 b := by
    rw [← Nat.toList_repr, ← Nat.toList_repr]
    exact congrArg String.toList h
  rw [← @Nat.ofDigitChars_ten_toDigits a, hdigits, Nat.ofDigitChars_ten_toDigits]

/-- A document is found under its place in the list. -/
theorem find_place (documents : List TextDocument) {k : Nat} {d : TextDocument}
    (h : documents[k]? = some d) :
    Buffers.find (documents.mapIdx fun i d => (toString i, d)) (toString k) = d := by
  have hget := Keyed.get?_mapIdx (toString : Nat → String) (fun _ _ => toString_inj) h
  rw [Buffers.find, hget]
  rfl

theorem opened_zero (s : Workshop) (documents : List TextDocument) :
    s.Opened documents 0 (s.opened documents 0) where
  calls := rfl
  outbox := rfl
  wishes := rfl
  registry := rfl
  buffers := rfl
  timeout := rfl
  sessions := .start
  length := rfl
  runs _ h := absurd h (Nat.not_lt_zero _)
  waiting _ := rfl
  tasks := rfl
  replies := rfl

/-- One more document is opened. -/
theorem Opened.succ (h : s.Opened documents n f) {d : TextDocument} (document : documents[n]? = some d)
    (shell : d.isShell = true) :
    s.Opened documents (n + 1) (f.react (.call n (.openDocument (toString n)))) := by
  have hdocument : f.workspace.reviewer.document (toString n) = d := by
    unfold Reviewer.document
    rw [h.buffers]
    exact find_place documents document
  obtain ⟨out, hcall, htasks, hreplies⟩ :=
    Reviewer.call_diagnose_eq (r := f.workspace.reviewer) (hdocument ▸ shell) n
  rw [hdocument, h.length] at hcall
  rw [h.length, Reviewer.tasks, h.wishes] at htasks
  rw [Reviewer.replies, h.wishes] at hreplies
  obtain ⟨out', htell, htasks', hreplies'⟩ := Workspace.tellReview_eq
    (w := f.workspace.track (toString n)) h.calls h.outbox (.call n (.diagnose (toString n)))
  have hstep : f.workspace.step (.call n (.openDocument (toString n))) =
      { f.workspace.track (toString n) with
        reviewer := { f.workspace.reviewer.step (.call n (.diagnose (toString n))) with outbox := [] }
        outbox := out' } := htell
  change out'.filterMap _ = (f.workspace.reviewer.step _).tasks at htasks'
  change out'.filterMap _ = (f.workspace.reviewer.step _).replies at hreplies'
  rw [hcall] at hstep htasks' hreplies'
  rw [Reviewer.tasks, htasks] at htasks'
  rw [Reviewer.replies, hreplies] at hreplies'
  have huri : (documents.map TextDocument.uri).take (n + 1) =
      (documents.map TextDocument.uri).take n ++ [d.uri] := by
    rw [List.take_add_one, List.getElem?_map, document]
    rfl
  obtain ⟨session, sequence, hruns⟩ : ∃ session sequence,
      (f.workspace.reviewer.desk.diagnose d.uri (toString n)).runs = f.workspace.reviewer.runs ++
        [{ session := session, sequence := sequence, document := toString n }] := ⟨_, _, rfl⟩
  rw [Floor.react, hstep]
  constructor
  case calls => exact h.calls
  case outbox => rfl
  case wishes => rfl
  case registry => exact h.registry
  case buffers => exact h.buffers
  case timeout => exact h.timeout
  case sessions =>
    rw [huri]
    exact Review.Desk.diagnose_tracks (d := f.workspace.reviewer.desk) h.sessions d.uri (toString n)
  case length =>
    change (f.workspace.reviewer.desk.diagnose d.uri (toString n)).runs.length = n + 1
    rw [hruns, List.length_append, h.length]
    rfl
  case runs =>
    intro k hk
    change ∃ run, (f.workspace.reviewer.desk.diagnose d.uri (toString n)).runs[k]? = some run ∧ _
    rw [hruns]
    rcases Nat.lt_or_eq_of_le (Nat.le_of_lt_succ hk) with hlt | rfl
    · rw [List.getElem?_append_left (h.length ▸ hlt)]
      exact h.runs k hlt
    · refine ⟨{ session := session, sequence := sequence, document := toString k }, ?_, rfl, rfl, rfl⟩
      rw [List.getElem?_append_right (Nat.le_of_eq h.length), h.length, Nat.sub_self]
      rfl
  case waiting =>
    intro k
    change (f.workspace.reviewer.calls.put n ⟨.running n, false⟩).get? k = _
    rw [Keyed.get?_put, h.waiting k]
    by_cases hk : k = n
    · simp [hk]
    · have hlt : k < n + 1 ↔ k < n := by omega
      simp [hk, hlt]
  case tasks => simp [h.tasks, htasks', List.range_succ]
  case replies => simp [h.replies, hreplies']

/-- All documents have been opened. -/
theorem opened_all (s : Workshop) (shell : ∀ d ∈ documents, d.isShell = true) :
    s.Opened documents documents.length (s.opened documents documents.length) := by
  have hprefix (n : Nat) (h : n ≤ documents.length) :
      s.Opened documents n (s.opened documents n) := by
    induction n with
    | zero => exact opened_zero s documents
    | succ n ih =>
        have hsucc : s.opened documents (n + 1) =
            (s.opened documents n).react (.call n (.openDocument (toString n))) := by
          unfold Workshop.opened
          rw [List.range_succ, List.foldl_append]
          rfl
        rw [hsucc]
        exact (ih (Nat.le_of_succ_le h)).succ (List.getElem?_eq_getElem h)
          (shell _ (List.getElem_mem h))
  exact hprefix documents.length (Nat.le_refl _)

end Workshop

end Shellwright
