import Shellwright.Proofs.Workspace.Applying
import Shellwright.Proofs.Workspace.Overlap
/-!
# What new settings lead to

Settings are applied to a workspace that nothing else is at work on. The call waits for the plugins, if
the settings concern them, and then has every open document checked once.
-/

namespace Shellwright

namespace Review

/-- The member of the call whose check begins with the event. -/
def Event.opens? (n : Nat) : Event → Option Nat
  | .member k i => if k = n then some i else none
  | _ => none

/-- The members whose checks have begun. -/
def started (members : List (String × Member)) : List String :=
  (members.filter fun m => m.2 ≠ .waiting).map Prod.fst

section Members

variable {members : List (String × Member)} {name : String} {i j : Nat}

theorem started_waiting (names : List String) : started (names.map (·, .waiting)) = [] := by
  unfold started
  rw [List.filter_map]
  simp

theorem map_fst_settle (members : List (String × Member)) (run : Nat) (verdict : Verdict) :
    (settle members run verdict).map Prod.fst = members.map Prod.fst := by
  unfold settle
  rw [List.map_map]
  refine List.map_congr_left fun m _ => ?_
  simp only [Function.comp]
  split <;> rfl

theorem started_settle (members : List (String × Member)) (run : Nat) (verdict : Verdict) :
    started (settle members run verdict) = started members := by
  unfold started settle
  rw [List.filter_map, List.map_map]
  have hkept (m : String × Member) :
      ((if m.2 = .running run then (m.1, .settled (some verdict)) else m).2 ≠ .waiting) ↔
        m.2 ≠ .waiting := by
    split
    · rename_i hrunning
      rw [hrunning]
      exact iff_of_true nofun nofun
    · exact Iff.rfl
  simp only [Function.comp_def, hkept]
  refine List.map_congr_left fun m _ => ?_
  split <;> rfl

theorem waiting_settle (h : members[i]? = some (name, .waiting)) (run : Nat) (verdict : Verdict) :
    (settle members run verdict)[i]? = some (name, .waiting) := by
  unfold settle
  rw [List.getElem?_map, h]
  rfl

theorem allSettled_settle (h : Reviewer.allSettled members = true) (run : Nat) (verdict : Verdict) :
    Reviewer.allSettled (settle members run verdict) = true := by
  refine List.all_eq_true.2 fun m hm => ?_
  obtain ⟨m', hm', rfl⟩ := List.mem_map.1 hm
  by_cases hrunning : m'.2 = .running run
  · rw [if_pos hrunning]
  · rw [if_neg hrunning]
    exact List.all_eq_true.1 h m' hm'

theorem not_allSettled (h : members[i]? = some (name, .waiting)) :
    Reviewer.allSettled members ≠ true := by
  intro hall
  have hsettled := List.all_eq_true.1 hall _ (List.mem_of_getElem? h)
  cases hsettled

/-- All checks have begun when all have come to a verdict. -/
theorem started_of_allSettled (h : Reviewer.allSettled members = true) :
    started members = members.map Prod.fst := by
  unfold started
  rw [List.filter_eq_self.2]
  intro m hm
  have hsettled := List.all_eq_true.1 h m hm
  refine decide_eq_true fun hwaiting => ?_
  rw [hwaiting] at hsettled
  cases hsettled

theorem map_fst_setMember (members : List (String × Member)) (i : Nat) (m : Member) :
    (Reviewer.setMember members i m).map Prod.fst = members.map Prod.fst := by
  unfold Reviewer.setMember
  refine List.ext_getElem? fun j => ?_
  rw [List.getElem?_map, List.getElem?_map, List.getElem?_modify]
  split <;> cases members[j]? <;> rfl

theorem waiting_setMember (h : members[j]? = some (name, .waiting)) (apart : i ≠ j) (m : Member) :
    (Reviewer.setMember members i m)[j]? = some (name, .waiting) := by
  unfold Reviewer.setMember
  rw [List.getElem?_modify_ne _ _ apart]
  exact h

/-- The check of one more member has begun. -/
theorem started_setMember (h : members[i]? = some (name, .waiting)) (run : Nat) :
    (started (Reviewer.setMember members i (.running run))).Perm (started members ++ [name]) := by
  unfold started Reviewer.setMember
  induction members generalizing i with
  | nil => cases h
  | cons m rest ih =>
      cases i with
      | zero =>
          cases h
          simpa using (List.perm_append_singleton name _).symm
      | succ i =>
          have hrest := ih (i := i) h
          rw [List.modify_succ_cons, List.filter_cons, List.filter_cons]
          split
          · exact hrest.cons _
          · exact hrest

end Members

end Review

namespace Workspace

open Review

/-- What is ordered when settings are applied that concern the plugins. -/
def ordering (w : Workspace) (n : Nat) (settings : Settings) : Order :=
  ⟨n, ⟨settings, w.made, some (w.settings.retriedTools settings)⟩, w.registry.activeNames⟩

/-- The plugins that are registered once the settings have been applied. -/
def pluginsAfter (w : Workspace) (settings : Settings) : Keyed String Plugin :=
  if w.settings.affectsPlugins settings then
    ((w.ordering 0 settings).replacement w.factories).fresh
  else w.registry.plugins

/-- The names that are active then, when `available` says which plugins are available. -/
def activeAfter (w : Workspace) (settings : Settings) (available : Plugin → Bool) : List String :=
  if w.settings.affectsPlugins settings then
    ((w.ordering 0 settings).replacement w.factories).passing available
  else w.registry.active

theorem order?_apply {w : Workspace} {n : Nat} {settings : Settings} {documents : List String}
    {o : Order} (h : w.order? (.call n (.apply settings documents)) = some o) :
    w.settings.affectsPlugins settings = true ∧ o = w.ordering n settings := by
  obtain ⟨b, hb, rfl⟩ := Option.map_eq_some_iff.1 h
  unfold Request.blueprint? at hb
  split at hb
  · rename_i heq
    cases heq
  · rename_i heq
    cases heq
    obtain ⟨haffects, ⟨⟩⟩ := Option.ite_none_right_eq_some.1 hb
    exact ⟨haffects, rfl⟩
  · cases hb

namespace Site

/-- The members of the call whose checks have still to begin. -/
def opening (s : Site) (n : Nat) : List Nat :=
  s.chores.filterMap (·.opens? n)

/-- The documents whose runs are dispatched with a move; what timers dispatch is passed over. -/
def checked (s : Site) (m : Move) : List String :=
  match m with
  | .ring _ => []
  | m => ((s.step m).workspace.reviewer.runs.drop s.workspace.reviewer.runs.length).map Run.document

/-- No call is under way; runs may be. -/
structure Idle (s : Site) : Prop where
  calls : s.workspace.calls = []
  reviews : s.workspace.reviewer.calls = []
  hosts : ∀ n, s.workspace.registry.calls.get? (.host n) = none

variable {s : Site} {m : Move} {e : Event} {w₁ : Workspace} {n : Nat} {calls : Keyed Nat Stage}
  {reviews : Keyed Nat Call} {ps : List Review.Event} {rs : List (Nat × Outcome Reply)}
  {fresh : Nat}

theorem Idle.lined (h : s.Idle) (regular : s.Regular) (may : Plugin → Bool → Prop) :
    s.Lined may [] := by
  refine ⟨regular.below.orderly.line regular.below.seated fun key => ?_, ?_⟩
  · cases key with
    | host n => exact Registry.not_claims_of_gone (h.hosts n)
    | run k => exact regular.below.runs k
  · exact fun n hn => absurd (h.hosts n) hn

/-! ## What is put off -/

/-- What a step of the workspace is to the site. -/
structure Goes (n : Nat) (calls : Keyed Nat Stage) (reviews : Keyed Nat Call)
    (ps : List Review.Event) (rs : List (Nat × Outcome Reply)) (fresh : Nat) (w₁ : Workspace)
    (s : Site) (m : Move) : Prop where
  calls : (s.step m).workspace.calls = calls
  reviews : (s.step m).workspace.reviewer.calls = reviews
  documents : (s.step m).workspace.documents = w₁.documents
  buffers : (s.step m).workspace.reviewer.buffers = w₁.reviewer.buffers
  opening : (s.step m).opening n = (s.spend m).opening n ++ ps.filterMap (·.opens? n)
  gathered : .gathered n ∈ (s.step m).chores → .gathered n ∈ (s.spend m).chores ∨ .gathered n ∈ ps
  replies : s.replies m = rs
  runs : (s.step m).workspace.reviewer.runs.length = w₁.reviewer.runs.length + fresh

theorem filterMap_opens? (n : Nat) (chores : List Review.Event) :
    (chores.filter isPart).filterMap (·.opens? n) = chores.filterMap (·.opens? n) := by
  rw [List.filterMap_filter]
  refine congrArg (List.filterMap · chores) (funext fun e => ?_)
  cases e <;> rfl

/-- What the workspace has put off becomes due at the site. -/
theorem goes_of_proceeds (event : s.event? m = some e) (calm : w₁.outbox = [])
    (h : Workspace.Proceeds calls reviews ps rs fresh w₁ (s.workspace.step e)) :
    Goes n calls reviews ps rs fresh w₁ s m := by
  have hstep : s.step m = (s.spend m).react e := by rw [Site.step, event]
  have hspent : (s.spend m).workspace = s.workspace := spend_workspace event
  have hchores : (s.step m).chores =
      (s.spend m).chores ++ (s.workspace.step e).outbox.filterMap Effect.chore? := by
    rw [hstep]
    change (s.spend m).chores ++ ((s.spend m).workspace.step e).outbox.filterMap Effect.chore? = _
    rw [hspent]
  have hworkspace := step_workspace event
  have hparts : ((s.workspace.step e).outbox.filterMap Effect.chore?).filter isPart = ps := by
    have hnone : w₁.parts = [] := by rw [Workspace.parts, calm]; rfl
    exact h.parts.trans (by rw [hnone, List.nil_append])
  refine ⟨?_, ?_, ?_, ?_, ?_, ?_, ?_, ?_⟩
  · rw [hworkspace]
    exact h.calls
  · rw [hworkspace]
    exact h.reviews
  · rw [hworkspace]
    exact h.documents
  · rw [hworkspace]
    exact h.buffers
  · unfold opening
    rw [hchores, List.filterMap_append, ← hparts, filterMap_opens?]
  · intro hmem
    rw [hchores] at hmem
    refine (List.mem_append.1 hmem).imp_right fun hnew => ?_
    rw [← hparts]
    exact List.mem_filter.2 ⟨hnew, rfl⟩
  · have hnone : w₁.replies = [] := by rw [Workspace.replies, calm]; rfl
    unfold Site.replies
    simp only [event]
    exact h.replies.trans (by rw [hnone, List.nil_append])
  · rw [hworkspace]
    exact h.runs

theorem chores_spend (s : Site) (m : Move) : (s.spend m).chores.Sublist s.chores := by
  cases m with
  | chore k => exact List.eraseIdx_sublist _ _
  | _ => exact .refl _

theorem opening_spend (s : Site) (m : Move) (n : Nat) :
    ((s.spend m).opening n).Sublist (s.opening n) :=
  (chores_spend s m).filterMap _

/-- Nothing of the call is put off. -/
theorem Goes.unopened (h : Goes n calls reviews [] rs fresh w₁ s m) (opening : s.opening n = [])
    (gathered : .gathered n ∉ s.chores) :
    (s.step m).opening n = [] ∧ .gathered n ∉ (s.step m).chores := by
  refine ⟨?_, fun hmem => ?_⟩
  · rw [h.opening, List.filterMap_nil, List.append_nil]
    exact List.eq_nil_of_sublist_nil (opening ▸ opening_spend s m n)
  · rcases h.gathered hmem with hold | hnew
    · exact gathered ((chores_spend s m).subset hold)
    · cases hnew

/-- Each check begins once. -/
theorem not_opening_spend (inner : m.inner = true) {i : Nat}
    (event : s.event? m = some (.review (.member n i))) (once : (s.opening n).Nodup) :
    i ∈ s.opening n ∧ i ∉ (s.spend m).opening n := by
  have hopens : Event.opens? n (.member n i) = some i := if_pos rfl
  rcases inner_cases inner event with ⟨_, ⟨⟩⟩ | ⟨k, _, rfl, hchore, ⟨⟩⟩ | ⟨_, _, _, ⟨⟩⟩
  obtain ⟨hlt, hget⟩ := List.getElem?_eq_some_iff.1 hchore
  have hsplit : s.opening n = (s.chores.take k).filterMap (·.opens? n) ++
      i :: (s.chores.drop (k + 1)).filterMap (·.opens? n) := by
    unfold opening
    conv_lhs => rw [← List.take_append_drop k s.chores, List.drop_eq_getElem_cons hlt, hget]
    rw [List.filterMap_append, List.filterMap_cons_some hopens]
  have hspent : (s.spend (.chore k)).opening n = (s.chores.take k).filterMap (·.opens? n) ++
      (s.chores.drop (k + 1)).filterMap (·.opens? n) := by
    change (s.chores.eraseIdx k).filterMap _ = _
    rw [List.eraseIdx_eq_take_drop_succ, List.filterMap_append]
  rw [hsplit] at once ⊢
  rw [hspent]
  exact ⟨by simp, (List.nodup_cons.1 (List.perm_middle.nodup_iff.1 once)).1⟩

/-! ## How far the call has got -/

/-- An answer tells whether the plugin is available. -/
def Tells (available : Plugin → Bool) (p : Plugin) (ok : Bool) : Prop :=
  ok = available p

/-- The call waits for its plugins. -/
structure Rebuilds (available : Plugin → Bool) (n : Nat) (o : Registry.Replacement) (s : Site) :
    Prop where
  lined : s.Lined (Tells available) [o]
  number : o.number = n
  calls : s.workspace.calls = [(n, .rebuilding)]
  reviews : s.workspace.reviewer.calls = []
  opening : s.opening n = []
  gathered : .gathered n ∉ s.chores

/-- The call has its members checked. -/
structure Checks (available : Plugin → Bool) (n : Nat) (members : List (String × Member)) (s : Site) :
    Prop where
  lined : s.Lined (Tells available) []
  calls : s.workspace.calls = [(n, .diagnosing)]
  reviews : s.workspace.reviewer.calls = [(n, ⟨.several members, false⟩)]
  due : ∀ i ∈ s.opening n, ∃ name, members[i]? = some (name, .waiting)
  once : (s.opening n).Nodup
  gathered : .gathered n ∈ s.chores → Reviewer.allSettled members = true
  shell : ∀ name ∈ members.map Prod.fst, (s.workspace.reviewer.document name).isShell = true

/-- No call is under way any more. -/
structure Over (available : Plugin → Bool) (s : Site) : Prop where
  lined : s.Lined (Tells available) []
  calls : s.workspace.calls = []
  reviews : s.workspace.reviewer.calls = []

/-- The plugins that are registered, and the names that are active. -/
structure Holds (plugins : Keyed String Plugin) (active : List String) (s : Site) : Prop where
  plugins : s.workspace.registry.plugins = plugins
  active : s.workspace.registry.active = active

/-- How far the call has got that puts the plugins in place and has the targets checked; the checks of
some documents have begun. -/
inductive Applies (available : Plugin → Bool) (n : Nat) (plugins : Keyed String Plugin)
    (active : List String) (targets : List String) (s : Site) (checked : List String) : Prop
  | rebuilds (o : Registry.Replacement) (state : s.Rebuilds available n o) (fresh : o.fresh = plugins)
      (passing : o.passing available = active) (shell : s.workspace.shellDocuments = targets)
      (none : checked = [])
  | checks (members : List (String × Member)) (state : s.Checks available n members)
      (holds : s.Holds plugins active) (names : members.map Prod.fst = targets)
      (begun : checked.Perm (started members))
  | ended (state : s.Over available)

/-- What a move is to the call. -/
structure Carries (available : Plugin → Bool) (n : Nat) (plugins : Keyed String Plugin)
    (active : List String) (targets checked : List String) (w₁ : Workspace) (s : Site) (m : Move) :
    Prop where
  applies : (s.step m).Applies available n plugins active targets (checked ++ s.checked m)
  documents : (s.step m).workspace.documents = w₁.documents
  buffers : (s.step m).workspace.reviewer.buffers = w₁.reviewer.buffers
  returns : (n, .done .settled) ∈ s.replies m →
    (s.step m).Holds plugins active ∧ (checked ++ s.checked m).Perm targets
  heads : ∀ name ∈ s.checked m, (s.step m).workspace.desk =
    s.workspace.desk.diagnose (s.workspace.reviewer.document name).uri name

section Carrying

variable {available : Plugin → Bool} {plugins : Keyed String Plugin} {active : List String}
  {targets checked : List String} {members : List (String × Member)} {o : Registry.Replacement}

/-- Nothing is dispatched but by a timer. -/
theorem checked_eq_nil (h : (s.step m).workspace.reviewer.runs.length =
      s.workspace.reviewer.runs.length + fresh) (still : fresh = 0 ∨ ∃ k, m = .ring k) :
    s.checked m = [] := by
  unfold checked
  split
  · rfl
  · rename_i hring
    obtain rfl : fresh = 0 := still.resolve_right fun hrings => hring _ hrings.choose_spec
    have hlength : (s.step m).workspace.reviewer.runs.length ≤ s.workspace.reviewer.runs.length :=
      Nat.le_of_eq h
    rw [List.drop_eq_nil_of_le hlength, List.map_nil]

/-- Only the end of a timer dispatches anything. -/
theorem checked_eq_nil_of_still (h : s.Regular) (inner : m.inner = true) {e : Review.Event}
    (event : s.event? m = some (.review e)) (runs : (s.step m).workspace.reviewer.runs.length =
      s.workspace.reviewer.runs.length + fresh) (still : fresh = 0 ∨ ∃ timer, e = .elapsed timer) :
    s.checked m = [] := by
  refine checked_eq_nil runs (still.imp_right ?_)
  rintro ⟨timer, rfl⟩
  exact ring_of_elapsed h inner event

/-- While no call of the registry ends, the calls of the workspace stay. -/
theorem quiet_goes (h : s.Regular) (reviews : s.workspace.reviewer.calls = [])
    (event : s.event? m = some e) {e' : Review.Event}
    (step : s.workspace.step e = s.workspace.tellReview e') (inner : e'.inner = true)
    (quiet : (s.workspace.reviewer.reached e').hostEnds = []) :
    ∃ fresh, (fresh = 0 ∨ ∃ timer, e' = .elapsed timer) ∧
      Goes n s.workspace.calls [] [] [] fresh s.workspace s m := by
  obtain ⟨fresh, hstill, hproceeds⟩ := quiet_proceeds reviews h.calm inner quiet
  rw [← step] at hproceeds
  exact ⟨fresh, hstill, goes_of_proceeds event h.outbox hproceeds⟩

/-- The call does not return with the move, and nothing is dispatched. -/
theorem carries_of_unchecked
    (applies : (s.step m).Applies available n plugins active targets checked)
    (documents : (s.step m).workspace.documents = w₁.documents)
    (buffers : (s.step m).workspace.reviewer.buffers = w₁.reviewer.buffers)
    (unreturned : (n, .done .settled) ∉ s.replies m) (unchecked : s.checked m = []) :
    Carries available n plugins active targets checked w₁ s m := by
  refine ⟨?_, documents, buffers, fun hreturns => absurd hreturns unreturned, fun name hname => ?_⟩
  · rw [unchecked, List.append_nil]
    exact applies
  · rw [unchecked] at hname
    cases hname

/-- The documents are going to be checked, or there are none. -/
theorem carries_of_sweeps (event : s.event? m = some e) (calm : w₁.outbox = [])
    (runs : w₁.reviewer.runs.length = s.workspace.reviewer.runs.length)
    (opening : s.opening n = []) (gathered : .gathered n ∉ s.chores)
    (lined : (s.step m).Lined (Tells available) []) (holds : (s.step m).Holds plugins active)
    (sweeps : Sweeps n w₁.shellDocuments w₁ (s.workspace.step e)) :
    Carries available n plugins active w₁.shellDocuments [] w₁ s m := by
  have hopening : (s.spend m).opening n = [] :=
    List.eq_nil_of_sublist_nil (opening ▸ opening_spend s m n)
  have hgathered : .gathered n ∉ (s.spend m).chores := fun hmem =>
    gathered ((chores_spend s m).subset hmem)
  cases sweeps with
  | nothing none proceeds =>
      have hgoes := goes_of_proceeds (n := n) event calm proceeds
      have hchecked := checked_eq_nil (hgoes.runs.trans (by rw [runs])) (.inl rfl)
      refine ⟨.ended ⟨lined, hgoes.calls, hgoes.reviews⟩, hgoes.documents, hgoes.buffers, ?_, ?_⟩
      · intro _
        rw [hchecked, none]
        exact ⟨holds, .refl _⟩
      · rw [hchecked]
        nofun
  | waits some proceeds =>
      have hgoes := goes_of_proceeds (n := n) event calm proceeds
      have hchecked := checked_eq_nil (hgoes.runs.trans (by rw [runs])) (.inl rfl)
      have hnames : (w₁.shellDocuments.map (·, Member.waiting)).map Prod.fst = w₁.shellDocuments := by
        rw [List.map_map]
        exact List.map_id _
      have hopens : (s.step m).opening n = List.range w₁.shellDocuments.length := by
        rw [hgoes.opening, hopening, List.nil_append, List.filterMap_map]
        refine (List.filterMap_congr ?_).trans List.filterMap_some
        exact fun i _ => if_pos rfl
      refine ⟨.checks (w₁.shellDocuments.map (·, .waiting)) ⟨lined, hgoes.calls, hgoes.reviews, ?_, ?_, ?_, ?_⟩
        holds hnames ?_, hgoes.documents, hgoes.buffers, ?_, ?_⟩
      · intro i hi
        rw [hopens] at hi
        have hlt := List.mem_range.1 hi
        exact ⟨w₁.shellDocuments[i], by simp [hlt]⟩
      · rw [hopens]
        exact List.nodup_range
      · intro hmem
        refine (hgoes.gathered hmem).elim (absurd · hgathered) fun hnew => ?_
        obtain ⟨i, _, heq⟩ := List.mem_map.1 hnew
        cases heq
      · intro name hname
        rw [hnames] at hname
        have hshell := (List.mem_filter.1 hname).2
        unfold Reviewer.document at hshell ⊢
        rwa [hgoes.buffers]
      · rw [hchecked, started_waiting]
        exact .refl _
      · rw [hgoes.replies]
        nofun
      · rw [hchecked]
        nofun

/-- A move that is none of the host's while nothing of the call is left. -/
theorem Over.carries (state : s.Over available) (h : s.Regular)
    (fair : s.Fair (Tells available) m) (inner : m.inner = true) (event : s.event? m = some e) :
    Carries available n plugins active targets checked s.workspace s m := by
  have hturns := state.lined.turns h (not_closing_of_nil state.calls) fair inner event
  obtain ⟨e', rfl, hinner⟩ := inner_of_event h inner event
  cases hturns with
  | replaced o rest first => cases first
  | stays lined samePlugins sameActive ends =>
      obtain ⟨fresh, hstill, hgoes⟩ := quiet_goes (n := n) h state.reviews event rfl hinner ends
      exact carries_of_unchecked (.ended ⟨lined, hgoes.calls.trans state.calls, hgoes.reviews⟩)
        hgoes.documents hgoes.buffers (hgoes.replies ▸ List.not_mem_nil)
        (checked_eq_nil_of_still h inner event hgoes.runs hstill)

theorem Rebuilds.carries (state : s.Rebuilds available n o) (h : s.Regular)
    (fair : s.Fair (Tells available) m) (inner : m.inner = true) (event : s.event? m = some e) :
    Carries available n o.fresh (o.passing available) s.workspace.shellDocuments [] s.workspace s m := by
  have hturns := state.lined.turns h (not_closing state.calls (by decide)) fair inner event
  obtain ⟨e', rfl, hinner⟩ := inner_of_event h inner event
  cases hturns with
  | replaced o' rest first lined plugins active count ends =>
      cases first
      rw [state.number] at ends
      have hsweeps := rebuilt_sweeps state.calls state.reviews h.calm hinner ends
      exact carries_of_sweeps event h.outbox rfl state.opening state.gathered lined
        ⟨plugins, active available fun _ _ htells => htells⟩ hsweeps
  | stays lined samePlugins sameActive ends =>
      obtain ⟨fresh, hstill, hgoes⟩ := quiet_goes (n := n) h state.reviews event rfl hinner ends
      obtain ⟨hopening, hgathered⟩ := hgoes.unopened state.opening state.gathered
      refine carries_of_unchecked (.rebuilds o ⟨lined, state.number, hgoes.calls.trans state.calls,
        hgoes.reviews, hopening, hgathered⟩ rfl rfl ?_ rfl) hgoes.documents hgoes.buffers
        (hgoes.replies ▸ List.not_mem_nil)
        (checked_eq_nil_of_still h inner event hgoes.runs hstill)
      unfold shellDocuments Reviewer.document
      rw [hgoes.documents, hgoes.buffers]

/-- The call goes on; no member waits that did not wait before. -/
theorem Checks.next (state : s.Checks available n members) {members' : List (String × Member)}
    (goes : Goes n [(n, .diagnosing)] [(n, ⟨.several members', false⟩)] ps rs fresh s.workspace s m)
    (lined : (s.step m).Lined (Tells available) [])
    (names : members'.map Prod.fst = members.map Prod.fst) (none : ps.filterMap (·.opens? n) = [])
    (due : ∀ i ∈ (s.spend m).opening n, ∀ name, members[i]? = some (name, .waiting) →
      members'[i]? = some (name, .waiting))
    (gathered : .gathered n ∈ s.chores ∨ .gathered n ∈ ps → Reviewer.allSettled members' = true) :
    (s.step m).Checks available n members' := by
  have hopens : (s.step m).opening n = (s.spend m).opening n := by
    rw [goes.opening, none, List.append_nil]
  have hsub := opening_spend s m n
  refine ⟨lined, goes.calls, goes.reviews, ?_, ?_, ?_, ?_⟩
  · rw [hopens]
    intro i hi
    obtain ⟨name, hname⟩ := state.due i (hsub.subset hi)
    exact ⟨name, due i hi name hname⟩
  · rw [hopens]
    exact state.once.sublist hsub
  · exact fun hmem => gathered ((goes.gathered hmem).imp_left fun hold => (chores_spend s m).subset hold)
  · unfold Reviewer.document
    rw [goes.buffers, names]
    exact state.shell

/-- A member that is checked has its run dispatched. -/
theorem checked_of_member {i : Nat} {name : String}
    (event : s.event? m = some (.review (.member n i)))
    (desk : (s.step m).workspace.desk =
      s.workspace.desk.diagnose (s.workspace.reviewer.document name).uri name) :
    s.checked m = [name] := by
  have hruns := congrArg Desk.runs desk
  change (s.step m).workspace.reviewer.runs = s.workspace.reviewer.runs ++ _ at hruns
  unfold Site.checked
  split
  · obtain ⟨timer, _, hring⟩ := Option.map_eq_some_iff.1 event
    cases hring
  · rw [hruns, List.drop_left]
    rfl

/-- The check of one more member begins. -/
theorem Checks.opens (state : s.Checks available n members) {i : Nat} {name : String}
    (inner : m.inner = true) (event : s.event? m = some (.review (.member n i)))
    (holds : (s.step m).Holds plugins active) (begun : checked.Perm (started members))
    (lined : (s.step m).Lined (Tells available) [])
    (waiting : members[i]? = some (name, .waiting))
    (desk : (s.workspace.step (.review (.member n i))).desk =
      s.workspace.desk.diagnose (s.workspace.reviewer.document name).uri name)
    (goes : Goes n [(n, .diagnosing)] [(n, ⟨.several (Reviewer.setMember members i
      (.running s.workspace.reviewer.runs.length)), false⟩)] [] [] 1 s.workspace s m) :
    Carries available n plugins active (members.map Prod.fst) checked s.workspace s m := by
  have hdesk := (congrArg Workspace.desk (step_workspace event)).trans desk
  have hchecked := checked_of_member event hdesk
  have hspent := (not_opening_spend inner event state.once).2
  have hnext := state.next goes lined (map_fst_setMember members i _) rfl
    (fun j hj name' hname => waiting_setMember hname (by rintro rfl; exact hspent hj) _)
    (·.elim (fun hmem => absurd (state.gathered hmem) (not_allSettled waiting))
      fun hnew => absurd hnew List.not_mem_nil)
  refine ⟨.checks _ hnext holds (map_fst_setMember members i _) ?_, goes.documents, goes.buffers,
    fun hreturns => ?_, fun name' hname => ?_⟩
  · rw [hchecked]
    exact (begun.append_right [name]).trans (started_setMember waiting _).symm
  · rw [goes.replies] at hreturns
    cases hreturns
  · rw [hchecked] at hname
    rw [List.mem_singleton.1 hname]
    exact hdesk

/-- The call that returns has had all its members checked. -/
theorem Checks.returns (state : s.Checks available n members) {outcome : Outcome Review.Reply}
    {e : Review.Event} (inner : m.inner = true) (event : s.event? m = some (.review e))
    (begun : checked.Perm (started members))
    (complete : ∀ reply, outcome = .done reply → e = .gathered n)
    (returns : concluded outcome = .done .settled) : checked.Perm (members.map Prod.fst) := by
  cases outcome with
  | raised trouble => cases returns
  | aborted => cases returns
  | done reply =>
      obtain rfl := complete reply rfl
      rw [← started_of_allSettled (state.gathered ?_)]
      · exact begun
      · rcases inner_cases inner event with ⟨_, ⟨⟩⟩ | ⟨k, _, rfl, hchore, ⟨⟩⟩ | ⟨_, _, _, ⟨⟩⟩
        exact List.mem_of_getElem? hchore

/-- The members go on being checked, or the call is over; it returns when all have come to a verdict. -/
theorem Checks.carries (state : s.Checks available n members) (h : s.Regular)
    (fair : s.Fair (Tells available) m) (inner : m.inner = true) (event : s.event? m = some e)
    (holds : s.Holds plugins active) (begun : checked.Perm (started members)) :
    Carries available n plugins active (members.map Prod.fst) checked s.workspace s m := by
  have hturns := state.lined.turns h (not_closing state.calls (by decide)) fair inner event
  obtain ⟨e', rfl, hinner⟩ := inner_of_event h inner event
  cases hturns with
  | replaced o rest first => cases first
  | stays lined samePlugins sameActive ends =>
      have hholds : (s.step m).Holds plugins active :=
        ⟨samePlugins.trans holds.plugins, sameActive.trans holds.active⟩
      have hdue (i : Nat) (heq : e' = .member n i) : ∃ name, members[i]? = some (name, .waiting) := by
        subst heq
        exact state.due i (not_opening_spend inner event state.once).1
      cases tellReview_follows state.calls state.reviews h.calm hinner hdue state.shell ends with
      | rests fresh still proceeds =>
          rw [state.calls, state.reviews] at proceeds
          have hgoes := goes_of_proceeds (n := n) event h.outbox proceeds
          have hnext := state.next hgoes lined rfl rfl (fun _ _ _ hname => hname)
            (·.elim state.gathered fun hnew => absurd hnew List.not_mem_nil)
          exact carries_of_unchecked (.checks members hnext hholds rfl begun) hgoes.documents
            hgoes.buffers (hgoes.replies ▸ List.not_mem_nil)
            (checked_eq_nil_of_still h inner event hgoes.runs still)
      | checks i name heq waiting desk proceeds =>
          subst heq
          rw [state.calls] at proceeds
          exact state.opens inner event hholds begun lined waiting desk
            (goes_of_proceeds event h.outbox proceeds)
      | settles run verdict proceeds =>
          rw [state.calls] at proceeds
          have hgoes := goes_of_proceeds (n := n) event h.outbox proceeds
          have hnone : (if Reviewer.allSettled (settle members run verdict) then
              [Event.gathered n] else []).filterMap (·.opens? n) = [] := by
            split <;> rfl
          have hnext := state.next hgoes lined (map_fst_settle members run verdict) hnone
            (fun _ _ _ hname => waiting_settle hname run verdict) (Or.rec
              (fun hmem => allSettled_settle (state.gathered hmem) run verdict) fun hnew => by
                split at hnew
                · assumption
                · cases hnew)
          refine carries_of_unchecked (.checks _ hnext hholds (map_fst_settle members run verdict) ?_)
            hgoes.documents hgoes.buffers (hgoes.replies ▸ List.not_mem_nil)
            (checked_eq_nil hgoes.runs (.inl rfl))
          rw [started_settle]
          exact begun
      | ended outcome complete proceeds =>
          have hgoes := goes_of_proceeds (n := n) event h.outbox proceeds
          have hchecked : s.checked m = [] := checked_eq_nil hgoes.runs (.inl rfl)
          refine ⟨.ended ⟨lined, hgoes.calls, hgoes.reviews⟩, hgoes.documents, hgoes.buffers,
            fun hreturns => ⟨hholds, ?_⟩, fun name hname => ?_⟩
          · rw [hgoes.replies] at hreturns
            have hdone := congrArg Prod.snd (List.mem_singleton.1 hreturns)
            rw [hchecked, List.append_nil]
            exact state.returns inner event begun complete hdone.symm
          · rw [hchecked] at hname
            cases hname

/-! ## From the beginning to the end -/

theorem spend_inner (inner : m.inner = true) (s : Site) : (s.spend m).workspace = s.workspace := by
  cases m with
  | load loader => cases inner
  | _ => rfl

theorem Applies.spend (h : s.Applies available n plugins active targets checked)
    (inner : m.inner = true) : (s.spend m).Applies available n plugins active targets checked := by
  have hspent := spend_inner inner s
  have hsub := opening_spend s m n
  have hchores : .gathered n ∈ (s.spend m).chores → .gathered n ∈ s.chores :=
    fun hmem => (chores_spend s m).subset hmem
  cases h with
  | rebuilds o state fresh passing shell none =>
      refine .rebuilds o ⟨state.lined.spend m, state.number, ?_, ?_, ?_, ?_⟩ fresh passing ?_ none
      · rw [hspent]
        exact state.calls
      · rw [hspent]
        exact state.reviews
      · exact List.eq_nil_of_sublist_nil (state.opening ▸ hsub)
      · exact fun hmem => state.gathered (hchores hmem)
      · rw [hspent]
        exact shell
  | checks members state holds names begun =>
      refine .checks members ⟨state.lined.spend m, ?_, ?_, ?_, ?_, ?_, ?_⟩ ⟨?_, ?_⟩ names begun
      · rw [hspent]
        exact state.calls
      · rw [hspent]
        exact state.reviews
      · exact fun i hi => state.due i (hsub.subset hi)
      · exact state.once.sublist hsub
      · exact fun hmem => state.gathered (hchores hmem)
      · rw [hspent]
        exact state.shell
      · rw [hspent]
        exact holds.plugins
      · rw [hspent]
        exact holds.active
  | ended state =>
      refine .ended ⟨state.lined.spend m, ?_, ?_⟩
      · rw [hspent]
        exact state.calls
      · rw [hspent]
        exact state.reviews

/-- What any move is to the call that is none of the host's. -/
theorem Applies.carries (applies : s.Applies available n plugins active targets checked)
    (h : s.Regular) (fair : s.Fair (Tells available) m) (inner : m.inner = true) :
    Carries available n plugins active targets checked s.workspace s m := by
  cases event : s.event? m with
  | none =>
      have hstep : s.step m = s.spend m := by rw [Site.step, event]
      have hspent := spend_inner inner s
      have hruns : (s.step m).workspace.reviewer.runs.length =
          s.workspace.reviewer.runs.length + 0 := by rw [hstep, hspent, Nat.add_zero]
      have hreplies : s.replies m = [] := by
        unfold Site.replies
        rw [event]
      refine carries_of_unchecked ?_ (by rw [hstep, hspent]) (by rw [hstep, hspent])
        (hreplies ▸ List.not_mem_nil) (checked_eq_nil hruns (.inl rfl))
      rw [hstep]
      exact applies.spend inner
  | some e =>
      cases applies with
      | rebuilds o state fresh passing shell none =>
          subst fresh passing shell none
          exact state.carries h fair inner event
      | checks members state holds names begun =>
          subst names
          exact state.carries h fair inner event holds begun
      | ended state => exact state.carries h fair inner event

/-- What the call itself is, when nothing else is under way. -/
theorem Idle.carries (idle : s.Idle) (h : s.Regular) {settings : Settings} {documents : List String}
    (event : s.event? m = some (.call n (.apply settings documents))) :
    Carries available n (s.workspace.pluginsAfter settings) (s.workspace.activeAfter settings available)
      (s.workspace.prepare settings documents).shellDocuments []
      (s.workspace.prepare settings documents) s m := by
  obtain ⟨_, houtbox, _, _⟩ := prepare_same s.workspace settings documents
  have hcalm : (s.workspace.prepare settings documents).outbox = [] := houtbox.trans h.outbox
  have hunmentioned := (new_of_admits (admits_of_event h event rfl).1 rfl).2
  have hopening : s.opening n = [] := by
    refine List.filterMap_eq_nil_iff.2 fun e he => ?_
    have habout := List.all_eq_true.1 hunmentioned e he
    cases e with
    | member k i => exact if_neg (by simpa [Review.Event.about?] using habout)
    | _ => rfl
  have hgathered : .gathered n ∉ s.chores := by
    intro hmem
    have habout := List.all_eq_true.1 hunmentioned _ hmem
    simp [Review.Event.about?] at habout
  have hturns := (idle.lined h (Tells available)).apply h (not_closing_of_nil idle.calls) event
  have hsweeps (lined : (s.step m).Lined (Tells available) [])
      (holds : (s.step m).Holds (s.workspace.pluginsAfter settings)
        (s.workspace.activeAfter settings available))
      (sweeps : Sweeps n (s.workspace.prepare settings documents).shellDocuments
        (s.workspace.prepare settings documents)
        (s.workspace.step (.call n (.apply settings documents)))) :=
    carries_of_sweeps event hcalm rfl hopening hgathered lined holds sweeps
  cases apply_begins idle.calls idle.reviews h.calm n settings documents with
  | fails failure unordered proceeds =>
      rw [unordered] at hturns
      have hgoes := goes_of_proceeds (n := n) event hcalm proceeds
      have hunreturned : (n, .done .settled) ∉ s.replies m := by
        rw [hgoes.replies]
        simp
      cases hturns with
      | replaced o rest first => cases first
      | stays lined samePlugins sameActive ends =>
          exact carries_of_unchecked (.ended ⟨lined, hgoes.calls, hgoes.reviews⟩) hgoes.documents
            hgoes.buffers hunreturned (checked_eq_nil hgoes.runs (.inl rfl))
  | keeps affects unordered sweeps =>
      rw [unordered] at hturns
      cases hturns with
      | replaced o rest first => cases first
      | stays lined samePlugins sameActive ends =>
          refine hsweeps lined ⟨samePlugins.trans ?_, sameActive.trans ?_⟩ sweeps
          · rw [pluginsAfter, if_neg (by simp [affects])]
          · rw [activeAfter, if_neg (by simp [affects])]
  | orders o order rebuilds sweeps =>
      obtain ⟨haffects, rfl⟩ := order?_apply order
      rw [order] at hturns
      have hfresh : ((s.workspace.ordering n settings).replacement s.workspace.factories).fresh =
          s.workspace.pluginsAfter settings := by
        rw [pluginsAfter, if_pos haffects]
        rfl
      have hpassing :
          ((s.workspace.ordering n settings).replacement s.workspace.factories).passing available =
            s.workspace.activeAfter settings available := by
        rw [activeAfter, if_pos haffects]
        rfl
      cases hturns with
      | replaced o' rest first lined plugins active count ends =>
          cases first
          exact hsweeps lined ⟨plugins.trans hfresh,
            (active available fun _ _ htells => htells).trans hpassing⟩ (sweeps count ends)
      | stays lined samePlugins sameActive ends =>
          have hgoes := goes_of_proceeds (n := n) event hcalm (rebuilds ends)
          obtain ⟨hopens, hgathers⟩ := hgoes.unopened hopening hgathered
          refine carries_of_unchecked (.rebuilds _ ⟨lined, rfl, hgoes.calls, hgoes.reviews, hopens,
            hgathers⟩ hfresh hpassing ?_ rfl) hgoes.documents hgoes.buffers
            (hgoes.replies ▸ List.not_mem_nil) (checked_eq_nil hgoes.runs (.inl rfl))
          unfold shellDocuments Reviewer.document
          rw [hgoes.documents, hgoes.buffers]

end Carrying

end Site

end Workspace

end Shellwright
