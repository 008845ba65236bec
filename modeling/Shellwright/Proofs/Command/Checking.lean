import Shellwright.Command.Check
import Shellwright.Proofs.Command.Work
import Shellwright.Proofs.Workspace.Configured
import Shellwright.Proofs.Workspace.Together
/-!
# Checking several scripts at once

The runs of several scripts do not get into each other's way, except that a script that is given again
has its first run called off. What a tool would have said about it is lost, and the check counts as one
that did not complete.
-/

namespace Shellwright

open Command (Checked Script Session checkStatus loadScripts verdictsOn)

/-! ## What is called off -/

namespace Workshop

variable {s : Workshop} {d : TextDocument}

/-- Whoever knows a command and is called off leaves the verdict open. -/
theorem verdict_off {p : Plugin} (asked : p ∈ s.asked d) (command : p.hasCommand = true) :
    (s.verdict true d).inconclusive = true := by
  have hshare : (s.tools.share s.limit true d p).inconclusive = true :=
    Tools.share_off s.tools s.settings.diagnosis.timeout d command
  exact List.any_eq_true.2 ⟨_, List.mem_map_of_mem asked, hshare⟩

theorem verdict_same (nobody : ∀ p ∈ s.asked d, p.hasCommand = false) :
    s.verdict true d = s.verdict false d := by
  have hshares : (s.asked d).map (s.tools.share s.limit true d) =
      (s.asked d).map (s.tools.share s.limit false d) :=
    List.map_congr_left fun p hp => Tools.share_same s.tools s.limit d (nobody p hp)
  unfold verdict
  rw [hshares]

/-- The run of the document in place `k` is called off, and somebody would have run a command for it. -/
def isCutOff (s : Workshop) (documents : List TextDocument) (k : Nat) : Bool :=
  isRepeated documents k && documents[k]?.any fun d => (s.asked d).any Plugin.hasCommand

variable {documents : List TextDocument} {k : Nat}

theorem lt_of_isCutOff (h : s.isCutOff documents k = true) : k < documents.length := by
  by_contra hout
  have hnone : documents[k]? = none := List.getElem?_eq_none (Nat.le_of_not_lt hout)
  rw [isCutOff, hnone, Option.any_none, Bool.and_false] at h
  cases h

theorem verdict_cutOff (hk : documents[k]? = some d) (h : s.isCutOff documents k = true) :
    (s.verdict (isRepeated documents k) d).inconclusive = true := by
  obtain ⟨hrepeated, hcommand⟩ := Bool.and_eq_true_iff.1 h
  rw [hk] at hcommand
  obtain ⟨p, hp, hcommand⟩ := List.any_eq_true.1 hcommand
  rw [hrepeated]
  exact verdict_off hp hcommand

theorem verdict_uncut (hk : documents[k]? = some d) (h : s.isCutOff documents k = false) :
    s.verdict (isRepeated documents k) d = s.verdict false d := by
  cases hrepeated : isRepeated documents k with
  | false => rfl
  | true =>
      rw [isCutOff, hrepeated, hk] at h
      exact verdict_same fun p hp => by simpa using List.any_eq_false.1 h p hp

theorem isRepeated_single (d : TextDocument) (k : Nat) : isRepeated [d] k = false := by
  cases k <;> simp [isRepeated]

theorem span_single {documents : List TextDocument} (h : d ∈ documents) : s.span [d] ≤ s.span documents := by
  obtain ⟨before, after, rfl⟩ := List.append_of_mem h
  unfold span
  simp only [List.map_append, List.map_cons, List.map_nil, List.sum_append, List.sum_cons, List.sum_nil]
  omega

/-! ## The verdicts on documents -/

/-- The replies to the calls with which the documents have been opened, once all are there. -/
def answers (s : Workshop) (documents : List TextDocument) (picks : Nat → Nat) (t : Nat) :
    Option (List Workspace.Reply) :=
  documents.zipIdx.mapM fun e =>
    match (s.floor documents picks t).replies.get? e.2 with
    | some (.done reply) => some reply
    | _ => none

theorem mapM_some {α β : Type} {xs : List α} {f : α → Option β} {g : α → β}
    (h : ∀ x ∈ xs, f x = some (g x)) : xs.mapM f = some (xs.map g) := by
  induction xs with
  | nil => rfl
  | cons x rest ih =>
      rw [List.mapM_cons, h x List.mem_cons_self, ih fun y hy => h y (List.mem_cons_of_mem _ hy)]
      rfl

theorem answers_eq (willing : s.Willing) (shell : ∀ d ∈ documents, d.isShell = true)
    (picks : Nat → Nat) {t : Nat} (late : s.span documents ≤ t) :
    s.answers documents picks t = some (documents.zipIdx.map fun e =>
      .review (.verdict (some (s.verdict (isRepeated documents e.2) e.1)))) := by
  refine mapM_some fun e he => ?_
  have hreplies := floor_replies willing shell picks late (List.mem_zipIdx_iff_getElem?.1 he)
  rw [Keyed.get?, ← List.head?_filter, hreplies]
  rfl

end Workshop

namespace Command

/-! ## Reading scripts -/

/-- The shell script that a path leads to. -/
def scriptAt (t : Files.Tree) (path : String) : Option Script :=
  match Files.loadDocument t (Path.ofString path).text none with
  | .ok d => if d.isShell then some ⟨(Path.ofString path).text, d⟩ else none
  | .error _ => none

def scriptsAt (t : Files.Tree) (paths : List String) : List Script :=
  paths.filterMap (scriptAt t)

variable {tree : Files.Tree} {path : String} {x : Script} {paths : List String} {session : Session}

theorem scriptAt_eq (h : scriptAt tree path = some x) :
    x.path = (Path.ofString path).text ∧ Files.loadDocument tree x.path none = .ok x.document ∧
      x.document.isShell = true := by
  unfold scriptAt at h
  split at h
  · rename_i d hload
    split at h
    · rename_i hshell
      cases h
      exact ⟨rfl, hload, hshell⟩
    · cases h
  · cases h

/-- The documents of the scripts that paths lead to. -/
def documentsAt (t : Files.Tree) (paths : List String) : List TextDocument :=
  (scriptsAt t paths).map Script.document

/-- Every path leads to a script. -/
theorem map_scriptAt (readable : ∀ path ∈ paths, (scriptAt tree path).isSome = true) :
    paths.map (scriptAt tree) = (scriptsAt tree paths).map some := by
  induction paths with
  | nil => rfl
  | cons path rest ih =>
      obtain ⟨x, hx⟩ := Option.isSome_iff_exists.1 (readable path List.mem_cons_self)
      have hrest := ih fun other hother => readable other (List.mem_cons_of_mem _ hother)
      rw [scriptsAt, List.filterMap_cons_some hx, List.map_cons, hx, hrest]
      rfl

theorem isShell_scriptsAt (h : x ∈ scriptsAt tree paths) : x.document.isShell = true := by
  obtain ⟨path, _, hx⟩ := List.mem_filterMap.1 h
  exact (scriptAt_eq hx).2.2

theorem loadScripts_eq (readable : ∀ path ∈ paths, (scriptAt session.files path).isSome = true) :
    loadScripts paths session = (.ok (scriptsAt session.files paths), session) := by
  induction paths with
  | nil => rfl
  | cons path rest ih =>
      obtain ⟨x, hx⟩ := Option.isSome_iff_exists.1 (readable path List.mem_cons_self)
      obtain ⟨hpath, hload, hshell⟩ := scriptAt_eq hx
      have hrest := ih fun other hother => readable other (List.mem_cons_of_mem _ hother)
      have hscripts : scriptsAt session.files (path :: rest) = x :: scriptsAt session.files rest :=
        List.filterMap_cons_some hx
      unfold loadScripts
      refine (Work.bind_of_ok (x := (get : Work Session)) (s := session) rfl _).trans ?_
      rw [hpath] at hload
      simp only [hload, hshell]
      rw [if_pos trivial, Work.bind_of_ok hrest, hscripts, ← hpath]
      rfl

/-! ## The verdicts on scripts -/

/-- The replies are verdicts, so every script has one. -/
theorem verdictsOn_eq (scripts : List Script) (verdict : TextDocument × Nat → Verdict) (n : Nat) :
    verdictsOn scripts (((scripts.map Script.document).zipIdx n).map fun e =>
        .review (.verdict (some (verdict e)))) =
      (scripts.zipIdx n).map fun e => ⟨e.1, verdict (e.1.document, e.2)⟩ := by
  induction scripts generalizing n with
  | nil => rfl
  | cons x rest ih => exact congrArg (_ :: ·) (ih (n + 1))

theorem checkStatus_eq_one {cs : List Checked} : checkStatus cs = 1 ↔ ∃ c ∈ cs, c.fails = true := by
  rw [← List.any_eq_true]
  unfold checkStatus
  split
  · rename_i hfails
    exact iff_of_true rfl hfails
  · rename_i hfails
    exact iff_of_false nofun hfails

theorem checkStatus_single {c : Checked} : checkStatus [c] = 1 ↔ c.fails = true := by
  rw [checkStatus_eq_one]
  simp

/-- To check scripts together is to check each of them. -/
structure Agrees (together : List Checked) (alone : List (List Checked)) : Prop where
  status : checkStatus together = 1 ↔ ∃ cs ∈ alone, checkStatus cs = 1
  lines : together.flatMap Checked.lines = alone.flatMap fun cs => cs.flatMap Checked.lines

theorem flatMap_sublist {α β : Type} {xs : List α} {f g : α → List β}
    (h : ∀ x ∈ xs, (f x).Sublist (g x)) : (xs.flatMap f).Sublist (xs.flatMap g) := by
  induction xs with
  | nil => exact .slnil
  | cons x rest ih =>
      obtain ⟨hfirst, hrest⟩ := List.forall_mem_cons.1 h
      exact hfirst.append (ih hrest)

/-- Where lists were left out nothing has been lost if and only if they were empty. -/
theorem flatMap_eq_iff {α β : Type} {xs : List α} {f g : α → List β} {left : α → Prop}
    (out : ∀ x ∈ xs, left x → f x = []) (kept : ∀ x ∈ xs, ¬left x → f x = g x) :
    xs.flatMap f = xs.flatMap g ↔ ∀ x ∈ xs, left x → g x = [] := by
  have hsublist (x : α) (hx : x ∈ xs) : (f x).Sublist (g x) := by
    by_cases hleft : left x
    · exact out x hx hleft ▸ List.nil_sublist _
    · exact kept x hx hleft ▸ List.Sublist.refl _
  induction xs with
  | nil => exact ⟨fun _ _ hx => absurd hx List.not_mem_nil, fun _ => rfl⟩
  | cons x rest ih =>
      obtain ⟨houtfirst, houtrest⟩ := List.forall_mem_cons.1 out
      obtain ⟨hkeptfirst, hkeptrest⟩ := List.forall_mem_cons.1 kept
      obtain ⟨hfirst, hrest⟩ := List.forall_mem_cons.1 hsublist
      have hothers : rest.flatMap f = rest.flatMap g ↔ ∀ x ∈ rest, left x → g x = [] :=
        ih houtrest hkeptrest hrest
      have hequal : (x :: rest).flatMap f = (x :: rest).flatMap g ↔
          f x = g x ∧ rest.flatMap f = rest.flatMap g := by
        rw [List.flatMap_cons, List.flatMap_cons]
        refine ⟨fun h => ?_, fun ⟨hx, hxs⟩ => hx ▸ hxs ▸ rfl⟩
        -- Neither part is longer on the left than on the right, and together they are as long.
        have hlength := congrArg List.length h
        rw [List.length_append, List.length_append] at hlength
        have hfirstlength := hfirst.length_le
        have hrestlength := (flatMap_sublist hrest).length_le
        exact List.append_inj h (by omega)
      have hhead : f x = g x ↔ (left x → g x = []) := by
        by_cases hleft : left x
        · rw [houtfirst hleft]
          exact ⟨fun h _ => h.symm, fun h => (h hleft).symm⟩
        · exact iff_of_true (hkeptfirst hleft) fun h => absurd h hleft
      rw [hequal, hothers, List.forall_mem_cons, hhead]

end Command

namespace Workshop

variable {s : Workshop} {scripts : List Script}

/-- The verdicts on scripts whose documents have been opened together. -/
def checks (s : Workshop) (scripts : List Script) (picks : Nat → Nat) (t : Nat) :
    Option (List Checked) :=
  (s.answers (scripts.map Script.document) picks t).map (verdictsOn scripts)

/-- The verdict on the script in place `k` of some that are checked together. -/
def checked (s : Workshop) (scripts : List Script) (x : Script) (k : Nat) : Checked :=
  ⟨x, s.verdict (isRepeated (scripts.map Script.document) k) x.document⟩

/-- The verdict on a script that is checked alone. -/
def checkedAlone (s : Workshop) (x : Script) : Checked :=
  ⟨x, s.verdict false x.document⟩

theorem checks_eq (willing : s.Willing) (shell : ∀ x ∈ scripts, x.document.isShell = true)
    (picks : Nat → Nat) {t : Nat} (late : s.span (scripts.map Script.document) ≤ t) :
    s.checks scripts picks t = some (scripts.zipIdx.map fun e => s.checked scripts e.1 e.2) := by
  have hshell : ∀ d ∈ scripts.map Script.document, d.isShell = true := by
    intro d hd
    obtain ⟨x, hx, rfl⟩ := List.mem_map.1 hd
    exact shell x hx
  unfold checks
  rw [answers_eq willing hshell picks late, Option.map_some,
    Command.verdictsOn_eq scripts fun e => s.verdict (isRepeated (scripts.map Script.document) e.2) e.1]
  rfl

variable {cs : List Checked} {tree : Files.Tree} {paths : List String} {k : Nat} {x : Script}

/-- The verdict on a script that comes again is left open, and all others are as if checked alone. -/
theorem checked_eq (hk : scripts[k]? = some x) :
    (s.isCutOff (scripts.map Script.document) k = true →
        (s.checked scripts x k).fails = true ∧ (s.checked scripts x k).lines = []) ∧
      (¬s.isCutOff (scripts.map Script.document) k = true → s.checked scripts x k = s.checkedAlone x) := by
  have hdocument : (scripts.map Script.document)[k]? = some x.document := by
    rw [List.getElem?_map, hk]
    rfl
  constructor
  · intro hcut
    have hopen : (s.checked scripts x k).verdict.inconclusive = true := verdict_cutOff hdocument hcut
    exact ⟨by simp [Checked.fails, hopen], if_pos hopen⟩
  · intro huncut
    exact congrArg (Checked.mk x) (verdict_uncut hdocument (Bool.not_eq_true _ ▸ huncut))

/-- To check scripts together is to check each of them if and only if of a script that comes again
nothing is lost, and some script fails anyway. -/
theorem checked_agrees_iff (s : Workshop) (scripts : List Script) :
    Command.Agrees (scripts.zipIdx.map fun e => s.checked scripts e.1 e.2)
        (scripts.map fun x => [s.checkedAlone x]) ↔
      ∀ (k : Nat) x, scripts[k]? = some x → s.isCutOff (scripts.map Script.document) k = true →
        (s.checkedAlone x).lines = [] ∧ ∃ y ∈ scripts, (s.checkedAlone y).fails = true := by
  have hlines : (scripts.zipIdx.map fun e => s.checked scripts e.1 e.2).flatMap Checked.lines =
      ((scripts.map fun x => [s.checkedAlone x]).flatMap fun cs => cs.flatMap Checked.lines) ↔
        ∀ e ∈ scripts.zipIdx, s.isCutOff (scripts.map Script.document) e.2 = true →
          (s.checkedAlone e.1).lines = [] := by
    have hright : ((scripts.map fun x => [s.checkedAlone x]).flatMap fun cs => cs.flatMap Checked.lines) =
        scripts.zipIdx.flatMap fun e => (s.checkedAlone e.1).lines := by
      have hplaces : scripts.flatMap (fun x => (s.checkedAlone x).lines) =
          (scripts.zipIdx.map Prod.fst).flatMap fun x => (s.checkedAlone x).lines := by
        rw [List.zipIdx_map_fst]
      rw [List.flatMap_map] at hplaces ⊢
      simpa using hplaces
    rw [List.flatMap_map, hright]
    refine Command.flatMap_eq_iff (fun e he hcut => ?_) fun e he huncut => ?_
    · exact ((checked_eq (List.mem_zipIdx_iff_getElem?.1 he)).1 hcut).2
    · exact congrArg Checked.lines ((checked_eq (List.mem_zipIdx_iff_getElem?.1 he)).2 huncut)
  have hstatus : (checkStatus (scripts.zipIdx.map fun e => s.checked scripts e.1 e.2) = 1 ↔
      ∃ cs ∈ scripts.map fun x => [s.checkedAlone x], checkStatus cs = 1) ↔
        ∀ e ∈ scripts.zipIdx, s.isCutOff (scripts.map Script.document) e.2 = true →
          ∃ y ∈ scripts, (s.checkedAlone y).fails = true := by
    have hleft : checkStatus (scripts.zipIdx.map fun e => s.checked scripts e.1 e.2) = 1 ↔
        ∃ e ∈ scripts.zipIdx, (s.checked scripts e.1 e.2).fails = true := by
      rw [Command.checkStatus_eq_one]
      simp
    have hright : (∃ cs ∈ scripts.map fun x => [s.checkedAlone x], checkStatus cs = 1) ↔
        ∃ y ∈ scripts, (s.checkedAlone y).fails = true := by
      simp [Command.checkStatus_single]
    rw [hleft, hright]
    constructor
    · intro h e he hcut
      exact h.1 ⟨e, he, ((checked_eq (List.mem_zipIdx_iff_getElem?.1 he)).1 hcut).1⟩
    · refine fun h => ⟨fun ⟨e, he, hfails⟩ => ?_, fun ⟨x, hx, hfails⟩ => ?_⟩
      · by_cases hcut : s.isCutOff (scripts.map Script.document) e.2 = true
        · exact h e he hcut
        · rw [(checked_eq (List.mem_zipIdx_iff_getElem?.1 he)).2 hcut] at hfails
          exact ⟨e.1, List.mem_of_getElem? (List.mem_zipIdx_iff_getElem?.1 he), hfails⟩
      · obtain ⟨k, hk⟩ := List.mem_iff_getElem?.1 hx
        refine ⟨(x, k), List.mem_zipIdx_iff_getElem?.2 hk, ?_⟩
        by_cases hcut : s.isCutOff (scripts.map Script.document) k = true
        · exact ((checked_eq hk).1 hcut).1
        · rw [(checked_eq hk).2 hcut]
          exact hfails
  constructor
  · intro h k x hk hcut
    have he : (x, k) ∈ scripts.zipIdx := List.mem_zipIdx_iff_getElem?.2 hk
    exact ⟨hlines.1 h.lines _ he hcut, hstatus.1 h.status _ he hcut⟩
  · intro h
    refine ⟨hstatus.2 fun e he hcut => ?_, hlines.2 fun e he hcut => ?_⟩
    · exact (h e.2 e.1 (List.mem_zipIdx_iff_getElem?.1 he) hcut).2
    · exact (h e.2 e.1 (List.mem_zipIdx_iff_getElem?.1 he) hcut).1

/-- The verdicts on the scripts that paths lead to, once all are there; the calls are served in turns that
are picked as `picks` tells. -/
def checkFiles (s : Workshop) (session : Session) (paths : List String) (picks : Nat → Nat) (t : Nat) :
    Option (List Checked) :=
  match (loadScripts paths).run.run session with
  | (.ok scripts, _) => s.checks scripts picks t
  | (.error _, _) => none

variable {session : Session}

theorem checkFiles_eq (willing : s.Willing)
    (readable : ∀ path ∈ paths, (Command.scriptAt session.files path).isSome = true)
    (picks : Nat → Nat) {t : Nat} (late : s.span (Command.documentsAt session.files paths) ≤ t) :
    s.checkFiles session paths picks t =
      some ((Command.scriptsAt session.files paths).zipIdx.map fun e =>
        s.checked (Command.scriptsAt session.files paths) e.1 e.2) := by
  have hload : (loadScripts paths).run.run session =
      (.ok (Command.scriptsAt session.files paths), session) := Command.loadScripts_eq readable
  unfold checkFiles
  rw [hload]
  exact checks_eq willing (fun x hx => Command.isShell_scriptsAt hx) picks late

theorem checkFiles_single (willing : s.Willing) {path : String}
    (hx : Command.scriptAt session.files path = some x) (picks : Nat → Nat) {t : Nat}
    (late : s.span [x.document] ≤ t) :
    s.checkFiles session [path] picks t = some [s.checkedAlone x] := by
  have hreadable : ∀ other ∈ [path], (Command.scriptAt session.files other).isSome = true := by
    intro other hother
    rw [List.mem_singleton.1 hother, hx]
    rfl
  have hscripts : Command.scriptsAt session.files [path] = [x] := List.filterMap_cons_some hx
  have hcheck : s.checkFiles session [path] picks t = some ([x].zipIdx.map fun e => s.checked [x] e.1 e.2) := by
    rw [← hscripts]
    exact checkFiles_eq willing hreadable picks (by rwa [Command.documentsAt, hscripts])
  rw [hcheck]
  simp [checked, checkedAlone, isRepeated_single]

theorem checkFiles_each (willing : s.Willing)
    (readable : ∀ path ∈ paths, (Command.scriptAt session.files path).isSome = true)
    (single : Nat → Nat → Nat) {t : Nat}
    (late : s.span (Command.documentsAt session.files paths) ≤ t) :
    (paths.zipIdx.mapM fun e => s.checkFiles session [e.1] (single e.2) t) =
      some ((Command.scriptsAt session.files paths).map fun x => [s.checkedAlone x]) := by
  have heach : ∀ e ∈ paths.zipIdx, s.checkFiles session [e.1] (single e.2) t =
      some ((Command.scriptAt session.files e.1).map s.checkedAlone).toList := by
    intro e he
    have hpath : e.1 ∈ paths := List.mem_of_getElem? (List.mem_zipIdx_iff_getElem?.1 he)
    obtain ⟨x, hx⟩ := Option.isSome_iff_exists.1 (readable e.1 hpath)
    have hdocument : x.document ∈ Command.documentsAt session.files paths :=
      List.mem_map_of_mem (List.mem_filterMap.2 ⟨e.1, hpath, hx⟩)
    rw [checkFiles_single willing hx (single e.2) (Nat.le_trans (span_single hdocument) late), hx]
    rfl
  have hscripts : (paths.zipIdx.map fun e =>
      ((Command.scriptAt session.files e.1).map s.checkedAlone).toList) =
        (Command.scriptsAt session.files paths).map fun x => [s.checkedAlone x] := calc
    _ = ((paths.zipIdx.map Prod.fst).map (Command.scriptAt session.files)).map
        fun x? => (x?.map s.checkedAlone).toList := by
        rw [List.map_map, List.map_map]
        rfl
    _ = ((Command.scriptsAt session.files paths).map some).map
        fun x? => (x?.map s.checkedAlone).toList := by
        rw [List.zipIdx_map_fst, Command.map_scriptAt readable]
    _ = _ := List.map_map
  rw [mapM_some heach, hscripts]

/-- The tools that come with the library; only the linter is there, and it finds nothing wrong with any
script. -/
def lintShop : Workshop where
  tools := ⟨fun _ _ => .ok ⟨"", .exited 0, "", ""⟩, fun _ _ => .checked {}⟩
  settings := {}
  loader := .none
  made := 2
  plugins := (Plugin.builtins {} 0).map fun p => (p.name, p)
  active := ["shellcheck"]

/-- A command in a directory with two scripts. -/
def scriptFolder : Session where
  files := ⟨[(["a.sh"], .file "echo a\n".toUTF8.toList false),
    (["b.sh"], .file "echo b\n".toUTF8.toList false)], []⟩
  bench := {}

theorem lintShop_willing : lintShop.Willing := by
  intro p hp d text herror
  have hmem : p ∈ Plugin.builtins {} 0 := by
    change p ∈ ((Plugin.builtins {} 0).map fun p => (p.name, p)).map Prod.snd at hp
    rwa [List.map_map, List.map_id''] at hp
    exact fun _ => rfl
  rcases Plugin.mem_builtins.1 hmem with ⟨_, rfl⟩ | ⟨_, rfl⟩
  · cases herror
  · cases herror

end Workshop

end Shellwright
