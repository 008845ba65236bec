import Shellwright.Proofs.Review.Touching
/-!
# Documents are independent

What happens to an address in the course of a review is a story of its own. Steps that are about other
addresses do not add to it, and what is published for the address follows from it and from what plugins
answer: two reviews in which it is the same publish the same.
-/

namespace Shellwright.Review

open Registry (Turn)

/-- The act, with what `reply` answers about a part of the check of a run. -/
def Act.answeredBy (reply : Nat → Nat → Answer) : Act → Act
  | .turn run d (.answered part _) => .turn run d (.answered part (reply run part))
  | a => a

/-- The act, without what was answered. -/
def Act.blank (a : Act) : Act :=
  a.answeredBy fun _ _ => .raised ""

theorem Act.answeredBy_blank (reply : Nat → Nat → Answer) (a : Act) :
    a.blank.answeredBy reply = a.answeredBy reply := by
  cases a with
  | turn run d t => cases t <;> rfl
  | _ => rfl

/-- The story as it goes when `reply` answers, which knows the story so far. -/
def replay (reply : List Act → Nat → Nat → Answer) (story : List Act) : List Act :=
  story.foldl (fun acts a => acts ++ [a.answeredBy (reply (acts.map Act.blank))]) []

theorem replay_append (reply : List Act → Nat → Nat → Answer) (story : List Act) (a : Act) :
    replay reply (story ++ [a]) =
      replay reply story ++ [a.answeredBy (reply ((replay reply story).map Act.blank))] := by
  unfold replay
  rw [List.foldl_append, List.foldl_cons, List.foldl_nil]

end Shellwright.Review

namespace Shellwright.Registry

theorem Event.answered_of_turn? {e : Event} {key : CallKey} {part : Nat} {answer : Answer}
    (h : e.turn? key = some (.answered part answer)) : e = .answered key part answer := by
  unfold turn? at h
  split at h
  · obtain ⟨_, ⟨⟩⟩ := Option.ite_none_right_eq_some.1 h
  · obtain ⟨rfl, ⟨⟩⟩ := Option.ite_none_right_eq_some.1 h
    rfl
  · obtain ⟨_, ⟨⟩⟩ := Option.ite_none_right_eq_some.1 h
  · obtain ⟨_, ⟨⟩⟩ := Option.ite_none_right_eq_some.1 h
  · obtain ⟨_, ⟨⟩⟩ := Option.ite_none_right_eq_some.1 h
  · obtain ⟨_, ⟨⟩⟩ := Option.ite_none_right_eq_some.1 h
  · cases h

end Shellwright.Registry

namespace Shellwright.Reviewer

open Review
open Registry (Turn)

variable {r : Reviewer} {uri : String} {e : Event}

/-- An answer that an address gets is one to the check of its run. -/
theorem act?_answered {i part : Nat} {d : TextDocument} {answer : Answer}
    (h : r.act? uri e = some (.turn i d (.answered part answer))) :
    ∃ k, e = .registry (.answered (.run k) part answer) ∧ (r.run? uri k).isSome ∧
      i = r.desk.place uri k := by
  have hdeed : ∀ deed, r.deedAct? uri deed ≠ some (.turn i d (.answered part answer)) := by
    intro deed hturn
    cases deed with
    | elapses timer =>
        simp only [deedAct?] at hturn
        split at hturn
        · split at hturn <;> cases hturn
        · cases hturn
    | checks document =>
        obtain ⟨_, ⟨⟩⟩ := Option.ite_none_right_eq_some.1 hturn
    | edits document =>
        obtain ⟨_, ⟨⟩⟩ := Option.ite_none_right_eq_some.1 hturn
    | closes document =>
        obtain ⟨_, ⟨⟩⟩ := Option.ite_none_right_eq_some.1 hturn
    | _ => cases hturn
  cases e with
  | registry event =>
      simp only [act?] at h
      split at h
      · rename_i k hkey
        obtain ⟨run, hrun, hturn⟩ := Option.bind_eq_some_iff.1 h
        obtain ⟨t, ht, ⟨⟩⟩ := Option.map_eq_some_iff.1 hturn
        obtain rfl := Registry.Event.answered_of_turn? ht
        exact ⟨k, rfl, by rw [hrun]; rfl, rfl⟩
      · exact absurd h (hdeed _)
  | begin k =>
      obtain ⟨run, _, ⟨⟩⟩ := Option.map_eq_some_iff.1 h
  | abort n =>
      simp only [act?, stopAct?] at h
      split at h <;> cases h
  | _ =>
      simp only [act?] at h
      exact absurd h (hdeed _)

end Shellwright.Reviewer

namespace Shellwright.Review.Course

open Reviewer (Hosted)

/-- Checks of runs are begun by the review only. -/
structure Hosts (c : Course) : Prop where
  start : ∀ k, c.registry.calls.get? (.run k) = none
  events : ∀ t, Hosted (c.event t) = true

/-- What has happened to an address before event `t`. -/
def acts (c : Course) (uri : String) : Nat → List Act
  | 0 => []
  | t + 1 => c.acts uri t ++ ((c.reviewer t).act? uri (c.event t)).toList

/-- What has happened to an address before event `t`, without what plugins have answered. -/
def story (c : Course) (uri : String) (t : Nat) : List Act :=
  (c.acts uri t).map Act.blank

/-- Plugins answer what `reply` does when it is told what has happened to the address so far. -/
def Answers (c : Course) (uri : String) (reply : List Act → Nat → Nat → Answer) : Prop :=
  ∀ t k part answer, c.event t = .registry (.answered (.run k) part answer) →
    ((c.reviewer t).run? uri k).isSome →
    answer = reply (c.story uri t) ((c.reviewer t).desk.place uri k) part

/-- What was published for an address before event `t`. -/
def results (c : Course) (uri : String) (t : Nat) : List (List Diagnostic) :=
  ((c.reviewer t).sink.history.filter (·.1 = uri)).map Prod.snd

variable {c : Course} {uri : String} {t : Nat}

theorem ready (hosts : c.Hosts) (t : Nat) : (c.reviewer t).Ready := by
  induction t with
  | zero =>
      refine ⟨(c.orderly 0).sound, .start c.sink, rfl, fun k call hcall => ?_⟩
      cases (hosts.start k).symm.trans hcall
  | succ t ih =>
      have hsilent : (c.reviewer t).outbox = [] := by cases t <;> rfl
      have hdoes := (Reviewer.step_acts ih.calm (c.event t)).desk
      obtain ⟨hinspects, _⟩ := Reviewer.step_inspected ih.calm hsilent (hosts.events t) ih.inspects
      exact ⟨(c.orderly (t + 1)).sound, hdoes.flagged ih.sound ih.flagged, (c.orderly (t + 1)).calm,
        hinspects⟩

theorem scene_succ (hosts : c.Hosts) (uri : String) (t : Nat) :
    (c.reviewer (t + 1)).scene uri =
      ((c.reviewer t).scene uri).after ((c.reviewer t).act? uri (c.event t)) :=
  (ready hosts t).scene_after uri (hosts.events t)

/-- The scene of an address is what has happened to it makes of it. -/
theorem scene_eq (hosts : c.Hosts) (uri : String) (t : Nat) :
    (c.reviewer t).scene uri = (c.acts uri t).foldl Scene.act ((c.reviewer 0).scene uri) := by
  induction t with
  | zero => rfl
  | succ t ih =>
      rw [scene_succ hosts, acts, List.foldl_append, ← ih]
      cases (c.reviewer t).act? uri (c.event t) <;> rfl

/-- The answers follow from the story. -/
theorem acts_eq {reply : List Act → Nat → Nat → Answer} (answers : c.Answers uri reply) (t : Nat) :
    c.acts uri t = replay reply (c.story uri t) := by
  induction t with
  | zero => rfl
  | succ t ih =>
      unfold story at ih ⊢
      rw [acts]
      cases hact : (c.reviewer t).act? uri (c.event t) with
      | none =>
          rw [Option.toList_none, List.append_nil]
          exact ih
      | some a =>
          have ha : a.answeredBy (reply (c.story uri t)) = a := by
            cases a with
            | turn run d turn =>
                cases turn with
                | answered part answer =>
                    obtain ⟨k, hevent, hof, rfl⟩ := Reviewer.act?_answered hact
                    rw [answers t k part answer hevent hof]
                    rfl
                | _ => rfl
            | _ => rfl
          rw [Option.toList_some, List.map_append, List.map_singleton, replay_append, ← ih,
            Act.answeredBy_blank]
          exact congrArg (_ ++ [·]) ha.symm

/-- What concerns another address adds nothing to the story. -/
theorem story_succ (hosts : c.Hosts) (untouched : ¬ (c.reviewer t).Touches uri (c.event t)) :
    c.story uri (t + 1) = c.story uri t := by
  unfold story
  rw [acts, Reviewer.act?_untouched (ready hosts t).calm untouched, Option.toList_none,
    List.append_nil]

/-- A step that is not about an address leaves alone its sessions, with their timers, numbers, flags and
runs, its documents and what is shown for it. Two reviews publish the same for an address when the same
has happened to it in both, whatever else has happened, and plugins go by that in what they answer. -/
theorem addresses_independent (hosts : c.Hosts) (uri : String) :
    (∀ t, ¬ (c.reviewer t).Touches uri (c.event t) →
      (c.reviewer t).desk.Spares uri (c.reviewer (t + 1)).desk ∧
      (c.reviewer t).Holds uri (c.reviewer (t + 1)) ∧ c.story uri (t + 1) = c.story uri t) ∧
    ∀ (c' : Course) (reply : List Act → Nat → Nat → Answer) (t t' : Nat), c'.Hosts →
      c.Answers uri reply → c'.Answers uri reply →
      c'.sink.published.get? uri = c.sink.published.get? uri → c'.results uri 0 = c.results uri 0 →
      c'.story uri t' = c.story uri t →
      c'.results uri t' = c.results uri t ∧
        (c'.reviewer t').sink.published.get? uri = (c.reviewer t).sink.published.get? uri := by
  constructor
  · intro t untouched
    have hready := ready hosts t
    exact ⟨hready.step_spares untouched, Reviewer.step_holds hready.calm untouched,
      story_succ hosts untouched⟩
  · intro c' reply t t' hosts' answers answers' shown published same
    have hstart : (c'.reviewer 0).scene uri = (c.reviewer 0).scene uri := by
      have hempty : ∀ c : Course, (c.reviewer 0).scene uri =
          ⟨none, [], c.sink.published.get? uri, c.results uri 0⟩ := fun _ => rfl
      rw [hempty, hempty, shown, published]
    have hscene : (c'.reviewer t').scene uri = (c.reviewer t).scene uri := by
      rw [scene_eq hosts', scene_eq hosts, acts_eq answers', acts_eq answers, same, hstart]
    exact ⟨congrArg Scene.history hscene, congrArg Scene.shown hscene⟩

/-- A linter of every document. -/
def linter : Plugin :=
  ⟨0, "lint", "Lint", "1.0", false, supportAll, .external 0⟩

/-- The linter is active, and the scripts `a` and `b` are open; what happens then is listed. -/
def twoScripts (events : List Event) : Course where
  registry := { plugins := [("lint", linter)], active := ["lint"] }
  buffers := [("a", { uri := "file:///a.sh", fileName := "a.sh" }),
    ("b", { uri := "file:///b.sh", fileName := "b.sh" })]
  sink := {}
  debounce := none
  timeout := none
  onChange := true
  event t := events.getD t (.gathered 0)

/-- What the linter finds in `b`. -/
def unused : List Diagnostic :=
  [⟨Span.whole "", "unused", .warning, none, "lint"⟩]

def found : Answer :=
  .checked { diagnostics := unused }

/-- The script `b` is checked. -/
def alone : Course :=
  twoScripts [.call 0 (.diagnose "b"), .begin 0, .registry (.begin (.run 0) 0),
    .registry (.answered (.run 0) 0 found), .registry (.gathered (.run 0))]

/-- The script `a` is checked, changed, edited and closed while `b` is checked. -/
def crowded : Course :=
  twoScripts [.call 0 (.diagnose "a"), .call 1 (.diagnose "b"), .begin 0, .update "a" "rm -rf /",
    .begin 1, .change "a", .registry (.begin (.run 1) 0), .abort 0,
    .registry (.answered (.run 1) 0 found), .close "a", .registry (.gathered (.run 1))]

theorem twoScripts_hosts {events : List Event} (hosted : ∀ e ∈ events, Hosted e = true) :
    (twoScripts events).Hosts := by
  refine ⟨fun k => rfl, fun t => ?_⟩
  change Hosted (events.getD t (.gathered 0)) = true
  rw [List.getD_eq_getElem?_getD]
  cases hevent : events[t]? with
  | none => rfl
  | some e => exact hosted e (List.mem_of_getElem? hevent)

theorem twoScripts_answers {events : List Event}
    (same : ∀ k part answer, .registry (.answered (.run k) part answer) ∈ events → answer = found) :
    (twoScripts events).Answers uri fun _ _ _ => found := by
  intro t k part answer hevent _
  change events.getD t (.gathered 0) = _ at hevent
  rw [List.getD_eq_getElem?_getD] at hevent
  cases hat : events[t]? with
  | none =>
      rw [hat] at hevent
      cases hevent
  | some e =>
      rw [hat] at hevent
      obtain rfl : e = _ := hevent
      exact same k part answer (List.mem_of_getElem? hat)

/-- What is done to `a` does nothing to `b`. -/
theorem crowded_publishes :
    (crowded.reviewer 9).desk.Spares "file:///b.sh" (crowded.reviewer 10).desk ∧
      crowded.results "file:///b.sh" 11 = [unused] := by
  have halone : alone.Hosts := twoScripts_hosts (by decide)
  have hcrowded : crowded.Hosts := twoScripts_hosts (by decide)
  have hclosed : ¬ (crowded.reviewer 9).Touches "file:///b.sh" (crowded.event 9) := by
    change ¬ ((crowded.reviewer 9).document "a").uri = "file:///b.sh"
    decide
  refine ⟨((addresses_independent hcrowded "file:///b.sh").1 9 hclosed).1, ?_⟩
  have hsame := (addresses_independent halone "file:///b.sh").2 crowded (fun _ _ _ => found) 5 11
    hcrowded (twoScripts_answers ?_) (twoScripts_answers ?_) rfl rfl rfl
  · exact hsame.1.trans (by decide)
  · intro k part answer hanswered
    simp only [List.mem_cons, reduceCtorEq, Event.registry.injEq, Registry.Event.answered.injEq,
      List.not_mem_nil, or_false, false_or] at hanswered
    exact hanswered.2.2
  · intro k part answer hanswered
    simp only [List.mem_cons, reduceCtorEq, Event.registry.injEq, Registry.Event.answered.injEq,
      List.not_mem_nil, or_false, false_or] at hanswered
    exact hanswered.2.2

end Shellwright.Review.Course
