import Shellwright.Workspace.Basic
/-!
# Steps of a workspace

A workspace reacts to one event at a time. The ends of the calls that it makes of its review and of the
registry carry on its own.
-/

namespace Shellwright.Workspace

/-- Pass on what the review wants done, apart from the ends of calls, which are kept. -/
def absorb (w : Workspace) : Review.Effect → Workspace
  | .later e => w.emit (.later (.review e))
  | .timer number delay => w.emit (.timer number delay)
  | .cancel run => w.emit (.cancel run)
  | .ask key part plugin question => w.emit (.ask key part plugin question)
  | .quit key part => w.emit (.quit key part)
  | .started run => w.emit (.started run)
  | .stopped run => w.emit (.stopped run)
  | .log record => w.emit (.log record)
  | .finish .. => w
  | .finishRegistry .. => w

/-- The end of a call that the review has reported. -/
inductive Ending
  | review (n : Nat) (outcome : Outcome Review.Reply)
  | registry (n : Nat) (outcome : Outcome Registry.Reply)

def endingOf? : Review.Effect → Option Ending
  | .finish n outcome => some (.review n outcome)
  | .finishRegistry n outcome => some (.registry n outcome)
  | _ => none

/-- Let the review do one step; what it wants done is passed on and the calls that it ended are
returned. -/
def tell (w : Workspace) (e : Review.Event) : Workspace × List Ending :=
  let reviewer := w.reviewer.step e
  (reviewer.outbox.foldl absorb { w with reviewer := { reviewer with outbox := [] } },
    reviewer.outbox.filterMap endingOf?)

/-- Names, with commas, of the active plugins. -/
def activeList (w : Workspace) : String :=
  Registry.listed w.registry.activeNames

/-- All calls of the review below have been made, so an ending that is left over ends a call of this
workspace as well. -/
def passOn (w : Workspace) : Ending → Workspace
  | .review n outcome => w.finish n (outcome.map .review)
  | .registry n outcome => w.finish n (outcome.map .registry)

/-- The end of a call below carries on the call that was made of this workspace. -/
def conclude (w : Workspace) (e : Ending) : Workspace :=
  let n := match e with
    | .review n _ => n
    | .registry n _ => n
  match w.calls.get? n, e with
  | some .starting, .registry _ (.done (.count k)) =>
    (w.log .info s!"{k} plugin(s) active: {w.activeList}").finish n (.done (.count k))
  | some .rebuilding, .registry _ (.done (.count k)) =>
    let w := w.log .info s!"configuration changed, {k} plugin(s) active"
    let (w, endings) := (w.setCall n .diagnosing).tell
      (.call n (.diagnoseAll w.documents.values))
    if endings.isEmpty then w else w.finish n (.done .settled)
  | some .diagnosing, .review _ (.done _) => w.finish n (.done .settled)
  | some .closing, .review _ (.done _) =>
    let w := { w with
      reviewer := { w.reviewer with registry := w.registry.deactivateAll }, documents := [] }
    w.finish n (.done .settled)
  | some _, .registry _ (.raised trouble) => w.finish n (.raised trouble)
  | some _, .review _ (.raised trouble) => w.finish n (.raised trouble)
  | some _, _ => w.finish n .aborted
  | none, e => w.passOn e

def tellReview (w : Workspace) (e : Review.Event) : Workspace :=
  let (w, endings) := w.tell e
  endings.foldl conclude w

/-- Build the plugins for the settings and put them in place of the old ones. -/
def rebuild (w : Workspace) (n : Nat) (stage : Stage) (names : Option (List String)) : Workspace :=
  match w.loader.load with
  | .error failure => w.finish n (.raised (.loading failure))
  | .ok (factories, log) =>
    let (plugins, made, failures) := Plugin.build w.settings w.made factories
    let w := (log ++ failures).foldl (fun w record => w.emit (.log record)) w
    ({ w with made := made }.setCall n stage).tellReview
      (.registry (.call (.host n) (.replace plugins names)))

/-- A document counts as open from now on. -/
def track (w : Workspace) (document : String) : Workspace :=
  { w with documents := w.documents.put (w.reviewer.document document).uri document }

/-- A document counts as open, unless another of its address does. -/
def trackNew (w : Workspace) (document : String) : Workspace :=
  if w.documents.has (w.reviewer.document document).uri then w else w.track document

/-- Switch to other settings. Plugins are built anew only if the change concerns them; those that were
active stay so, and tools whose own settings changed are tried again. -/
def apply (w : Workspace) (n : Nat) (settings : Settings) (documents : List String) : Workspace :=
  let w := documents.foldl trackNew w
  let old := w.settings
  let d := settings.diagnosis
  let w := { w with settings := settings }.tellReview (.configure (some (d.debounce : Int)) (some (.milliseconds d.timeout)) d.onChange)
  if old.affectsPlugins settings then
    w.rebuild n .rebuilding (some (w.registry.activeNames ++ old.retriedTools settings))
  else (w.setCall n .diagnosing).tellReview (.call n (.diagnoseAll w.documents.values))

def call (w : Workspace) (n : Nat) : Request → Workspace
  | .start => w.rebuild n .starting none
  | .openDocument document => (w.track document).tellReview (.call n (.diagnose document))
  | .saveDocument document => (w.track document).tellReview (.call n (.diagnose document))
  | .format document token => w.tellReview (.call n (.format document token))
  | .fixAll document token editable => w.tellReview (.call n (.fixAll document token editable))
  | .apply settings documents => w.apply n settings documents
  | .shutdown => (w.setCall n .closing).tellReview (.call n .shutdown)

/-- Call a call off, whichever part of the workspace is at work on it. -/
def abort (w : Workspace) (n : Nat) : Workspace :=
  if (w.reviewer.calls.get? n).isSome then w.tellReview (.abort n)
  else w.tellReview (.registry (.abort (.host n)))

def step (w : Workspace) : Event → Workspace
  | .review e => w.tellReview e
  | .call n request => w.call n request
  | .change document => (w.track document).tellReview (.change document)
  | .close document =>
    { w with documents := w.documents.drop (w.reviewer.document document).uri }.tellReview
      (.close document)
  | .abort n => w.abort n

end Shellwright.Workspace
