import LiveMap.Numeric.Decimal

/-!
# Notices

What the library reports beside its results: events worth a line in a log, as values. They are
worded only when they are shown.

## Main definitions

* `Level`: how much a notice matters.
* `TaskName`: how a deferred task is named.
* `Notice`: the events, with `Notice.level` and `Notice.message`.
* `Noted`: states that keep notices, with `note`; `Journal` is the least of them.
-/

namespace LiveMap

/-- How much a notice matters, from least to most. -/
inductive Level where
  | debug
  | info
  | warning
  | error
  | critical
  deriving DecidableEq, Repr

namespace Level

def rank : Level → Nat
  | debug => 10
  | info => 20
  | warning => 30
  | error => 40
  | critical => 50

def name : Level → String
  | debug => "DEBUG"
  | info => "INFO"
  | warning => "WARNING"
  | error => "ERROR"
  | critical => "CRITICAL"

def ofName? (text : String) : Option Level :=
  [debug, info, warning, error, critical].find? fun l => l.name = text

end Level

/-- How a deferred task is named. -/
inductive TaskName where
  | job (name : String)
  | mergeSubmaps
  deriving DecidableEq, Repr

def TaskName.text : TaskName → String
  | job name => "Task(" ++ name ++ ")"
  | mergeSubmaps => "<MergeSubmapsTask>"

/-- The events that are reported. -/
inductive Notice (K : Type) where
  | callbackAdded (slot : String)
  | callbackRemoved (slot : String)
  | subscribed (topic : String)
  | listenerFailed (topic : String)
  | anchorWithoutOdometry (stamp : K)
  | anchorFarFromOdometry (stamp distance : K)
  | submapsShrank (retained delivered : Nat)
  | schedulerStarted (period : K)
  | submittedAfterStop (task : TaskName)
  | taskFailed (task : TaskName)
  | threadBlocked
  | stoppedWithPending (tasks : Nat)
  | schedulerStopped
  | viewerRegistered
  | framePublished (id : Int) (stamp : K)
  | mapPublished (submaps points : Nat)
  deriving DecidableEq, Repr

namespace Notice

def level {K : Type} : Notice K → Level
  | callbackAdded _ | callbackRemoved _ | subscribed _ | submittedAfterStop _ | stoppedWithPending _
  | framePublished _ _ | mapPublished _ _ => .debug
  | schedulerStarted _ | schedulerStopped | viewerRegistered => .info
  | anchorWithoutOdometry _ | anchorFarFromOdometry _ _ | submapsShrank _ _ => .warning
  | listenerFailed _ | taskFailed _ => .error
  | threadBlocked => .critical

def message : Notice Float → String
  | callbackAdded slot => "Registered callback on " ++ slot
  | callbackRemoved slot => "Removed callback from " ++ slot
  | subscribed topic => "New subscriber on " ++ topic
  | listenerFailed topic => "Subscriber on " ++ topic ++ " failed"
  | anchorWithoutOdometry stamp =>
    "No odometry recorded before anchor update at t=" ++ fixedPlaces 6 stamp
  | anchorFarFromOdometry stamp distance =>
    "Anchor stamp " ++ fixedPlaces 6 stamp ++ " is " ++ fixedPlaces 3 distance
      ++ "s away from nearest odometry stamp"
  | submapsShrank retained delivered =>
    "Submap list shrank from " ++ toString retained ++ " to " ++ toString delivered
      ++ "; keeping retained clouds"
  | schedulerStarted period =>
    "Scheduler started (period=" ++ fixedPlaces 1 (period * 1000) ++ " ms)"
  | submittedAfterStop task => "Scheduler stopped; task " ++ task.text ++ " will not run"
  | taskFailed task => "Deferred task " ++ task.text ++ " failed"
  | threadBlocked => "Scheduler thread did not terminate; a task is blocking it"
  | stoppedWithPending tasks => "Scheduler stopped with " ++ toString tasks ++ " pending tasks"
  | schedulerStopped => "Scheduler stopped"
  | viewerRegistered => "Viewer registered with estimation callbacks"
  | framePublished id stamp =>
    "Published frame " ++ toString id ++ " at t=" ++ fixedPlaces 6 stamp
  | mapPublished submaps points =>
    "Published global map: " ++ toString submaps ++ " submaps, " ++ toString points ++ " points"

end Notice

/-- A state that keeps the notices of what happens to it, the latest last. -/
class Noted (W : Type) (K : outParam Type) where
  note : Notice K → W → W

export Noted (note)

/-- Notices and nothing else. -/
structure Journal (K : Type) where
  notices : List (Notice K) := []

instance {K : Type} : Noted (Journal K) K := ⟨fun n j => ⟨j.notices ++ [n]⟩⟩

end LiveMap
