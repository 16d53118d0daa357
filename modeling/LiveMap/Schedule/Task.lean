import LiveMap.Notice
import LiveMap.Schedule.Queue

/-!
# Tasks

Deferred work is a plain job, described by what it does, or a duty of the program that defers it.

## Main definitions

* `Task`: jobs and duties, with `Task.title`.
* `Queue.runJobs`: a batch of jobs run beside the queue that they submit to.
-/

namespace LiveMap

/-- Duties have a name in notices. -/
class Titled (D : Type) where
  title : D → TaskName

/-- Deferred work. A job takes some time, submits its children in order, may stop the scheduler and
may fail at last. -/
inductive Task (K D : Type) where
  | job (name : String) (work : K) (children : List (Task K D)) (stops fails : Bool)
  | duty (d : D)

instance : Titled Empty := ⟨nofun⟩

instance {K D : Type} [Inhabited K] : Inhabited (Task K D) := ⟨.job "" default [] false false⟩

namespace Task

variable {K D : Type}

def title [Titled D] : Task K D → TaskName
  | job name _ _ _ _ => .job name
  | duty d => Titled.title d

end Task

/-- The plain name of a job. -/
def Task.jobName {K : Type} : Task K Empty → String
  | job name _ _ _ _ => name

/-- Runs jobs in order beside a queue that they submit their children to, up to the first that
fails. The names of those that were started, the queue, and whether none failed. -/
def Queue.runJobs {K : Type} :
    List (Task K Empty) → Queue (Task K Empty) → List String × Queue (Task K Empty) × Bool
  | [], q => ([], q, true)
  | .job name _ children _ true :: _, q => ([name], q.submitAll children, false)
  | .job name _ children _ false :: rest, q =>
    let (names, q, ok) := runJobs rest (q.submitAll children)
    (name :: names, q, ok)

end LiveMap
