import SearchFilter.Config
import SearchFilter.Service.Index

/-!
# Waiting for a task

A task is asked after until it is settled or the number of questions is used up. There is a pause
between two questions, and none before the first or after the last.
-/

namespace SearchFilter

universe u

variable {m : Type → Type u} [Monad m] {ε : Type}

/-- Asks after a task at most `polls` times. -/
@[specialize]
def SearchService.poll (service : SearchService m ε) (pause : m Unit) (uid : UInt64) :
    Nat → m (Except ε TaskOutcome)
  | 0 => return .ok (.timedOut uid)
  | polls + 1 => do
    match ← service.task uid with
    | .error e => return .error e
    | .ok task =>
      match task.status with
      | .succeeded => return .ok (.succeeded task)
      | .failed | .canceled => return .ok (.failed task)
      | .enqueued | .processing =>
        if polls ≠ 0 then pause
        service.poll pause uid polls

/-- Waits for a task. A refusal of the service ends the wait, and running out of time does not
count as an error. -/
@[specialize]
def SearchService.waitForTask (service : SearchService m ε) (pause : Duration → m Unit)
    (uid : UInt64) (wait : TaskWait) : m (Except ε TaskOutcome) :=
  service.poll (pause wait.pollInterval) uid wait.maxPolls

/-- Waits for a task of the index's service. -/
def Index.waitForTask (index : Index m ε) (pause : Duration → m Unit) (uid : UInt64)
    (wait : TaskWait) : m (Except ε TaskOutcome) :=
  index.service.waitForTask pause uid wait

end SearchFilter
