import SearchFilter.Duration
import SearchFilter.Expr.Tree
import SearchFilter.Json.Written

/-!
# Settings

The limits that a caller may set: how deep a filter tree may nest, and how long and how often to ask
after a task. Every setting has a default, in a program and in a document.
-/

namespace SearchFilter

/-- How long to wait for a task, and how long to pause between two questions. -/
structure TaskWait where
  timeout : Duration
  pollInterval : Duration
  deriving DecidableEq, Repr

/-- How often to ask at most: once at the start, and once for every interval in the timeout. Both
count in whole milliseconds, an interval for at least one. The quotient is held in 64 bits, but the
count is a natural number: for the greatest quotient it is 2 ^ 64, which 64 bits cannot hold. -/
def TaskWait.maxPolls (wait : TaskWait) : Nat :=
  wait.timeout.milliseconds / max wait.pollInterval.milliseconds 1 % UInt64.size + 1

structure Config where
  maxFilterDepth : UInt64 := 2
  taskTimeoutMilliseconds : UInt64 := 10000
  taskPollIntervalMilliseconds : UInt64 := 500
  deriving DecidableEq, Repr

namespace Config

instance : Inhabited Config := ⟨{}⟩

def taskWait (config : Config) : TaskWait :=
  { timeout := .ofMilliseconds config.taskTimeoutMilliseconds.toNat
    pollInterval := .ofMilliseconds config.taskPollIntervalMilliseconds.toNat }

def fieldNames : List String :=
  ["max_filter_depth", "task_timeout_ms", "task_poll_interval_ms"]

/-- A setting of a document, or its default. -/
def setting? (fields : List (String × Json.Written)) (name : String) (default : UInt64) :
    Option UInt64 :=
  match fields.lookup name with
  | none => some default
  | some value => value.toUInt64?

def read? (document : String) : Option Config := do
  let fields ← (← Json.Written.read? document).fields? fieldNames
  let defaults : Config := default
  return {
    maxFilterDepth := ← setting? fields "max_filter_depth" defaults.maxFilterDepth
    taskTimeoutMilliseconds :=
      ← setting? fields "task_timeout_ms" defaults.taskTimeoutMilliseconds
    taskPollIntervalMilliseconds :=
      ← setting? fields "task_poll_interval_ms" defaults.taskPollIntervalMilliseconds }

end Config

instance : Inhabited TaskWait := ⟨(default : Config).taskWait⟩

def Expr.renderTreeWith (q : Expr) (config : Config) : Except Error FilterTree :=
  q.renderTree config.maxFilterDepth.toNat

end SearchFilter
