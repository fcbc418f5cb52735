import SearchFilter.Json.Text
import SearchFilter.Json.Written

/-!
# Tasks

What a search service tells about a task: its number, its status, its type and, if it failed, what
went wrong. A record is written as a JSON object that leaves out what is unknown, and read from an
object or an array.
-/

namespace SearchFilter

inductive TaskStatus where
  | enqueued
  | processing
  | succeeded
  | failed
  | canceled
  deriving DecidableEq, Repr

namespace TaskStatus

def all : List TaskStatus := [enqueued, processing, succeeded, failed, canceled]

def name : TaskStatus → String
  | enqueued => "enqueued"
  | processing => "processing"
  | succeeded => "succeeded"
  | failed => "failed"
  | canceled => "canceled"

def ofName? (name : String) : Option TaskStatus :=
  all.find? (·.name == name)

theorem ofName?_name (status : TaskStatus) : ofName? status.name = some status := by
  cases status <;> rfl

/-- The task will not change any more. -/
def isTerminal : TaskStatus → Bool
  | succeeded | failed | canceled => true
  | enqueued | processing => false

/-- A status is written as its name, or as an object with the name for a key and nothing in it. -/
def ofWritten? : Json.Written → Option TaskStatus
  | .string pieces => do ofName? (← Json.decodeString? pieces)
  | .object [(key, .null)] => do ofName? (← Json.decodeString? key)
  | _ => none

end TaskStatus

structure TaskInfo where
  uid : UInt64
  status : TaskStatus
  kind : Option String
  error : Option Json
  deriving Repr

namespace TaskInfo

def members (task : TaskInfo) : Json.Members :=
  [("uid", .int task.uid.toNat), ("status", .string task.status.name)] ++
    (task.kind.toList.map fun kind => ("type", .string kind)) ++
    (task.error.toList.map fun error => ("error", error))

def toJson (task : TaskInfo) : Json :=
  .ofMembers task.members

/-- The record as the text of a JSON object, with its parts in order. -/
def text (task : TaskInfo) : String :=
  Json.membersText task.members

def fieldNames : List String := ["uid", "status", "type", "error"]

/-- How deep the error of a record in a document may nest. -/
def maxErrorDepth : Nat := 126

/-- A part that may be missing or null. -/
def optional? {α : Type} (read? : Json.Written → Option α) :
    Option Json.Written → Option (Option α)
  | none | some .null => some none
  | some value => some <$> read? value

def read? (document : String) : Option TaskInfo := do
  let fields ← (← Json.Written.read? document).fields? fieldNames
  return {
    uid := ← (← fields.lookup "uid").toUInt64?
    status := ← TaskStatus.ofWritten? (← fields.lookup "status")
    kind := ← optional? Json.Written.toString? (fields.lookup "type")
    error := ← optional? (Json.Written.toJson? maxErrorDepth) (fields.lookup "error") }

end TaskInfo

/-- How waiting for a task has ended. -/
inductive TaskOutcome where
  | succeeded (task : TaskInfo)
  /-- The task failed or was canceled. -/
  | failed (task : TaskInfo)
  /-- The questions are used up. The time that has passed is left out, as only a clock tells it. -/
  | timedOut (uid : UInt64)
  deriving Repr

def TaskOutcome.isSuccess : TaskOutcome → Bool
  | succeeded _ => true
  | _ => false

end SearchFilter
