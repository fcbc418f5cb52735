import SearchFilter.Service.Basic

/-!
# Scripted services

A search service without a network. It notes every call, refuses all searches while it is down, and
tells of tasks what its script says.
-/

namespace SearchFilter

inductive Call where
  | search (indexUid query : String) (params : Json.Members)
  | multiSearch (requests : List SearchRequest)
  | task (uid : UInt64)
  deriving Repr

inductive TaskAnswer where
  | refusal (reason : String)
  | info (status : TaskStatus) (kind : Option String) (error : Option Json)
  deriving Repr

structure Script where
  /-- The reason for which searches are refused, if they are. -/
  down : Option String := none
  /-- The answers about tasks that are still to come. The last one is repeated. -/
  tasks : List TaskAnswer := []
  calls : List Call := []
  deriving Repr

namespace Script

def note (call : Call) : StateM Script Unit :=
  modify fun script => { script with calls := script.calls ++ [call] }

/-- The result of a search, unless the service is down. -/
def answer {α : Type} (result : α) : StateM Script (Except String α) := do
  match (← get).down with
  | some reason => return .error reason
  | none => return .ok result

/-- The next answer about a task, which is used up unless it is the last. -/
def nextTask : StateM Script (Option TaskAnswer) := do
  match (← get).tasks with
  | [] => return none
  | [last] => return some last
  | next :: rest =>
    modify fun script => { script with tasks := rest }
    return some next

/-- The service that follows the script in the state. A search is answered with the number of its
parameters, and a batch with the indexes it asks for. -/
def service : SearchService (StateM Script) String where
  search indexUid query params := do
    note (.search indexUid query params)
    answer (.object [("params", .int params.length)])
  multiSearch requests := do
    note (.multiSearch requests)
    answer (requests.map fun request => .string request.indexUid)
  task uid := do
    note (.task uid)
    match ← nextTask with
    | none => return .error ("task " ++ toString uid.toNat ++ " not found")
    | some (.refusal reason) => return .error reason
    | some (.info status kind error) => return .ok { uid, status, kind, error }

end Script

end SearchFilter
