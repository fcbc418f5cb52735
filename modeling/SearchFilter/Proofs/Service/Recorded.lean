import SearchFilter.Duration
import SearchFilter.Service.Scripted

/-!
# Recorded services

To a service, what its client does is a sequence of calls with pauses between them. A recorded
service works on a state of any kind and writes down every call before it answers it, and a recorded
pause is written down in the same place. What a client makes of a service can then be compared with
what the service has seen of the client.
-/

namespace SearchFilter

/-- What is seen of a client. -/
inductive Action where
  | call (call : Call)
  | pause (duration : Duration)
  deriving Repr

/-- Work on a service with the state `σ`, with a record of the actions so far. -/
abbrev Recording (σ : Type) := StateT (List Action) (StateM σ)

variable {σ ε α β : Type}

namespace Recording

def note (action : Action) : Recording σ Unit :=
  modify (· ++ [action])

/-- The result of work and the record after it, and the state that it leaves the service in. -/
def observe (before : List Action) (work : Recording σ α) (s : σ) : (α × List Action) × σ :=
  Id.run ((work.run before).run s)

/-- A pause. The state of the service may change by itself in the meantime. -/
def pausing (pause : Duration → StateM σ Unit) (duration : Duration) : Recording σ Unit := do
  note (.pause duration)
  pause duration

end Recording

/-- The service, with a record of its calls. -/
def SearchService.recorded (service : SearchService (StateM σ) ε) :
    SearchService (Recording σ) ε where
  search indexUid query params := do
    Recording.note (.call (.search indexUid query params))
    service.search indexUid query params
  multiSearch requests := do
    Recording.note (.call (.multiSearch requests))
    service.multiSearch requests
  task uid := do
    Recording.note (.call (.task uid))
    service.task uid

namespace Recording

variable (before : List Action) (s : σ)

theorem observe_pure (a : α) : observe before (pure a : Recording σ α) s = ((a, before), s) := rfl

theorem observe_task_bind (service : SearchService (StateM σ) ε) (uid : UInt64)
    (next : Except ε TaskInfo → Recording σ β) :
    observe before (service.recorded.task uid >>= next) s =
      observe (before ++ [.call (.task uid)]) (next ((service.task uid).run s).1)
        ((service.task uid).run s).2 := rfl

theorem observe_pausing_bind (pause : Duration → StateM σ Unit) (duration : Duration)
    (next : Recording σ β) :
    observe before (do pausing pause duration; next) s =
      observe (before ++ [.pause duration]) next ((pause duration).run s).2 := rfl

/-! ### Records change nothing -/

/-- The work does what `plain` does, and keeps a record besides. -/
def Records (work : Recording σ α) (plain : StateM σ α) : Prop :=
  ∀ before s, ((observe before work s).1.1, (observe before work s).2) = Id.run (plain.run s)

theorem records_pure (a : α) : Records (pure a : Recording σ α) (pure a) := fun _ _ => rfl

theorem records_task (service : SearchService (StateM σ) ε) (uid : UInt64) :
    Records (service.recorded.task uid) (service.task uid) := fun _ _ => rfl

theorem records_pausing (pause : Duration → StateM σ Unit) (duration : Duration) :
    Records (pausing pause duration) (pause duration) := fun _ _ => rfl

theorem Records.bind {work : Recording σ α} {plain : StateM σ α} {next : α → Recording σ β}
    {plainNext : α → StateM σ β} (hwork : Records work plain)
    (hnext : ∀ a, Records (next a) (plainNext a)) :
    Records (work >>= next) (plain >>= plainNext) := by
  intro before s
  obtain ⟨hanswer, hstate⟩ := Prod.ext_iff.mp (hwork before s)
  have hlater := hnext (observe before work s).1.1 (observe before work s).1.2
    (observe before work s).2
  have hplain : Id.run ((plain >>= plainNext).run s) =
      Id.run ((plainNext (Id.run (plain.run s)).1).run (Id.run (plain.run s)).2) := rfl
  rw [hplain, ← hanswer, ← hstate]
  exact hlater

end Recording

end SearchFilter
