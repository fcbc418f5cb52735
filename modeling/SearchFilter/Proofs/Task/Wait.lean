import SearchFilter.Proofs.Service.Recorded
import SearchFilter.Task.Wait
import Mathlib.Logic.Function.Iterate

/-!
# The end of a wait

A wait asks after its task in rounds of one question and one pause. An answer that is a refusal or
tells of a settled task ends it, and so does the last question. The service is any machine that
answers in turn, and it may change by itself during a pause. A wait therefore ends with the first
answer that decides it, among as many as it may ask for, and the record of the service shows nothing
but questions after the task with one pause between every two of them.
-/

namespace SearchFilter

variable {σ ε : Type}

/-- The answer decides a wait. -/
def Decisive : Except ε TaskInfo → Prop
  | .error _ => True
  | .ok task => task.status.isTerminal = true

/-- The outcome of a wait that an answer decides. -/
inductive Settles : Except ε TaskInfo → Except ε TaskOutcome → Prop where
  | refused (reason : ε) : Settles (.error reason) (.error reason)
  | succeeded {task : TaskInfo} (h : task.status = .succeeded) :
      Settles (.ok task) (.ok (.succeeded task))
  | failed {task : TaskInfo} (h : task.status = .failed ∨ task.status = .canceled) :
      Settles (.ok task) (.ok (.failed task))

theorem Decisive.exists_settles {answer : Except ε TaskInfo} (h : Decisive answer) :
    ∃ outcome, Settles answer outcome := by
  cases answer with
  | error reason => exact ⟨_, .refused reason⟩
  | ok task =>
      cases hstatus : task.status with
      | succeeded => exact ⟨_, .succeeded hstatus⟩
      | failed => exact ⟨_, .failed (.inl hstatus)⟩
      | canceled => exact ⟨_, .failed (.inr hstatus)⟩
      | enqueued | processing => simp [Decisive, TaskStatus.isTerminal, hstatus] at h

/-- What is seen of a client that asks `n` times and pauses between two questions. -/
def polling (uid : UInt64) (interval : Duration) (n : Nat) : List Action :=
  List.intersperse (.pause interval) (List.replicate n (.call (.task uid)))

theorem polling_one (uid : UInt64) (interval : Duration) :
    polling uid interval 1 = [.call (.task uid)] := rfl

theorem polling_add_two (uid : UInt64) (interval : Duration) (n : Nat) :
    polling uid interval (n + 2) =
      [.call (.task uid), .pause interval] ++ polling uid interval (n + 1) := rfl

namespace SearchService

/-! ### One question

What is done after an answer depends on the answer and on how many questions are left. The laws hold
in every monad, whatever the service is. -/

section Question

variable {m : Type → Type _} [Monad m]

/-- Goes on after an answer. -/
def proceed (service : SearchService m ε) (pause : m Unit) (uid : UInt64) (polls : Nat) :
    Except ε TaskInfo → m (Except ε TaskOutcome)
  | .error reason => return .error reason
  | .ok task =>
    match task.status with
    | .succeeded => return .ok (.succeeded task)
    | .failed | .canceled => return .ok (.failed task)
    | .enqueued | .processing => do
      if polls ≠ 0 then pause
      service.poll pause uid polls

variable (service : SearchService m ε) (pause : m Unit) (uid : UInt64) {answer : Except ε TaskInfo}

theorem poll_succ (polls : Nat) :
    service.poll pause uid (polls + 1) =
      service.task uid >>= service.proceed pause uid polls := rfl

theorem proceed_of_settles {outcome : Except ε TaskOutcome} (polls : Nat)
    (h : Settles answer outcome) :
    service.proceed pause uid polls answer = pure outcome := by
  cases h with
  | refused reason => rfl
  | succeeded hstatus => simp only [proceed, hstatus]
  | failed hstatus => rcases hstatus with hstatus | hstatus <;> simp only [proceed, hstatus]

theorem proceed_of_not_decisive (polls : Nat) (h : ¬Decisive answer) :
    service.proceed pause uid polls answer =
      if polls = 0 then pure (.ok (.timedOut uid))
      else (do pause; service.poll pause uid polls) := by
  cases answer with
  | error reason => exact absurd trivial h
  | ok task =>
      cases hstatus : task.status with
      | enqueued | processing => cases polls <;> simp [proceed, hstatus, poll]
      | succeeded | failed | canceled => simp [Decisive, TaskStatus.isTerminal, hstatus] at h

end Question

/-! ### Many questions

A round is a question and the pause after it. The answer to the question after `n` rounds is what the
wait gets if it has not ended before. -/

section Rounds

variable (service : SearchService (StateM σ) ε) (pause : Duration → StateM σ Unit) (uid : UInt64)
  (interval : Duration)

/-- The state after a question and a pause. -/
def round (s : σ) : σ :=
  ((pause interval).run ((service.task uid).run s).2).2

/-- The answer to the question after `n` rounds. -/
def answerAfter (s : σ) (n : Nat) : Except ε TaskInfo :=
  ((service.task uid).run ((service.round pause uid interval)^[n] s)).1

/-- Polling with a record, from a state of the service and a record so far. -/
def observePoll (before : List Action) (polls : Nat) (s : σ) :
    (Except ε TaskOutcome × List Action) × σ :=
  Recording.observe before (service.recorded.poll (Recording.pausing pause interval) uid polls) s

variable {service pause uid interval} {s : σ}

theorem observePoll_of_settles {outcome : Except ε TaskOutcome} (before : List Action) (polls : Nat)
    (h : Settles (service.answerAfter pause uid interval s 0) outcome) :
    (service.observePoll pause uid interval before (polls + 1) s).1 =
      (outcome, before ++ polling uid interval 1) := by
  have hanswer : ((service.task uid).run s).1 = service.answerAfter pause uid interval s 0 := rfl
  rw [observePoll, poll_succ, Recording.observe_task_bind, hanswer, proceed_of_settles _ _ _ _ h,
    Recording.observe_pure, polling_one]

theorem observePoll_last (before : List Action)
    (h : ¬Decisive (service.answerAfter pause uid interval s 0)) :
    (service.observePoll pause uid interval before 1 s).1 =
      (.ok (.timedOut uid), before ++ polling uid interval 1) := by
  have hanswer : ((service.task uid).run s).1 = service.answerAfter pause uid interval s 0 := rfl
  rw [observePoll, poll_succ, Recording.observe_task_bind, hanswer, proceed_of_not_decisive _ _ _ _ h,
    if_pos rfl, Recording.observe_pure, polling_one]

theorem observePoll_round (before : List Action) (polls : Nat)
    (h : ¬Decisive (service.answerAfter pause uid interval s 0)) :
    service.observePoll pause uid interval before (polls + 2) s =
      service.observePoll pause uid interval (before ++ [.call (.task uid), .pause interval])
        (polls + 1) (service.round pause uid interval s) := by
  have hanswer : ((service.task uid).run s).1 = service.answerAfter pause uid interval s 0 := rfl
  have hrecord : before ++ [.call (.task uid)] ++ [.pause interval] =
      before ++ [.call (.task uid), .pause interval] := List.append_assoc _ _ _
  rw [observePoll, poll_succ, Recording.observe_task_bind, hanswer, proceed_of_not_decisive _ _ _ _ h,
    if_neg polls.succ_ne_zero, Recording.observe_pausing_bind, hrecord]
  rfl

theorem answerAfter_succ (n : Nat) :
    service.answerAfter pause uid interval s (n + 1) =
      service.answerAfter pause uid interval (service.round pause uid interval s) n := rfl

theorem observePoll_of_first_decisive {outcome : Except ε TaskOutcome} {k polls : Nat}
    (before : List Action)
    (hfirst : ∀ i < k, ¬Decisive (service.answerAfter pause uid interval s i))
    (hsettles : Settles (service.answerAfter pause uid interval s k) outcome) (hk : k < polls) :
    (service.observePoll pause uid interval before polls s).1 =
      (outcome, before ++ polling uid interval (k + 1)) := by
  induction k generalizing s polls before with
  | zero =>
      obtain ⟨rest, rfl⟩ := Nat.exists_eq_add_one.mpr hk
      exact observePoll_of_settles before rest hsettles
  | succ k ih =>
      -- The first round goes into the record, and the rest is a wait from the state after it.
      obtain ⟨rest, rfl⟩ : ∃ rest, polls = rest + 2 := ⟨polls - 2, by omega⟩
      have hround := observePoll_round before rest (hfirst 0 k.succ_pos)
      have hlater : ∀ i < k, ¬Decisive (service.answerAfter pause uid interval
          (service.round pause uid interval s) i) := by
        intro i hi
        rw [← answerAfter_succ]
        exact hfirst (i + 1) (Nat.succ_lt_succ hi)
      rw [hround, ih _ hlater hsettles (by omega), polling_add_two, List.append_assoc]

theorem observePoll_of_none_decisive {polls : Nat} (before : List Action)
    (hnone : ∀ i < polls, ¬Decisive (service.answerAfter pause uid interval s i)) :
    (service.observePoll pause uid interval before polls s).1 =
      (.ok (.timedOut uid), before ++ polling uid interval polls) := by
  induction polls generalizing s before with
  | zero => simp [observePoll, poll, Recording.observe_pure, polling]
  | succ polls ih =>
      cases polls with
      | zero => exact observePoll_last before (hnone 0 Nat.one_pos)
      | succ rest =>
          have hround := observePoll_round before rest (hnone 0 (Nat.succ_pos _))
          have hlater : ∀ i < rest + 1, ¬Decisive (service.answerAfter pause uid interval
              (service.round pause uid interval s) i) := by
            intro i hi
            rw [← answerAfter_succ]
            exact hnone (i + 1) (Nat.succ_lt_succ hi)
          rw [hround, ih _ hlater, polling_add_two, List.append_assoc]

/-- The record changes nothing about the wait. -/
theorem records_poll (polls : Nat) :
    Recording.Records (service.recorded.poll (Recording.pausing pause interval) uid polls)
      (service.poll (pause interval) uid polls) := by
  induction polls with
  | zero => exact Recording.records_pure _
  | succ polls ih =>
      rw [poll_succ, poll_succ]
      refine (Recording.records_task service uid).bind fun answer => ?_
      by_cases hdecisive : Decisive answer
      · obtain ⟨outcome, hsettles⟩ := hdecisive.exists_settles
        rw [proceed_of_settles _ _ _ _ hsettles, proceed_of_settles _ _ _ _ hsettles]
        exact Recording.records_pure outcome
      · rw [proceed_of_not_decisive _ _ _ _ hdecisive, proceed_of_not_decisive _ _ _ _ hdecisive]
        split
        · exact Recording.records_pure _
        · exact (Recording.records_pausing pause interval).bind fun _ => ih

end Rounds

/-- **The end of a wait.** A wait ends with the first answer that decides it, and has then asked just
as often as it takes to get that answer. If no answer decides it in time, it has asked as often as it
may and reports that. All it does is to ask, with one pause between two questions. -/
theorem wait_ends_with_first_decisive_answer (service : SearchService (StateM σ) ε)
    (pause : Duration → StateM σ Unit) (uid : UInt64) (wait : TaskWait) (s : σ) :
    let answer := service.answerAfter pause uid wait.pollInterval s
    let seen := Recording.observe []
      (service.recorded.waitForTask (Recording.pausing pause) uid wait) s
    (∀ k < wait.maxPolls, (∀ i < k, ¬Decisive (answer i)) → Decisive (answer k) →
      Settles (answer k) seen.1.1 ∧ seen.1.2 = polling uid wait.pollInterval (k + 1)) ∧
    ((∀ k < wait.maxPolls, ¬Decisive (answer k)) →
      seen.1.1 = .ok (.timedOut uid) ∧
        seen.1.2 = polling uid wait.pollInterval wait.maxPolls) ∧
    Id.run ((service.waitForTask pause uid wait).run s) = (seen.1.1, seen.2) := by
  intro answer seen
  refine ⟨?_, ?_, (records_poll wait.maxPolls [] s).symm⟩
  · intro k hk hfirst hdecisive
    obtain ⟨outcome, hsettles⟩ := hdecisive.exists_settles
    have hseen : seen.1 = (outcome, [] ++ polling uid wait.pollInterval (k + 1)) :=
      observePoll_of_first_decisive [] hfirst hsettles hk
    rw [hseen]
    exact ⟨hsettles, rfl⟩
  · intro hnone
    have hseen : seen.1 = (.ok (.timedOut uid),
        [] ++ polling uid wait.pollInterval wait.maxPolls) :=
      observePoll_of_none_decisive [] hnone
    rw [hseen]
    exact ⟨rfl, rfl⟩

theorem wait_ends_with_first_decisive_answer_failed :
    let script : Script := { tasks := [.info .enqueued none none, .info .failed none none] }
    let pause : Duration → StateM Script Unit := fun _ => pure ()
    let wait : TaskWait := ⟨.ofMilliseconds 1000, .ofMilliseconds 500⟩
    let answer := Script.service.answerAfter pause 7 wait.pollInterval script
    let seen := Recording.observe []
      (Script.service.recorded.waitForTask (Recording.pausing pause) 7 wait) script
    (1 < wait.maxPolls ∧ (∀ i < 1, ¬Decisive (answer i)) ∧ Decisive (answer 1)) ∧
      Settles (answer 1) seen.1.1 ∧
      seen.1.2 = [.call (.task 7), .pause (.ofMilliseconds 500), .call (.task 7)] := by
  intro script pause wait answer seen
  have hbudget : 1 < wait.maxPolls := by decide
  have hfirst : ∀ i < 1, ¬Decisive (answer i) := by
    intro i hi
    obtain rfl : i = 0 := Nat.lt_one_iff.mp hi
    exact Bool.false_ne_true
  have hdecisive : Decisive (answer 1) := rfl
  exact ⟨⟨hbudget, hfirst, hdecisive⟩,
    (wait_ends_with_first_decisive_answer Script.service pause 7 wait script).1 1 hbudget hfirst
      hdecisive⟩

end SearchService

end SearchFilter
