import SearchFilter.Proofs.Task.Wait
import Mathlib.Data.Nat.Find
import Mathlib.Tactic.GCongr
import Mathlib.Tactic.IntervalCases
import Mathlib.Tactic.Ring

/-!
# The budget of a wait

A wait may ask once more than there are intervals in its timeout. Timeout and interval are cut to
whole milliseconds apart from each other, an interval of none counts as one millisecond, and the
quotient is held in 64 bits, while the pauses last for the interval as it is. Cutting the timeout
and the quotient only shortens a wait. Cutting the interval can make a wait longer than its timeout,
but at most twice as long, since less than a millisecond is cut off and at least one is left.
-/

namespace SearchFilter

namespace Duration

theorem milliseconds_ofMilliseconds (n : Nat) : (ofMilliseconds n).milliseconds = n :=
  Nat.mul_div_cancel n (by decide)

theorem milliseconds_mul_le (d : Duration) : d.milliseconds * 1000000 ≤ d.nanoseconds :=
  Nat.div_mul_le_self _ _

theorem lt_milliseconds_succ_mul (d : Duration) :
    d.nanoseconds < (d.milliseconds + 1) * 1000000 := by
  rw [Nat.mul_comm]
  exact Nat.lt_mul_div_succ d.nanoseconds (by decide)

theorem milliseconds_mono {d d' : Duration} (h : d.nanoseconds ≤ d'.nanoseconds) :
    d.milliseconds ≤ d'.milliseconds :=
  Nat.div_le_div_right h

/-- Nothing is lost when the span is counted in milliseconds. -/
def IsWhole (d : Duration) : Prop :=
  ∃ n, d = ofMilliseconds n

end Duration

namespace TaskWait

/-- The milliseconds that an interval counts for. -/
def interval (wait : TaskWait) : Nat :=
  max wait.pollInterval.milliseconds 1

/-- How many intervals the timeout has. -/
def intervals (wait : TaskWait) : Nat :=
  wait.timeout.milliseconds / wait.interval

/-- The nanoseconds of pauses in a wait that no answer ends. -/
def fullPause (wait : TaskWait) : Nat :=
  (wait.maxPolls - 1) * wait.pollInterval.nanoseconds

variable (wait : TaskWait)

theorem interval_pos : 0 < wait.interval :=
  Nat.le_max_right _ 1

theorem intervals_mul_le : wait.intervals * wait.interval ≤ wait.timeout.milliseconds :=
  Nat.div_mul_le_self _ _

theorem lt_intervals_succ_mul :
    wait.timeout.milliseconds < (wait.intervals + 1) * wait.interval := by
  rw [Nat.mul_comm]
  exact Nat.lt_mul_div_succ wait.timeout.milliseconds wait.interval_pos

theorem maxPolls_eq : wait.maxPolls = wait.intervals % UInt64.size + 1 := rfl

theorem maxPolls_of_lt {wait : TaskWait} (h : wait.intervals < UInt64.size) :
    wait.maxPolls = wait.intervals + 1 := by
  rw [maxPolls_eq, Nat.mod_eq_of_lt h]

/-! ### How long a wait may pause -/

/-- If an interval is at most `k` times what it counts for, the pauses take at most `k` times the
timeout. -/
theorem fullPause_le {wait : TaskWait} {k : Nat}
    (h : wait.pollInterval.nanoseconds ≤ k * (wait.interval * 1000000)) :
    wait.fullPause ≤ k * wait.timeout.nanoseconds := by
  have hpolls : wait.maxPolls - 1 ≤ wait.intervals := by
    rw [maxPolls_eq, Nat.add_sub_cancel]
    exact Nat.mod_le _ _
  calc (wait.maxPolls - 1) * wait.pollInterval.nanoseconds
      ≤ wait.intervals * (k * (wait.interval * 1000000)) := Nat.mul_le_mul hpolls h
    _ = k * (wait.intervals * wait.interval * 1000000) := by ring
    _ ≤ k * (wait.timeout.milliseconds * 1000000) := by
        gcongr
        exact wait.intervals_mul_le
    _ ≤ k * wait.timeout.nanoseconds := by
        gcongr
        exact wait.timeout.milliseconds_mul_le

theorem fullPause_le_timeout {wait : TaskWait}
    (h : wait.pollInterval.nanoseconds < 1000000 ∨ wait.pollInterval.IsWhole) :
    wait.fullPause ≤ wait.timeout.nanoseconds := by
  rw [← Nat.one_mul wait.timeout.nanoseconds]
  apply fullPause_le
  rw [Nat.one_mul]
  rcases h with hshort | ⟨n, hwhole⟩
  · have hinterval := wait.interval_pos
    omega
  · have hinterval : n ≤ wait.interval := by
      rw [interval, hwhole, Duration.milliseconds_ofMilliseconds]
      exact Nat.le_max_left n 1
    rw [hwhole]
    exact Nat.mul_le_mul_right 1000000 hinterval

theorem fullPause_le_two_mul_timeout : wait.fullPause ≤ 2 * wait.timeout.nanoseconds := by
  apply fullPause_le
  have hcut := wait.pollInterval.lt_milliseconds_succ_mul
  have hinterval : wait.pollInterval.milliseconds + 1 ≤ 2 * wait.interval := by
    rw [interval]
    omega
  omega

/-! ### What longer times do -/

theorem intervals_mono {wait wait' : TaskWait}
    (htimeout : wait.timeout.nanoseconds ≤ wait'.timeout.nanoseconds)
    (hinterval : wait'.pollInterval.nanoseconds ≤ wait.pollInterval.nanoseconds) :
    wait.intervals ≤ wait'.intervals := by
  have hshorter : wait'.interval ≤ wait.interval :=
    max_le_max_right 1 (Duration.milliseconds_mono hinterval)
  exact Nat.div_le_div (Duration.milliseconds_mono htimeout) hshorter wait'.interval_pos.ne'

theorem maxPolls_mono {wait wait' : TaskWait} (h : wait'.intervals < UInt64.size)
    (htimeout : wait.timeout.nanoseconds ≤ wait'.timeout.nanoseconds)
    (hinterval : wait'.pollInterval.nanoseconds ≤ wait.pollInterval.nanoseconds) :
    wait.maxPolls ≤ wait'.maxPolls := by
  have hintervals := intervals_mono htimeout hinterval
  rw [maxPolls_of_lt h, maxPolls_of_lt (hintervals.trans_lt h)]
  exact Nat.succ_le_succ hintervals

end TaskWait

/-! ### Settings

Settings come in milliseconds, of which there are no more than the quotient can hold. Only the
question at the start can be one too many. -/

namespace Config

variable (config : Config)

theorem milliseconds_timeout :
    config.taskWait.timeout.milliseconds = config.taskTimeoutMilliseconds.toNat :=
  Duration.milliseconds_ofMilliseconds _

theorem interval_taskWait :
    config.taskWait.interval = max config.taskPollIntervalMilliseconds.toNat 1 := by
  rw [TaskWait.interval, taskWait, Duration.milliseconds_ofMilliseconds]

theorem intervals_taskWait_le :
    config.taskWait.intervals ≤ config.taskTimeoutMilliseconds.toNat := by
  rw [← milliseconds_timeout]
  exact Nat.div_le_self _ _

theorem maxPolls_taskWait : config.taskWait.maxPolls = config.taskWait.intervals + 1 :=
  TaskWait.maxPolls_of_lt
    (config.intervals_taskWait_le.trans_lt config.taskTimeoutMilliseconds.toNat_lt_size)

/-- The number of questions needs more than 64 bits only at the longest timeout. -/
theorem size_le_maxPolls_taskWait_iff :
    UInt64.size ≤ config.taskWait.maxPolls ↔
      config.taskTimeoutMilliseconds.toNat = UInt64.size - 1 ∧
        config.taskPollIntervalMilliseconds.toNat ≤ 1 := by
  have hsize := config.taskTimeoutMilliseconds.toNat_lt_size
  have hle := config.intervals_taskWait_le
  have hmul := config.taskWait.intervals_mul_le
  rw [maxPolls_taskWait]
  rw [milliseconds_timeout, interval_taskWait] at hmul
  constructor
  · intro h
    have htimeout : config.taskTimeoutMilliseconds.toNat = UInt64.size - 1 := by omega
    have hintervals : config.taskWait.intervals = UInt64.size - 1 := by omega
    refine ⟨htimeout, ?_⟩
    rw [hintervals, htimeout] at hmul
    have hinterval := Nat.le_of_mul_le_mul_left (hmul.trans_eq (Nat.mul_one _).symm) (by decide)
    exact (Nat.le_max_left _ 1).trans hinterval
  · rintro ⟨htimeout, hinterval⟩
    have hintervals : config.taskWait.intervals = UInt64.size - 1 := by
      rw [TaskWait.intervals, interval_taskWait, max_eq_right hinterval, milliseconds_timeout,
        Nat.div_one, htimeout]
    rw [hintervals]
    decide

end Config

/-! ### The pauses of a run -/

/-- The nanoseconds that the action takes. Calls are not counted. -/
def Action.paused : Action → Nat
  | call _ => 0
  | pause duration => duration.nanoseconds

/-- The nanoseconds that a client pauses in all. -/
def pausedTime (record : List Action) : Nat :=
  (record.map Action.paused).sum

theorem pausedTime_append (before after : List Action) :
    pausedTime (before ++ after) = pausedTime before + pausedTime after := by
  rw [pausedTime, List.map_append, List.sum_append, pausedTime, pausedTime]

theorem pausedTime_polling (uid : UInt64) (interval : Duration) (n : Nat) :
    pausedTime (polling uid interval (n + 1)) = n * interval.nanoseconds := by
  induction n with
  | zero => simp [polling_one, pausedTime, Action.paused]
  | succ n ih =>
      have hround : pausedTime [.call (.task uid), .pause interval] = interval.nanoseconds := by
        simp [pausedTime, Action.paused]
      rw [polling_add_two, pausedTime_append, ih, hround, Nat.add_comm, Nat.succ_mul]

namespace SearchService

variable {σ ε : Type} (service : SearchService (StateM σ) ε) (pause : Duration → StateM σ Unit)
  (uid : UInt64) (wait : TaskWait) (s : σ)

/-- What a wait has done, seen from the service. -/
def recordOfWait : List Action :=
  (Recording.observe [] (service.recorded.waitForTask (Recording.pausing pause) uid wait) s).1.2

variable {service pause uid wait s}

theorem recordOfWait_of_none_decisive
    (hnone : ∀ k < wait.maxPolls,
      ¬Decisive (service.answerAfter pause uid wait.pollInterval s k)) :
    service.recordOfWait pause uid wait s = polling uid wait.pollInterval wait.maxPolls :=
  congrArg Prod.snd (observePoll_of_none_decisive [] hnone)

theorem exists_recordOfWait_eq_polling :
    ∃ n < wait.maxPolls,
      service.recordOfWait pause uid wait s = polling uid wait.pollInterval (n + 1) := by
  classical
  by_cases hdecisive : ∃ k, k < wait.maxPolls ∧
      Decisive (service.answerAfter pause uid wait.pollInterval s k)
  · obtain ⟨hbudget, hends⟩ := Nat.find_spec hdecisive
    obtain ⟨outcome, hsettles⟩ := hends.exists_settles
    have hearlier : ∀ i < Nat.find hdecisive,
        ¬Decisive (service.answerAfter pause uid wait.pollInterval s i) :=
      fun i hi hi' => Nat.find_min hdecisive hi ⟨hi.trans hbudget, hi'⟩
    exact ⟨_, hbudget,
      congrArg Prod.snd (observePoll_of_first_decisive [] hearlier hsettles hbudget)⟩
  · push Not at hdecisive
    exact ⟨wait.maxPolls - 1, Nat.lt_succ_self _, recordOfWait_of_none_decisive hdecisive⟩

theorem pausedTime_recordOfWait_le :
    pausedTime (service.recordOfWait pause uid wait s) ≤ wait.fullPause := by
  obtain ⟨n, hn, hrecord⟩ : ∃ n < wait.maxPolls,
      service.recordOfWait pause uid wait s = polling uid wait.pollInterval (n + 1) :=
    exists_recordOfWait_eq_polling
  rw [hrecord, pausedTime_polling]
  exact Nat.mul_le_mul_right _ (Nat.le_sub_one_of_lt hn)

/-- **The budget respects the timeout.** Under any settings a wait may ask once more than its
timeout has whole intervals, and that number needs more than 64 bits only at the longest timeout. In
any wait the pauses take at most the timeout if the interval is below a millisecond or a whole
number of them, and at most twice the timeout otherwise. A run takes no more than these pauses, and
all of them if no answer ends it. Within 64 bits a longer timeout never means fewer questions, and a
longer interval never means more. -/
theorem budget_respects_timeout :
    (∀ config : Config,
      let timeout := config.taskTimeoutMilliseconds.toNat
      let interval := max config.taskPollIntervalMilliseconds.toNat 1
      let polls := config.taskWait.maxPolls
      polls = timeout / interval + 1 ∧
      1 ≤ polls ∧ (polls - 1) * interval ≤ timeout ∧ timeout < polls * interval ∧
      (UInt64.size ≤ polls ↔
        timeout = UInt64.size - 1 ∧ config.taskPollIntervalMilliseconds.toNat ≤ 1)) ∧
    (∀ wait : TaskWait,
      (wait.pollInterval.nanoseconds < 1000000 ∨ wait.pollInterval.IsWhole →
        wait.fullPause ≤ wait.timeout.nanoseconds) ∧
      wait.fullPause ≤ 2 * wait.timeout.nanoseconds) ∧
    (∀ (service : SearchService (StateM σ) ε) (pause : Duration → StateM σ Unit) (uid : UInt64)
        (wait : TaskWait) (s : σ),
      pausedTime (service.recordOfWait pause uid wait s) ≤ wait.fullPause ∧
      ((∀ k < wait.maxPolls, ¬Decisive (service.answerAfter pause uid wait.pollInterval s k)) →
        pausedTime (service.recordOfWait pause uid wait s) = wait.fullPause)) ∧
    ∀ wait wait' : TaskWait, wait'.intervals < UInt64.size - 1 →
      wait.timeout.nanoseconds ≤ wait'.timeout.nanoseconds →
      wait'.pollInterval.nanoseconds ≤ wait.pollInterval.nanoseconds →
      wait.maxPolls ≤ wait'.maxPolls := by
  refine ⟨?_, ?_, ?_, ?_⟩
  · intro config timeout interval polls
    have hpolls : polls = config.taskWait.intervals + 1 := config.maxPolls_taskWait
    have hlower := config.taskWait.intervals_mul_le
    have hupper := config.taskWait.lt_intervals_succ_mul
    rw [config.milliseconds_timeout, config.interval_taskWait] at hlower hupper
    refine ⟨?_, ?_, ?_, ?_, config.size_le_maxPolls_taskWait_iff⟩
    · rw [hpolls, TaskWait.intervals, config.milliseconds_timeout, config.interval_taskWait]
    · rw [hpolls]
      exact Nat.le_add_left 1 _
    · rw [hpolls, Nat.add_sub_cancel]
      exact hlower
    · rw [hpolls]
      exact hupper
  · exact fun wait => ⟨TaskWait.fullPause_le_timeout, wait.fullPause_le_two_mul_timeout⟩
  · intro service pause uid wait s
    refine ⟨pausedTime_recordOfWait_le, ?_⟩
    intro hnone
    rw [recordOfWait_of_none_decisive hnone, TaskWait.fullPause, TaskWait.maxPolls_eq,
      pausedTime_polling, Nat.add_sub_cancel]
  · intro wait wait' hquotient htimeout hinterval
    exact TaskWait.maxPolls_mono (hquotient.trans (by decide)) htimeout hinterval

theorem budget_respects_timeout_cut_interval :
    let script : Script := { tasks := [.info .processing none none] }
    let pause : Duration → StateM Script Unit := fun _ => pure ()
    let cut : TaskWait := ⟨.ofParts 0 1500000, .ofParts 0 1999999⟩
    let short : TaskWait := ⟨.ofParts 0 1500000, .ofParts 0 999999⟩
    let whole : TaskWait := ⟨.ofParts 1 2, .ofMilliseconds 1⟩
    ((∀ k < cut.maxPolls,
        ¬Decisive (Script.service.answerAfter pause 7 cut.pollInterval script k)) ∧
      short.pollInterval.nanoseconds < 1000000 ∧ whole.pollInterval.IsWhole ∧
      whole.intervals < UInt64.size - 1 ∧
      cut.timeout.nanoseconds ≤ whole.timeout.nanoseconds ∧
      whole.pollInterval.nanoseconds ≤ cut.pollInterval.nanoseconds) ∧
    pausedTime (Script.service.recordOfWait pause 7 cut script) = 1999999 ∧
      cut.timeout.nanoseconds < 1999999 ∧
      short.fullPause ≤ short.timeout.nanoseconds ∧
      whole.fullPause ≤ whole.timeout.nanoseconds ∧ cut.maxPolls ≤ whole.maxPolls := by
  intro script pause cut short whole
  obtain ⟨-, hpauses, hruns, hmono⟩ := @budget_respects_timeout Script String
  have hnone : ∀ k < cut.maxPolls,
      ¬Decisive (Script.service.answerAfter pause 7 cut.pollInterval script k) := by
    intro k hk
    have hpolls : cut.maxPolls = 2 := by decide
    rw [hpolls] at hk
    interval_cases k
    · exact Bool.false_ne_true
    · exact Bool.false_ne_true
  have hshort : short.pollInterval.nanoseconds < 1000000 := by decide
  have hwhole : whole.pollInterval.IsWhole := ⟨1, rfl⟩
  have hquotient : whole.intervals < UInt64.size - 1 := by decide
  have htimeout : cut.timeout.nanoseconds ≤ whole.timeout.nanoseconds := by decide
  have hinterval : whole.pollInterval.nanoseconds ≤ cut.pollInterval.nanoseconds := by decide
  refine ⟨⟨hnone, hshort, hwhole, hquotient, htimeout, hinterval⟩, ?_, by decide, ?_, ?_, ?_⟩
  · have hfull : cut.fullPause = 1999999 := by decide
    rw [← hfull]
    exact (hruns Script.service pause 7 cut script).2 hnone
  · exact (hpauses short).1 (.inl hshort)
  · exact (hpauses whole).1 (.inr hwhole)
  · exact hmono cut whole hquotient htimeout hinterval

end SearchService

end SearchFilter
