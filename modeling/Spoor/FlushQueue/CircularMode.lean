import Spoor.FlushQueue.Retention
import Spoor.FlushQueue.Shutdown

/-! # What circular mode writes

In circular mode a popped record passes two tests before it is written.  The
worker compares its deadline with the clock, and then, in a second critical
section, its timestamp with that of the last `Flush`.  Other threads may move
`flush_timestamp_` between the two, in either direction, so the second test is
about the `Flush` whose reading is stored when it is made.  The constructor
stores zero there, which no `Flush` has read: a clock that starts at zero would
let records out that nobody flushed.

The deadline is a sum of clock values and the retention duration of the user.  The
last part says when the first test is exact.
-/

namespace Spoor.FlushQueue.DiskFlushQueue

open Lib.MachineInteger Lib.Transition

variable {β κ : Type}

/-- The sum of clock values that a step computes, before any wrapping. -/
def State.clockSum (o : Options) (s : State β κ) : Action β κ → Option Int
  | .worker _ _ =>
      match s.worker with
      | .retain record => some (record.flushTimestamp + o.bufferRetentionDuration)
      | _ => none
  | _ => none

/-- Clock readings are positive, and sums of clock values are representable. -/
def ClockSound (o : Options) (s : State β κ) (a : Action β κ) : Prop :=
  (∀ now ∈ s.clockReading a, 0 < now) ∧
    ∀ sum ∈ s.clockSum o a, -2 ^ 63 ≤ sum ∧ sum < 2 ^ 63

instance (o : Options) (s : State β κ) (a : Action β κ) : Decidable (ClockSound o s a) :=
  inferInstanceAs (Decidable (_ ∧ _))

/-- The last retention test of the record found it before its deadline. -/
def PassedTest (o : Options) (log : List (Event β κ)) (record : FlushInfo β) : Prop :=
  ∃ before now after, log = before ++ .tested record.id now :: after ∧
    (∀ later, .tested record.id later ∉ after) ∧
    now < record.flushTimestamp + o.bufferRetentionDuration

/-- A `Flush` of the running queue read the record's timestamp or a later time. -/
def FlushCalled (log : List (Event β κ)) (record : FlushInfo β) : Prop :=
  ∃ now marked, .flushed now marked ∈ log ∧ record.flushTimestamp ≤ now

/-- The timestamp of an `Enqueue` under way. -/
def Client.timestamp : Client β κ → Option Int
  | .enqueueRunning _ flushTimestamp | .enqueueDraining _ flushTimestamp
  | .enqueueLock _ flushTimestamp => some flushTimestamp
  | _ => none

theorem timestamp_entry (method : Call β κ) : (Call.entry method).timestamp = none := by
  cases method <;> rfl

section

variable {o : Options} {s s' : State β κ} {a : Action β κ}

/-- The timestamp of an `Enqueue` is the reading its first step took. -/
theorem step_timestamp {thread : Nat} {flushTimestamp : Int} (taken : step o s a = some s')
    (after : (s'.clients thread).timestamp = some flushTimestamp) :
    (s.clients thread).timestamp = some flushTimestamp ∨
      s.clockReading a = some flushTimestamp := by
  cases a with
  | worker now ok => exact .inl (worker_clients taken ▸ after)
  | call caller method =>
      obtain ⟨idle, events, rfl, -⟩ := call_entry taken
      by_cases same : thread = caller
      · subst same
        simp [timestamp_entry] at after
      · exact .inl (by simpa [same] using after)
  | client caller now =>
      by_cases same : thread = caller
      · subst same
        cases position : s.clients thread <;> simp only [step, clientStep, position] at taken
        case enqueueNow =>
            cases taken
            refine .inr ?_
            simpa [State.clockReading, position, Client.timestamp] using after
        all_goals
          repeat split at taken
          all_goals cases taken
          all_goals simp_all [Client.timestamp]
      · rw [client_others taken same] at after
        exact .inl after

/-- Retention tests are logged by the step that makes them. -/
theorem step_untested (taken : step o s a = some s') :
    (∃ record, s.worker = .retain record) ∨ ∃ events, s'.log = s.log ++ events ∧
      ∀ id now, .tested id now ∉ events := by
  cases step_effect taken with
  | test record _ position => exact .inl ⟨record, position⟩
  | silent events _ _ log control =>
      exact .inr ⟨events, log, fun id now member => control _ member⟩
  | bypass _ _ _ log => exact .inr ⟨_, log, by simp⟩
  | enqueue _ _ _ _ _ _ _ _ _ log => exact .inr ⟨_, log, by simp⟩
  | flush completion _ _ _ _ log => exact .inr ⟨_, log, by cases completion <;> simp⟩
  | clear _ _ _ log => exact .inr ⟨_, log, by simp⟩
  | pop _ _ _ _ _ _ log => exact .inr ⟨[], by simp [log], by simp⟩
  | discard _ _ _ _ log => exact .inr ⟨_, log, by simp⟩
  | write _ _ _ _ _ log => exact .inr ⟨_, log, by simp⟩
  | requeue _ _ _ _ log => exact .inr ⟨[], by simp [log], by simp⟩
  | finish _ _ _ _ _ _ log => exact .inr ⟨_, log, by simp⟩
  | take _ _ _ _ _ _ _ log => exact .inr ⟨[], by simp [log], by simp⟩
  | start _ _ _ _ _ log => exact .inr ⟨_, log, by simp⟩

/-- What is known in circular mode about timestamps and about the tests that
    the record in the worker's hands has passed. -/
structure Timely (o : Options) (s : State β κ) : Prop where
  entering : ∀ thread flushTimestamp,
    (s.clients thread).timestamp = some flushTimestamp → 0 < flushTimestamp
  enqueued : ∀ thread record, .enqueued thread record ∈ s.log → 0 < record.flushTimestamp
  flushed : s.guarded.flushTimestamp = 0 ∨
    ∃ marked, .flushed s.guarded.flushTimestamp marked ∈ s.log
  tested : ∀ record, s.worker = .decideFlush record ∨ s.worker = .write record →
    PassedTest o s.log record
  due : ∀ record, s.worker = .write record → FlushCalled s.log record

theorem Timely.initial (o : Options) : Timely o (initial : State β κ) := by
  constructor <;> simp [DiskFlushQueue.initial, Client.timestamp]

theorem PassedTest.extend {log events : List (Event β κ)} {record : FlushInfo β}
    (passed : PassedTest o log record) (untested : ∀ id now, .tested id now ∉ events) :
    PassedTest o (log ++ events) record := by
  obtain ⟨before, now, after, rfl, last, early⟩ := passed
  refine ⟨before, now, after ++ events, by simp, ?_, early⟩
  intro later member
  exact (List.mem_append.mp member).elim (last later) (untested record.id later)

theorem FlushCalled.extend {log : List (Event β κ)} {record : FlushInfo β}
    (called : FlushCalled log record) (events : List (Event β κ)) :
    FlushCalled (log ++ events) record := by
  obtain ⟨now, marked, logged, order⟩ := called
  exact ⟨now, marked, List.mem_append_left _ logged, order⟩

/-- `flush_timestamp_` is zero until the first `Flush`, and a logged reading after it. -/
theorem step_flushTimestamp (taken : step o s a = some s') :
    s'.guarded.flushTimestamp = s.guarded.flushTimestamp ∨
      ∃ marked, .flushed s'.guarded.flushTimestamp marked ∈ s'.log := by
  cases step_effect taken with
  | flush completion now _ guarded _ log =>
      refine .inr ⟨s.guarded.marked now, ?_⟩
      rw [guarded, log]
      exact List.mem_append_right _ List.mem_cons_self
  | silent _ guarded => exact .inl (by rw [guarded])
  | bypass _ guarded => exact .inl (by rw [guarded])
  | enqueue _ _ _ _ _ _ _ guarded => exact .inl (by rw [guarded]; rfl)
  | clear _ guarded => exact .inl (by rw [guarded]; rfl)
  | pop _ _ _ _ guarded => exact .inl (by rw [guarded])
  | test _ _ _ guarded => exact .inl (by rw [guarded])
  | discard _ _ guarded => exact .inl (by rw [guarded]; rfl)
  | write _ _ _ guarded => exact .inl (by rw [guarded])
  | requeue _ _ _ guarded => exact .inl (by rw [guarded]; rfl)
  | finish _ _ _ _ guarded => exact .inl (by rw [guarded]; rfl)
  | take _ _ _ _ _ guarded => exact .inl (by rw [guarded])
  | start _ _ _ guarded => exact .inl (by rw [guarded])

/-- A position of the worker that is not the retention test keeps the last test
    while others move. -/
theorem PassedTest.step {record : FlushInfo β} (passed : PassedTest o s.log record)
    (taken : step o s a = some s') (untesting : ∀ record, s.worker ≠ .retain record) :
    PassedTest o s'.log record := by
  rcases step_untested taken with ⟨other, position⟩ | ⟨events, log, untested⟩
  · exact absurd position (untesting other)
  · exact log ▸ passed.extend untested

theorem step_tested {record : FlushInfo β} (circular : o.flushAllEvents = false)
    (timely : Timely o s) (sound : ClockSound o s a) (taken : step o s a = some s')
    (after : s'.worker = .decideFlush record ∨ s'.worker = .write record) :
    PassedTest o s'.log record := by
  rcases after with after | after
  · rcases step_decideFlush taken after with before | ⟨now, ok, rfl, position, log, kept⟩
    · exact (timely.tested record (.inl before)).step taken (by simp [before])
    · refine ⟨s.log, now, [], log, by simp, ?_⟩
      have range := sound.2 (record.flushTimestamp + o.bufferRetentionDuration)
        (by simp [State.clockSum, position])
      have early := kept circular
      rw [retained, addInt64_of_range range.1 range.2] at early
      simpa using early
  · rcases step_flushDecision taken (.inl after) with before | ⟨before, -, log, -⟩
    · rw [after] at before
      exact (timely.tested record (.inr before)).step taken (by simp [before])
    · rw [log]
      exact timely.tested record (.inl before)

theorem step_due {record : FlushInfo β} (circular : o.flushAllEvents = false)
    (timely : Timely o s) (tracked : Tracked s) (taken : step o s a = some s')
    (after : s'.worker = .write record) : FlushCalled s'.log record := by
  rcases step_flushDecision taken (.inl after) with before | ⟨before, -, log, decision⟩
  · obtain ⟨events, log⟩ := step_log taken
    rw [log]
    exact (timely.due record (before.trans after)).extend events
  · have order : record.flushTimestamp ≤ s.guarded.flushTimestamp :=
      (decision.mp after).resolve_left (by simp [circular])
    obtain ⟨thread, enqueued, logged, -, timestamp⟩ :=
      tracked.held_origin (show s.worker.held = some record by rw [before]; rfl)
    have positive := timely.enqueued thread enqueued logged
    rcases timely.flushed with never | ⟨marked, flushed⟩
    · omega
    · exact ⟨_, marked, log ▸ flushed, order⟩

theorem step_timely (circular : o.flushAllEvents = false) (timely : Timely o s)
    (tracked : Tracked s) (sound : ClockSound o s a) (taken : step o s a = some s') :
    Timely o s' := by
  constructor
  · intro thread flushTimestamp after
    rcases step_timestamp taken after with before | reading
    · exact timely.entering thread flushTimestamp before
    · exact sound.1 flushTimestamp reading
  · intro thread record logged
    rcases step_enqueued taken logged with before | ⟨_, buffer, flushTimestamp, -, position, rfl⟩
    · exact timely.enqueued thread record before
    · exact timely.entering thread flushTimestamp (by rw [position]; rfl)
  · obtain ⟨events, log⟩ := step_log taken
    rcases step_flushTimestamp taken with same | flushed
    · rw [same, log]
      exact timely.flushed.imp_right fun ⟨marked, logged⟩ =>
        ⟨marked, List.mem_append_left _ logged⟩
    · exact .inr flushed
  · exact fun record after => step_tested circular timely sound taken after
  · exact fun record after => step_due circular timely tracked taken after

end

theorem run_timely {o : Options} {labels : List (Action β κ)} {s : State β κ}
    (circular : o.flushAllEvents = false)
    (sound : Meets (step o) (ClockSound o) initial labels)
    (reached : exec (step o) initial labels = some s) : Timely o s := by
  refine (invariant (ClockSound o) (fun t => Tracked t ∧ Timely o t)
    ⟨Tracked.initial, Timely.initial o⟩ ?_ sound reached).2
  rintro t a u ⟨tracked, timely⟩ clock taken
  exact ⟨step_tracked tracked taken, step_timely circular timely tracked clock taken⟩

/-- In circular mode, a record that is about to be written was covered by a
    `Flush` of the running queue, and the worker found it before its deadline
    when it last looked at the clock for it. -/
theorem circular_writes_flushed_unexpired (o : Options) (labels : List (Action β κ))
    (s : State β κ) (record : FlushInfo β) (circular : o.flushAllEvents = false)
    (sound : Meets (step o) (ClockSound o) initial labels)
    (reached : exec (step o) initial labels = some s) (writes : s.worker = .write record) :
    (∃ now marked, .flushed now marked ∈ s.log ∧ record.flushTimestamp ≤ now) ∧
      ∃ before now after, s.log = before ++ .tested record.id now :: after ∧
        (∀ later, .tested record.id later ∉ after) ∧
        now < record.flushTimestamp + o.bufferRetentionDuration := by
  have timely := run_timely circular sound reached
  exact ⟨timely.due record writes, timely.tested record (.inr writes)⟩

/-- The worker comes to a flushed record before its deadline. -/
def enqueueFlushWrite : List (Action Unit Unit) :=
  enqueueThenFlush ++ List.replicate 4 (Action.worker 3 true)

theorem circular_writes_flushed_unexpired_enqueueFlushWrite :
    ∃ s, exec (step circular) initial enqueueFlushWrite = some s ∧
      (∃ now marked, .flushed now marked ∈ s.log ∧ 1 ≤ now) ∧
      ∃ before now after, s.log = before ++ .tested 0 now :: after ∧
        (∀ later, .tested 0 later ∉ after) ∧ now < 1 + circular.bufferRetentionDuration :=
  ⟨_, rfl, circular_writes_flushed_unexpired circular enqueueFlushWrite _ ⟨(), 1, 0, 0, 1⟩ rfl
    (by decide) rfl rfl⟩

/-! ## How exact the retention test is -/

/-- The worker turns to discarding the record at a reading of the clock. -/
def Discards (o : Options) (s : State β κ) (record : FlushInfo β) (now : Int) : Prop :=
  ∃ ok s', step o s (.worker now ok) = some s' ∧ s'.worker = .discard record

theorem discards_iff {o : Options} {s : State β κ} {record : FlushInfo β} {now : Int}
    (circular : o.flushAllEvents = false) (testing : s.worker = .retain record) :
    Discards o s record now ↔ retained o record now = false := by
  simp only [Discards, step, workerStep, testing, circular, Option.some.injEq, exists_eq_left',
    emit_worker, exists_const]
  cases kept : retained o record now <;> simp

/-- The test is exact at all later readings of the clock exactly when the record's
    deadline is a value of the clock's type: a deadline past the end is taken for
    one long ago, and one before the beginning for one far ahead. -/
theorem retention_exact_iff (o : Options) (s : State β κ) (record : FlushInfo β)
    (circular : o.flushAllEvents = false) (testing : s.worker = .retain record)
    (duration : IsInt64 o.bufferRetentionDuration) (timestamp : IsInt64 record.flushTimestamp) :
    (∀ now, IsInt64 now → record.flushTimestamp ≤ now →
      (Discards o s record now ↔ o.bufferRetentionDuration ≤ now - record.flushTimestamp)) ↔
      IsInt64 (record.flushTimestamp + o.bufferRetentionDuration) := by
  simp only [discards_iff circular testing, retained, decide_eq_false_iff_not, Int.not_lt]
  constructor
  · intro exactly
    by_contra overflows
    have first := exactly record.flushTimestamp timestamp (Int.le_refl _)
    have wrapped := addInt64_of_overflow timestamp duration overflows
    simp only [IsInt64] at duration timestamp
    omega
  · intro range now _ _
    rw [addInt64_of_range range.1 range.2]
    omega

/-- The worker comes to the record at once. -/
def testAtOnce : List (Action Unit Unit) := runAndEnqueue ++ List.replicate 2 (Action.worker 1 true)

theorem retention_exact_testAtOnce :
    ∃ s, exec (step circular) initial testAtOnce = some s ∧
      ∀ now, IsInt64 now → 1 ≤ now → (Discards circular s ⟨(), 1, 0, 0, 1⟩ now ↔ 3 ≤ now - 1) :=
  ⟨_, rfl, (retention_exact_iff circular _ ⟨(), 1, 0, 0, 1⟩ rfl rfl (by decide) (by decide)).mpr
    (by decide)⟩

/-- Options of a queue that is to retain records for as long as possible. -/
def keepForever : Options := { circular with bufferRetentionDuration := 2 ^ 63 - 1 }

/-- A record that is to be kept forever is discarded one tick after its enqueue. -/
theorem keepForever_discards :
    ∃ s, exec (step keepForever) initial testAtOnce = some s ∧
      s.worker = .retain ⟨(), 1, 0, 0, 1⟩ ∧ keepForever.flushAllEvents = false ∧
      IsInt64 keepForever.bufferRetentionDuration ∧ Discards keepForever s ⟨(), 1, 0, 0, 1⟩ 2 ∧
      ¬keepForever.bufferRetentionDuration ≤ 2 - 1 :=
  ⟨_, rfl, rfl, rfl, by decide, ⟨true, _, rfl, by decide⟩, by decide⟩

end Spoor.FlushQueue.DiskFlushQueue
