import Spoor.FlushQueue.Counter
import Spoor.FlushQueue.Records

/-! # Why records leave

In circular mode the worker tests a record's retention on every lap, before it
asks whether the record is to be flushed.  The test does not look at the marks
of a manual flush, and the branch that drops the record removes its mark.  So a
marked record may expire, but only at the next test: once it has passed that one, the
worker finds it due and writes it.  The exception are two `Flush` calls that overlap.
The second to come to the lock may have read the clock first, and moves
`flush_timestamp_` back; then a marked record goes round once more.
-/

namespace Spoor.FlushQueue.DiskFlushQueue

open Lib.MachineInteger Lib.Transition

variable {β κ : Type}

theorem step_log {o : Options} {s s' : State β κ} {a : Action β κ}
    (taken : step o s a = some s') : ∃ events, s'.log = s.log ++ events := by
  cases step_records taken with
  | same events _ _ log => exact ⟨events, log⟩
  | enter _ _ _ _ _ _ log => exact ⟨_, log⟩
  | leave _ _ _ _ _ log => exact ⟨_, log⟩
  | clear _ _ log => exact ⟨_, log⟩

/-- The log of a run extends the log of every state it passed through. -/
theorem exec_log {o : Options} {labels : List (Action β κ)} {s s' : State β κ}
    (continues : exec (step o) s labels = some s') : ∃ events, s'.log = s.log ++ events := by
  refine invariant_always (fun t => ∃ events, t.log = s.log ++ events) ⟨[], by simp⟩ ?_ continues
  rintro t a u ⟨earlier, log⟩ taken
  obtain ⟨events, log'⟩ := step_log taken
  exact ⟨earlier ++ events, by rw [log', log, List.append_assoc]⟩

/-- A held record was enqueued, with the timestamp it still has. -/
theorem Tracked.held_origin {s : State β κ} {record : FlushInfo β} (tracked : Tracked s)
    (held : s.worker.held = some record) : ∃ thread enqueued,
      .enqueued thread enqueued ∈ s.log ∧ enqueued.id = record.id ∧
        enqueued.flushTimestamp = record.flushTimestamp := by
  obtain ⟨thread, enqueued, logged, same⟩ :=
    tracked.origin record.stamp (by simp [State.records, held])
  refine ⟨thread, enqueued, logged, ?_, ?_⟩
  · rw [← stamp_id, same, stamp_id]
  · rw [← stamp_flushTimestamp, same, stamp_flushTimestamp]

/-- The step is the critical section of a `Flush` that finds the record in the deque and
    marks it. -/
def Marks (s : State β κ) (a : Action β κ) (record : FlushInfo β) : Prop :=
  ∃ thread clock completion now, a = .client thread clock ∧
    s.clients thread = .flushLock completion now ∧ record ∈ s.guarded.queue ∧
      record.flushTimestamp ≤ now

section Since

variable (o : Options) (record : FlushInfo β) (events : List (Event β κ))

/-- No retention test of the record is among the events. -/
def Untested : Prop := ∀ now, .tested record.id now ∉ events

/-- Among the events is the critical section of a `Flush` with a reading from before the
    record's timestamp. -/
def SetBack : Prop := ∃ earlier marked, .flushed earlier marked ∈ events ∧
  earlier < record.flushTimestamp

/-- The events end with a retention test that is past the record's deadline and the first
    one, unless a `Flush` has set the queue's flush timestamp back before. -/
def Late : Prop := ∃ before now after, events = before ++ .tested record.id now :: after ∧
  Untested record after ∧
  (IsInt64 (record.flushTimestamp + o.bufferRetentionDuration) →
    record.flushTimestamp + o.bufferRetentionDuration ≤ now) ∧
  (Untested record before ∨ SetBack record before)

/-- The record was dropped by such a retention test. -/
def Expired : Prop := ∃ before after, events = before ++ .discarded record.id :: after ∧
  Late o record before

/-- The record was written at least once, cleared, or dropped by a late test. -/
def WrittenClearedOrExpired : Prop :=
  (∃ ok, .wrote record.id ok ∈ events) ∨
    (∃ ids, .cleared ids ∈ events ∧ record.id ∈ ids) ∨ Expired o record events

/-- What is known of a marked record in the worker's hands. -/
def Stage : Worker β κ → Prop
  | .retain r => r.stamp = record.stamp ∧ (Untested record events ∨ SetBack record events)
  | .discard r => r.stamp = record.stamp ∧ Late o record events
  | .decideFlush r | .write r => r.stamp = record.stamp
  | .requeue r => r.stamp = record.stamp ∧ SetBack record events
  | _ => False

/-- What is known of a marked record that was not written yet. -/
structure Awaiting (s : State β κ) : Prop where
  due : record.flushTimestamp ≤ s.guarded.flushTimestamp ∨ SetBack record events
  place : (∃ r ∈ s.guarded.queue, r.stamp = record.stamp ∧
      (Untested record events ∨ SetBack record events)) ∨
    Stage o record events s.worker

end Since

section

variable {o : Options} {record : FlushInfo β} {events more : List (Event β κ)}
  {s s' : State β κ} {a : Action β κ}

theorem Untested.append (untested : Untested record events) (other : Untested record more) :
    Untested record (events ++ more) := by
  intro now member
  exact (List.mem_append.mp member).elim (untested now) (other now)

theorem SetBack.append (back : SetBack record events) (more : List (Event β κ)) :
    SetBack record (events ++ more) := by
  obtain ⟨earlier, marked, member, before⟩ := back
  exact ⟨earlier, marked, List.mem_append_left _ member, before⟩

theorem Late.append (late : Late o record events) (other : Untested record more) :
    Late o record (events ++ more) := by
  obtain ⟨before, now, after, rfl, untested, past, first⟩ := late
  exact ⟨before, now, after ++ more, by simp, untested.append other, past, first⟩

theorem WrittenClearedOrExpired.append (gone : WrittenClearedOrExpired o record events)
    (more : List (Event β κ)) : WrittenClearedOrExpired o record (events ++ more) := by
  rcases gone with ⟨ok, wrote⟩ | ⟨ids, cleared, listed⟩ | ⟨before, after, rfl, late⟩
  · exact .inl ⟨ok, List.mem_append_left _ wrote⟩
  · exact .inr (.inl ⟨ids, List.mem_append_left _ cleared, listed⟩)
  · exact .inr (.inr ⟨before, after ++ more, by simp, late⟩)

theorem first_append (first : Untested record events ∨ SetBack record events)
    (other : Untested record more) :
    Untested record (events ++ more) ∨ SetBack record (events ++ more) :=
  first.imp (·.append other) (·.append more)

theorem Stage.append {worker : Worker β κ} (stage : Stage o record events worker)
    (other : Untested record more) : Stage o record (events ++ more) worker := by
  cases worker with
  | retain r => exact ⟨stage.1, first_append stage.2 other⟩
  | discard r => exact ⟨stage.1, stage.2.append other⟩
  | decideFlush r | write r => exact stage
  | requeue r => exact ⟨stage.1, stage.2.append more⟩
  | _ => exact stage

theorem id_of_stamp {r : FlushInfo β} (same : r.stamp = record.stamp) : r.id = record.id := by
  rw [← stamp_id r, same, stamp_id]

theorem flushTimestamp_of_stamp {r : FlushInfo β} (same : r.stamp = record.stamp) :
    r.flushTimestamp = record.flushTimestamp := by
  rw [← stamp_flushTimestamp r, same, stamp_flushTimestamp]

/-- A step that leaves the flush timestamp alone and takes nothing from the deque. -/
theorem Awaiting.carry (awaiting : Awaiting o record events s) (other : Untested record more)
    (timestamp : s'.guarded.flushTimestamp = s.guarded.flushTimestamp)
    (queue : ∀ r ∈ s.guarded.queue, r ∈ s'.guarded.queue)
    (stage : Stage o record events s.worker → Stage o record events s'.worker) :
    Awaiting o record (events ++ more) s' where
  due := awaiting.due.imp (timestamp ▸ ·) (·.append more)
  place := by
    rcases awaiting.place with ⟨r, member, same, first⟩ | held
    · exact .inl ⟨r, queue r member, same, first_append first other⟩
    · exact .inr ((stage held).append other)

/-- A step that neither logs a test or a write nor lets go of the record: the worker asks at
    most whether the record is to be flushed. -/
theorem Stage.silent (stage : Stage o record events s.worker)
    (due : record.flushTimestamp ≤ s.guarded.flushTimestamp ∨ SetBack record events)
    (load : s'.worker.load = s.worker.load) (log : s'.log = s.log ++ more)
    (control : ∀ e ∈ more, e.Control) (taken : step o s a = some s') :
    Stage o record events s'.worker := by
  have logs : ∀ e : Event β κ, ¬e.Control → s'.log ≠ s.log ++ [e] := by
    intro e loud logged
    obtain rfl := List.append_cancel_left (log.symm.trans logged)
    exact loud (control e (List.mem_singleton_self e))
  rcases step_worker taken with same | ⟨absent, -⟩ | ⟨finished, -⟩ | ⟨now, ok, -, moves⟩
  · exact same ▸ stage
  · exact (absent ▸ stage).elim
  · exact (finished ▸ stage).elim
  · cases position : s.worker with
    | retain r =>
        simp only [workerStep, position, Option.some.injEq] at moves
        subst moves
        exact absurd rfl (logs _ (fun loud => loud.elim))
    | discard r =>
        simp only [workerStep, position, Option.some.injEq] at moves
        subst moves
        exact absurd rfl (logs _ (fun loud => loud.elim))
    | decideFlush r =>
        rw [position] at stage
        have same := flushTimestamp_of_stamp stage
        simp only [workerStep, position, Option.some.injEq] at moves
        subst moves
        by_cases flush : (o.flushAllEvents ||
            decide (r.flushTimestamp ≤ s.guarded.flushTimestamp)) = true
        · simp only [if_pos flush]
          exact stage
        · simp only [if_neg flush]
          rw [Bool.or_eq_true, decide_eq_true_eq, same] at flush
          exact ⟨stage, due.resolve_left fun reached => flush (.inr reached)⟩
    | write r =>
        simp only [workerStep, position, Option.some.injEq] at moves
        subst moves
        exact absurd rfl (logs _ (fun loud => loud.elim))
    | requeue r =>
        simp only [workerStep, position] at moves
        split at moves <;> cases moves
        rw [position] at load
        cases load
    | _ =>
        rw [position] at stage
        exact stage.elim

theorem Awaiting.holds (awaiting : Awaiting o record events s) : s.Holds record.id := by
  rcases awaiting.place with ⟨r, member, same, -⟩ | stage
  · exact .inl ⟨r, member, id_of_stamp same⟩
  · cases position : s.worker with
    | retain r | discard r | requeue r =>
        rw [position] at stage
        exact .inr ⟨r, by rw [position]; rfl, id_of_stamp stage.1⟩
    | decideFlush r | write r =>
        rw [position] at stage
        exact .inr ⟨r, by rw [position]; rfl, id_of_stamp stage⟩
    | _ =>
        rw [position] at stage
        exact stage.elim

/-- The `Flush` that marks a record has it wait. -/
theorem Marks.awaiting (marks : Marks s a record) (taken : step o s a = some s') :
    record.id ∈ s'.guarded.manualFlushRecordIds ∧ Awaiting (o := o) record [] s' := by
  obtain ⟨thread, clock, completion, now, rfl, position, member, due⟩ := marks
  simp only [step, clientStep, position, Option.some.injEq] at taken
  subst taken
  refine ⟨?_, .inl due, .inl ⟨record, member, rfl, .inl (by simp [Untested])⟩⟩
  refine Finset.mem_union_right _ (List.mem_toFinset.mpr (List.mem_map_of_mem ?_))
  exact List.mem_filter.mpr ⟨member, decide_eq_true due⟩

end

/-- Options of a queue in circular mode that retains records for three ticks. -/
def circular : Options :=
  { logEverything with flushAllEvents := false, bufferRetentionDuration := 3 }

/-- A record enqueued at 1 is marked by a `Flush` at 2, whose last step this is. -/
def enqueueThenFlush : List (Action Unit Unit) := runAndEnqueue ++ flushCall 0 none 2

end Spoor.FlushQueue.DiskFlushQueue
