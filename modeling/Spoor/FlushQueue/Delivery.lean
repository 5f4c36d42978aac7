import Spoor.FlushQueue.Lifecycle
import Spoor.FlushQueue.Retries

/-! # Delivery

A client that offers a buffer keeps it, drops it or appends it as a record; an open queue
drops none.  A queue that flushes all events and that nobody clears writes every record it
was given, as long as no write fails that the worker does not try again.
-/

namespace Spoor.FlushQueue.DiskFlushQueue

variable {β κ : Type}

def Event.buffer? : Event β κ → Option β
  | .enqueued _ record => some record.buffer
  | _ => none

/-- The buffers of all records that were ever appended, in order. -/
def State.enqueuedBuffers (s : State β κ) : List β := s.log.filterMap Event.buffer?

theorem enqueuedBuffers_emit {s : State β κ} {events : List (Event β κ)}
    (none : ∀ e ∈ events, e.buffer? = none) :
    (s.emit events).enqueuedBuffers = s.enqueuedBuffers := by
  rw [State.enqueuedBuffers, emit_log, List.filterMap_append, List.filterMap_eq_nil_iff.mpr none,
    List.append_nil, State.enqueuedBuffers]

theorem Event.Control.buffer? {e : Event β κ} (control : e.Control) : e.buffer? = none := by
  cases e <;> simp_all [Event.Control, Event.buffer?]

section

variable {o : Options} {s s' : State β κ}

/-- A client that offers a buffer keeps it, drops it, or appends it as a record. -/
theorem client_enqueues {thread : Nat} {now : Int} (taken : clientStep o s thread now = some s') :
    (s'.enqueuedBuffers = s.enqueuedBuffers ∧
        (s'.clients thread).offered.Sublist (s.clients thread).offered) ∨
      ∃ buffer, (s.clients thread).offered = [buffer] ∧ (s'.clients thread).offered = [] ∧
        s'.enqueuedBuffers = s.enqueuedBuffers ++ [buffer] := by
  cases position : s.clients thread with
  | enqueueLock buffer flushTimestamp =>
      simp only [clientStep, position] at taken
      split at taken <;> cases taken
      refine .inr ⟨buffer, rfl, by simp, ?_⟩
      simp [State.enqueuedBuffers, Event.buffer?, Guarded.record]
  | flushRunning completion =>
      simp only [clientStep, position] at taken
      split at taken <;> cases taken
      · exact .inl ⟨rfl, by simp [Client.offered]⟩
      · refine .inl ⟨?_, by simp⟩
        cases completion <;> simp [State.enqueuedBuffers, Event.buffer?]
  | flushLock completion reading =>
      simp only [clientStep, position, Option.some.injEq] at taken
      subst taken
      refine .inl ⟨?_, by simp⟩
      cases completion <;> simp [State.enqueuedBuffers, Event.buffer?]
  | _ =>
      simp only [clientStep, position] at taken
      repeat split at taken
      all_goals cases taken
      all_goals
        exact .inl ⟨by simp [State.enqueuedBuffers, Event.buffer?], by simp [Client.offered]⟩

theorem worker_enqueues {now : Int} {ok : Bool} (taken : workerStep o s now ok = some s') :
    s'.enqueuedBuffers = s.enqueuedBuffers := by
  cases position : s.worker <;> simp only [workerStep, position] at taken
  all_goals
    repeat split at taken
    all_goals cases taken
    all_goals simp [State.enqueuedBuffers, Event.buffer?]

/-- A client that enters a method offers what the method is about. -/
theorem call_enqueues {thread : Nat} {method : Call β κ}
    (taken : callStep s thread method = some s') :
    s'.enqueuedBuffers = s.enqueuedBuffers ∧
      s'.clients = Function.update s.clients thread method.entry := by
  obtain ⟨-, events, rfl, control⟩ := call_entry taken
  exact ⟨enqueuedBuffers_emit fun e member => (control e member).buffer?, rfl⟩

end

/-- A failed write is tried again. -/
def Worker.retries : Worker β κ → Bool
  | .settle record false => 0 < record.remainingFlushAttempts
  | _ => true

/-- A record that left the queue was written. -/
structure Written (s : State β κ) : Prop where
  left : ∀ id, Left s.log id → .wrote id true ∈ s.log
  settling : ∀ record, s.worker.verdict = some (record, some true) →
    .wrote record.id true ∈ s.log

theorem Written.initial : Written (initial : State β κ) := by
  constructor <;> simp [DiskFlushQueue.initial, Left, Worker.verdict]

/-- Events by which no record leaves the queue. -/
def Event.Staying : Event β κ → Prop
  | .finished _ | .discarded _ | .cleared _ => False
  | _ => True

theorem Event.Idle.staying {e : Event β κ} (idle : e.Idle) : e.Staying := by
  cases e <;> simp_all [Event.Idle, Event.Staying]

theorem Left.of_staying {log events : List (Event β κ)} {id : Nat}
    (left : Left (log ++ events) id) (staying : ∀ e ∈ events, e.Staying) : Left log id := by
  have earlier : ∀ e, e ∈ log ++ events → ¬ e.Staying → e ∈ log := by
    intro e member departs
    exact (List.mem_append.mp member).resolve_right fun added => departs (staying e added)
  rcases left with finished | discarded | ⟨ids, cleared, member⟩
  · exact .inl (earlier _ finished (by simp [Event.Staying]))
  · exact .inr (.inl (earlier _ discarded (by simp [Event.Staying])))
  · exact .inr (.inr ⟨ids, earlier _ cleared (by simp [Event.Staying]), member⟩)

section

variable {o : Options} {s s' : State β κ}

theorem Written.step {a : Action β κ} (written : Written s) (flushAll : o.flushAllEvents = true)
    (keeping : s.Keeping) (stays : s.criticalSection a ≠ some .clear)
    (retries : s.worker.retries = true) (taken : step o s a = some s') : Written s' := by
  have extend : ∀ events, s'.log = s.log ++ events → ∀ id, .wrote id true ∈ s.log →
      .wrote id true ∈ s'.log := by
    intro events log id wrote
    rw [log]
    exact List.mem_append_left events wrote
  have frame : ∀ events, s'.log = s.log ++ events → (∀ e ∈ events, e.Staying) →
      (∀ record, s'.worker.verdict = some (record, some true) →
        s.worker.verdict = some (record, some true) ∨ .wrote record.id true ∈ events) →
      Written s' := by
    intro events log staying settling
    constructor
    · intro id left
      rw [log] at left
      exact extend events log id (written.left id (left.of_staying staying))
    · intro record settles
      rcases settling record settles with before | now
      · exact extend events log record.id (written.settling record before)
      · rw [log]
        exact List.mem_append_right _ now
  cases step_passage flushAll keeping taken with
  | still events _ _ verdict _ log idle =>
      refine frame events log (fun e member => (idle e member).staying) fun record settles => ?_
      exact .inl (verdict.symm.trans settles)
  | enter thread record _ _ _ worker _ log =>
      exact frame _ log (by simp [Event.Staying]) fun record settles => .inl (worker ▸ settles)
  | clear clears => exact absurd clears stays
  | pop record _ _ _ verdict _ log | back record _ _ _ _ verdict _ log =>
      refine frame [] (by simp [log]) (by simp) fun record settles => ?_
      cases verdict.symm.trans settles
  | write record ok held verdict _ worker _ log =>
      refine frame _ log (by simp [Event.Staying]) fun other settles => .inr ?_
      simp only [worker, Worker.verdict, Option.some.injEq, Prod.mk.injEq] at settles
      obtain ⟨rfl, rfl⟩ := settles
      exact List.mem_singleton_self _
  | finish record ok position spent _ _ verdict _ log =>
      have wrote : .wrote record.id true ∈ s.log := by
        cases ok with
        | true => exact written.settling record (by rw [position]; rfl)
        | false =>
            have left := spent rfl
            simp only [Worker.retries, position, decide_eq_true_eq] at retries
            omega
      constructor
      · intro id left
        rw [log] at left
        refine extend _ log id ?_
        rcases left with finished | discarded | ⟨ids, cleared, member⟩
        · rcases List.mem_append.mp finished with earlier | last
          · exact written.left id (.inl earlier)
          · obtain rfl : id = record.id := by simpa using last
            exact wrote
        · exact written.left id (.inr (.inl (by simpa using discarded)))
        · exact written.left id (.inr (.inr ⟨ids, by simpa using cleared, member⟩))
      · intro other settles
        cases verdict.symm.trans settles

/-- A stopped queue has written every record it was given. -/
theorem Written.of_stopped (written : Written s) (tracked : Tracked s) (stopped : Stopped s)
    {thread : Nat} {record : FlushInfo β} (given : .enqueued thread record ∈ s.log) :
    .wrote record.id true ∈ s.log := by
  refine written.left record.id ((tracked.located thread record given).resolve_left ?_)
  simp [State.records, stopped.queue, stopped.worker, Worker.held]

/-- An open queue takes every buffer it is offered. -/
theorem client_delivers {thread : Nat} {now : Int} (opened : Open s)
    (taken : clientStep o s thread now = some s') :
    (s'.enqueuedBuffers = s.enqueuedBuffers ∧
        (s'.clients thread).offered = (s.clients thread).offered) ∨
      ∃ buffer, (s.clients thread).offered = [buffer] ∧ (s'.clients thread).offered = [] ∧
        s'.enqueuedBuffers = s.enqueuedBuffers ++ [buffer] := by
  rcases client_enqueues taken with ⟨buffers, fewer⟩ | appended
  · refine .inl ⟨buffers, ?_⟩
    cases position : s.clients thread with
    | enqueueNow buffer =>
        simp only [clientStep, position, Option.some.injEq] at taken
        subst taken
        simp [Client.offered]
    | enqueueRunning buffer flushTimestamp =>
        simp only [clientStep, position, opened.running, if_true, Option.some.injEq] at taken
        subst taken
        simp [Client.offered]
    | enqueueDraining buffer flushTimestamp =>
        simp only [clientStep, position, opened.draining, Bool.false_eq_true, if_false,
          Option.some.injEq] at taken
        subst taken
        simp [Client.offered]
    | enqueueLock buffer flushTimestamp =>
        simp only [clientStep, position] at taken
        split at taken <;> cases taken
        simp [State.enqueuedBuffers, Event.buffer?] at buffers
    | _ =>
        rw [position] at fewer
        exact List.sublist_nil.mp fewer
  · exact .inr appended

end

end Spoor.FlushQueue.DiskFlushQueue
