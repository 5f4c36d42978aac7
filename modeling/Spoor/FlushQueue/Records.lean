import Mathlib.Data.List.Perm.Basic
import Mathlib.Data.List.Nodup
import Spoor.FlushQueue.Steps

/-! # Records on their way through the queue

Between `Enqueue` and its leaving, a record is in the deque or in the worker's
hands, and only its count of remaining attempts changes.  This module follows
records by id: ids are handed out once, a record in the system is the one that
was enqueued under its id, and a record that is no longer in the system left it
through a logged event.
-/

namespace Spoor.FlushQueue.DiskFlushQueue

open Lib.Transition

variable {β κ : Type}

/-- The part of a record that no step changes. -/
def FlushInfo.stamp (record : FlushInfo β) : FlushInfo β :=
  { record with remainingFlushAttempts := 0 }

@[simp] theorem stamp_id (record : FlushInfo β) : record.stamp.id = record.id := rfl
@[simp] theorem stamp_flushTimestamp (record : FlushInfo β) :
    record.stamp.flushTimestamp = record.flushTimestamp := rfl

/-- The records in the system: those in the deque and the one the worker holds. -/
def State.records (s : State β κ) : List (FlushInfo β) :=
  (s.guarded.queue ++ s.worker.held.toList).map FlushInfo.stamp

/-- The record with this id is in the deque or in the worker's hands. -/
def State.Holds (s : State β κ) (id : Nat) : Prop :=
  (∃ record ∈ s.guarded.queue, record.id = id) ∨
    ∃ record, s.worker.held = some record ∧ record.id = id

theorem holds_iff_mem_records {s : State β κ} {id : Nat} :
    s.Holds id ↔ id ∈ s.records.map FlushInfo.id := by
  cases held : s.worker.held <;>
    simp [State.Holds, State.records, held, Function.comp_def, eq_comm (a := id)]

/-- The log says that the record left the system. -/
def Left (log : List (Event β κ)) (id : Nat) : Prop :=
  .finished id ∈ log ∨ .discarded id ∈ log ∨ ∃ ids, .cleared ids ∈ log ∧ id ∈ ids

theorem Left.append {log : List (Event β κ)} {id : Nat} (left : Left log id)
    (events : List (Event β κ)) : Left (log ++ events) id := by
  rcases left with h | h | ⟨ids, h, member⟩
  · exact .inl (List.mem_append_left _ h)
  · exact .inr (.inl (List.mem_append_left _ h))
  · exact .inr (.inr ⟨ids, List.mem_append_left _ h, member⟩)

/-- Events by which no record enters or leaves the system. -/
def Event.Passing : Event β κ → Prop
  | .enqueued _ _ | .finished _ | .discarded _ | .cleared _ => False
  | _ => True

theorem Event.Control.passing {e : Event β κ} (control : e.Control) : e.Passing := by
  cases e <;> simp_all [Event.Control, Event.Passing]

/-- What a step does to the set of records in the system. -/
inductive RecordEffect (s : State β κ) (a : Action β κ) (s' : State β κ) : Prop where
  | same (events : List (Event β κ)) :
      s'.records.Perm s.records → s'.guarded.nextFlushInfoId = s.guarded.nextFlushInfoId →
      s'.log = s.log ++ events → (∀ e ∈ events, e.Passing) → RecordEffect s a s'
  | enter (thread : Nat) (record : FlushInfo β) :
      s.criticalSection a = some .enqueue → s'.records.Perm (record.stamp :: s.records) →
      record.id = s.guarded.nextFlushInfoId →
      s'.guarded.nextFlushInfoId = s.guarded.nextFlushInfoId + 1 →
      s'.log = s.log ++ [.enqueued thread record] → RecordEffect s a s'
  | leave (record : FlushInfo β) (event : Event β κ) :
      s.records.Perm (record :: s'.records) →
      s'.guarded.nextFlushInfoId = s.guarded.nextFlushInfoId →
      event = .discarded record.id ∨ event = .finished record.id →
      s'.log = s.log ++ [event] → RecordEffect s a s'
  | clear :
      s.records = s.guarded.queue.map FlushInfo.stamp ++ s'.records →
      s'.guarded.nextFlushInfoId = s.guarded.nextFlushInfoId →
      s'.log = s.log ++ [.cleared (s.guarded.queue.map FlushInfo.id)] → RecordEffect s a s'

private theorem records_of {s : State β κ} {queue : List (FlushInfo β)}
    {held : Option (FlushInfo β)} (deque : s.guarded.queue = queue)
    (hands : s.worker.held = held) :
    s.records = (queue ++ held.toList).map FlushInfo.stamp := by
  rw [State.records, deque, hands]

/-- Neither the deque nor the worker's hands change. -/
private theorem records_kept {s s' : State β κ} (deque : s'.guarded.queue = s.guarded.queue)
    (hands : s'.worker.held = s.worker.held) : s'.records.Perm s.records := by
  rw [records_of deque hands, State.records]

/-- The worker lets go of the record in its hands. -/
private theorem records_left {s s' : State β κ} {record : FlushInfo β}
    (deque : s'.guarded.queue = s.guarded.queue) (before : s.worker.held = some record)
    (after : s'.worker.held = none) : s.records.Perm (record.stamp :: s'.records) := by
  rw [records_of deque after, State.records, before]
  simp only [Option.toList_some, Option.toList_none, List.append_nil, List.map_append,
    List.map_cons, List.map_nil]
  exact List.perm_append_singleton _ _

theorem step_records {o : Options} {s s' : State β κ} {a : Action β κ}
    (taken : step o s a = some s') : RecordEffect s a s' := by
  cases step_effect taken with
  | silent events guarded load log control =>
      exact .same events (records_kept (congrArg _ guarded) (congrArg Load.held load))
        (by rw [guarded]) log (fun e member => (control e member).passing)
  | bypass callback guarded worker log =>
      exact .same _ (records_kept (congrArg _ guarded) (congrArg _ worker)) (by rw [guarded]) log
        (by simp [Event.Passing])
  | enqueue thread buffer flushTimestamp record appends built _ guarded worker log =>
      refine .enter thread record appends ?_ (by rw [built]; rfl) (by rw [guarded]; rfl) log
      rw [records_of (congrArg _ guarded) (congrArg _ worker)]
      simp only [Guarded.enqueue, List.map_append, List.map_cons, State.records,
        List.append_assoc, List.singleton_append]
      exact List.perm_middle
  | flush completion now _ guarded worker log =>
      refine .same _ (records_kept (by rw [guarded]; rfl) (congrArg _ worker))
        (by rw [guarded]; rfl) log ?_
      cases completion <;> simp [Event.Passing]
  | clear _ guarded worker log =>
      refine .clear ?_ (by rw [guarded]; rfl) log
      rw [records_of (congrArg _ guarded) (congrArg _ worker)]
      simp [Guarded.clear, State.records]
  | pop record rest position front guarded worker log =>
      refine .same [] ?_ (by rw [guarded]) (by simp [log]) (by simp)
      rw [records_of (congrArg _ guarded) (congrArg _ worker), State.records, front, position]
      simp only [Worker.held, Option.toList_some, Option.toList_none, List.append_nil,
        List.map_append, List.map_cons, List.map_nil]
      exact List.perm_append_singleton _ _
  | test record now position guarded worker log =>
      have held : s'.worker.held = s.worker.held := by
        rcases worker with after | ⟨after, -⟩ <;> rw [after, position] <;> rfl
      exact .same _ (records_kept (congrArg _ guarded) held) (by rw [guarded]) log
        (by simp [Event.Passing])
  | discard record position guarded worker log =>
      apply RecordEffect.leave record.stamp _ _ (by rw [guarded]; rfl) (.inl rfl) log
      exact records_left (by rw [guarded]; rfl) (by rw [position]; rfl) (by rw [worker]; rfl)
  | write record ok position guarded worker log =>
      refine .same _ ?_ (by rw [guarded]) log (by simp [Event.Passing])
      rw [records_of (congrArg _ guarded) (congrArg _ worker), State.records, position]
      simp only [Worker.held, Option.toList_some, List.map_append, List.map_cons, List.map_nil]
      exact .refl _
  | requeue record position _ guarded log =>
      have held : s.worker.held = some record := by
        rcases position with ⟨before, -⟩ | ⟨before, -⟩ <;> rw [before] <;> rfl
      have unheld : s'.worker.held = none := by
        rcases position with ⟨-, after⟩ | ⟨-, -, after⟩ <;> rw [after] <;> rfl
      refine .same [] ?_ (by rw [guarded]; rfl) (by simp [log]) (by simp)
      rw [records_of (congrArg _ guarded) unheld, State.records, held]
      simp [Guarded.emplaceBack]
  | finish record ok position _ guarded worker log =>
      apply RecordEffect.leave record.stamp _ _ (by rw [guarded]; rfl) (.inr rfl) log
      exact records_left (by rw [guarded]; rfl) (by rw [position]; rfl) (by rw [worker]; rfl)
  | take completion leaving position _ _ guarded worker log =>
      have held : s'.worker.held = s.worker.held := by
        rw [worker, position]
        rfl
      exact .same [] (records_kept (by rw [guarded]) held) (by rw [guarded]) (by simp [log])
        (by simp)
  | start completion leaving position guarded worker log =>
      have held : s'.worker.held = s.worker.held := by
        rw [worker, position, held_endIteration]
        rfl
      exact .same _ (records_kept (congrArg _ guarded) held) (by rw [guarded]) log
        (by simp [Event.Passing])

/-- A record is logged as enqueued by the client that appends it. -/
theorem step_enqueued {o : Options} {s s' : State β κ} {a : Action β κ} {thread : Nat}
    {record : FlushInfo β} (taken : step o s a = some s')
    (logged : .enqueued thread record ∈ s'.log) :
    .enqueued thread record ∈ s.log ∨ ∃ now buffer flushTimestamp, a = .client thread now ∧
      s.clients thread = .enqueueLock buffer flushTimestamp ∧
      record = s.guarded.record o thread buffer flushTimestamp := by
  cases step_records taken with
  | same events _ _ log passing =>
      rw [log, List.mem_append] at logged
      exact .inl (logged.resolve_right (passing _))
  | leave _ event _ _ kind log =>
      rw [log] at logged
      rcases kind with rfl | rfl <;> exact .inl (by simpa using logged)
  | clear _ _ log =>
      rw [log] at logged
      exact .inl (by simpa using logged)
  | enter _ _ appends _ _ _ _ =>
      obtain ⟨caller, now, buffer, flushTimestamp, rfl, position⟩ :=
        criticalSection_eq_enqueue appends
      simp only [step, clientStep, position] at taken
      split at taken
      · cases taken
        simp only [emit_log, goto_log, List.mem_append, List.mem_singleton,
          Event.enqueued.injEq] at logged
        rcases logged with before | ⟨rfl, rfl⟩
        · exact .inl before
        · exact .inr ⟨now, buffer, flushTimestamp, rfl, position, rfl⟩
      · cases taken

/-- The identity of records: ids are fresh and distinct, a record in the system
    is the one enqueued under its id, and an enqueued record is in the system
    or has left it. -/
structure Tracked (s : State β κ) : Prop where
  distinct : (s.records.map FlushInfo.id).Nodup
  origin : ∀ record ∈ s.records, ∃ thread enqueued,
    .enqueued thread enqueued ∈ s.log ∧ enqueued.stamp = record
  below : ∀ thread record, .enqueued thread record ∈ s.log →
    record.id < s.guarded.nextFlushInfoId
  once : ∀ thread record thread' record', .enqueued thread record ∈ s.log →
    .enqueued thread' record' ∈ s.log → record.id = record'.id → record = record'
  located : ∀ thread record, .enqueued thread record ∈ s.log →
    record.id ∈ s.records.map FlushInfo.id ∨ Left s.log record.id

theorem Tracked.initial : Tracked (initial : State β κ) where
  distinct := by simp [State.records, DiskFlushQueue.initial, Worker.held]
  origin := by simp [State.records, DiskFlushQueue.initial, Worker.held]
  below := by simp [DiskFlushQueue.initial]
  once := by simp [DiskFlushQueue.initial]
  located := by simp [DiskFlushQueue.initial]

/-- A record in the system carries an id that was handed out before. -/
theorem Tracked.id_lt {s : State β κ} (tracked : Tracked s) {record : FlushInfo β}
    (member : record ∈ s.records) : record.id < s.guarded.nextFlushInfoId := by
  obtain ⟨thread, enqueued, logged, rfl⟩ := tracked.origin record member
  exact tracked.below thread enqueued logged

/-- The record in the worker's hands is not in the deque as well. -/
theorem Tracked.held_apart {s : State β κ} (tracked : Tracked s) {record queued : FlushInfo β}
    (held : s.worker.held = some record) (member : queued ∈ s.guarded.queue) :
    record.id ≠ queued.id := by
  have distinct := tracked.distinct
  simp only [State.records, held, Option.toList_some, List.map_append, List.map_map,
    List.nodup_append] at distinct
  intro same
  exact distinct.2.2 queued.id (List.mem_map_of_mem member) record.id (by simp) same.symm

/-- A step that enqueues nothing keeps everything but the whereabouts of records. -/
private theorem Tracked.of_fewer {s s' : State β κ} (tracked : Tracked s)
    (events : List (Event β κ)) (log : s'.log = s.log ++ events)
    (enqueuesNone : ∀ thread record, .enqueued thread record ∉ events)
    (next : s'.guarded.nextFlushInfoId = s.guarded.nextFlushInfoId)
    (fewer : ∀ record ∈ s'.records, record ∈ s.records)
    (distinct : (s'.records.map FlushInfo.id).Nodup)
    (located : ∀ record : FlushInfo β, record.id ∈ s.records.map FlushInfo.id →
      record.id ∈ s'.records.map FlushInfo.id ∨ Left s'.log record.id) : Tracked s' := by
  have logged_iff : ∀ {thread record}, .enqueued thread record ∈ s'.log ↔
      .enqueued thread record ∈ s.log := by
    intro thread record
    rw [log, List.mem_append]
    exact or_iff_left (enqueuesNone thread record)
  constructor
  · exact distinct
  · intro record member
    obtain ⟨thread, enqueued, logged, same⟩ := tracked.origin record (fewer record member)
    exact ⟨thread, enqueued, logged_iff.mpr logged, same⟩
  · simpa only [logged_iff, next] using tracked.below
  · simpa only [logged_iff] using tracked.once
  · intro thread record logged
    rcases tracked.located thread record (logged_iff.mp logged) with inside | left
    · exact located record inside
    · exact .inr (log ▸ left.append events)

theorem step_tracked {o : Options} {s s' : State β κ} {a : Action β κ} (tracked : Tracked s)
    (taken : step o s a = some s') : Tracked s' := by
  cases step_records taken with
  | same events records next log passing =>
      have ids := records.map FlushInfo.id
      refine tracked.of_fewer events log (fun _ _ member => passing _ member) next
        (fun _ => records.mem_iff.mp) (ids.nodup_iff.mpr tracked.distinct) ?_
      intro record inside
      exact .inl (ids.mem_iff.mpr inside)
  | leave record event records next kind log =>
      have ids := records.map FlushInfo.id
      refine tracked.of_fewer [event] log ?_ next
        (fun _ member => records.mem_iff.mpr (List.mem_cons_of_mem _ member))
        (List.nodup_cons.mp (ids.nodup_iff.mp tracked.distinct)).2 ?_
      · rcases kind with rfl | rfl <;> simp
      · intro other inside
        rw [ids.mem_iff, List.map_cons, List.mem_cons] at inside
        rcases inside with same | inside
        · rw [log, same]
          refine .inr ?_
          rcases kind with rfl | rfl <;> simp [Left]
        · exact .inl inside
  | clear records next log =>
      refine tracked.of_fewer _ log (by simp) next
        (fun _ member => records ▸ List.mem_append_right _ member) ?_ ?_
      · have distinct := tracked.distinct
        rw [records, List.map_append] at distinct
        exact (List.nodup_append.mp distinct).2.1
      · intro other inside
        rw [records, List.map_append, List.mem_append] at inside
        rcases inside with cleared | inside
        · refine .inr (.inr (.inr ⟨s.guarded.queue.map FlushInfo.id, by simp [log], ?_⟩))
          simpa using cleared
        · exact .inl inside
  | enter thread record _ records fresh next log =>
      have ids := records.map FlushInfo.id
      have logged_iff : ∀ {thread' record'}, .enqueued thread' record' ∈ s'.log ↔
          .enqueued thread' record' ∈ s.log ∨ thread' = thread ∧ record' = record := by
        simp [log]
      have unused : ∀ thread' record', .enqueued thread' record' ∈ s.log →
          record'.id ≠ record.id := by
        intro thread' record' logged
        have := tracked.below thread' record' logged
        omega
      constructor
      · rw [ids.nodup_iff, List.map_cons, List.nodup_cons]
        refine ⟨?_, tracked.distinct⟩
        intro member
        obtain ⟨other, inside, same⟩ := List.mem_map.mp member
        have := tracked.id_lt inside
        simp only [stamp_id] at same
        omega
      · intro other member
        rcases List.mem_cons.mp (records.mem_iff.mp member) with rfl | inside
        · exact ⟨thread, record, logged_iff.mpr (.inr ⟨rfl, rfl⟩), rfl⟩
        · obtain ⟨thread', enqueued, logged, same⟩ := tracked.origin other inside
          exact ⟨thread', enqueued, logged_iff.mpr (.inl logged), same⟩
      · intro thread' record' logged
        rcases logged_iff.mp logged with earlier | ⟨-, rfl⟩
        · have := tracked.below thread' record' earlier
          omega
        · omega
      · intro thread₁ record₁ thread₂ record₂ first second same
        rcases logged_iff.mp first with first | ⟨-, rfl⟩ <;>
          rcases logged_iff.mp second with second | ⟨-, rfl⟩
        · exact tracked.once _ _ _ _ first second same
        · exact absurd same (unused _ _ first)
        · exact absurd same.symm (unused _ _ second)
        · rfl
      · intro thread' record' logged
        rw [ids.mem_iff, List.map_cons, List.mem_cons]
        rcases logged_iff.mp logged with earlier | ⟨-, rfl⟩
        · rcases tracked.located thread' record' earlier with inside | left
          · exact .inl (.inr inside)
          · exact .inr (log ▸ left.append _)
        · exact .inl (.inl rfl)

theorem run_tracked {o : Options} {labels : List (Action β κ)} {s : State β κ}
    (reached : exec (step o) initial labels = some s) : Tracked s :=
  invariant_always Tracked Tracked.initial
    (fun _ _ _ tracked taken => step_tracked tracked taken) reached

end Spoor.FlushQueue.DiskFlushQueue
