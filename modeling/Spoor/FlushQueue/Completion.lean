import Spoor.FlushQueue.Shutdown

/-! # Flush completions

A completion waits in a single slot until the set of marked ids is empty.  The
marks are put on the records found in the deque, so a record in the worker's
hands at that moment is not waited for, and `Clear` takes the mark of a held
record away.  In a run where neither happens a completion only starts when
every record it covers has left.

The slot is also what loses completions: a second `Flush` overwrites the first
completion, and the worker may leave its loop without looking at the slot.
-/

namespace Spoor.FlushQueue.DiskFlushQueue

open Lib.Transition

variable {β κ : Type}

/-- What keeps a critical section from releasing a completion too early: a
    `Flush` with a completion finds no unmarked record it is about in the
    worker's hands, and `Clear` finds no marked one there while a completion
    waits. -/
def State.MarksKept (s : State β κ) : Option (Section κ) → Prop
  | some (.flush (some _) now) => ∀ record ∈ s.worker.held,
      now < record.flushTimestamp ∨ record.id ∈ s.guarded.manualFlushRecordIds
  | some .clear => ∀ record ∈ s.worker.held,
      s.guarded.flushCompletion.isNone ∨ record.id ∉ s.guarded.manualFlushRecordIds
  | _ => True

instance (s : State β κ) : ∀ executed, Decidable (s.MarksKept executed)
  | some (.flush (some _) now) => inferInstanceAs (Decidable (∀ record ∈ s.worker.held,
      now < record.flushTimestamp ∨ record.id ∈ s.guarded.manualFlushRecordIds))
  | some .clear => inferInstanceAs (Decidable (∀ record ∈ s.worker.held,
      s.guarded.flushCompletion.isNone ∨ record.id ∉ s.guarded.manualFlushRecordIds))
  | some .enqueue | some (.flush none _) | none => .isTrue trivial

def KeepsMarks (s : State β κ) (a : Action β κ) : Prop := s.MarksKept (s.criticalSection a)

instance (s : State β κ) (a : Action β κ) : Decidable (KeepsMarks s a) :=
  inferInstanceAs (Decidable (s.MarksKept (s.criticalSection a)))

/-- Every record the completion covers was enqueued. -/
def Completion.Known (log : List (Event β κ)) (completion : Completion κ) : Prop :=
  ∀ id ∈ completion.covers, ∃ thread record, .enqueued thread record ∈ log ∧ record.id = id

theorem Completion.Known.append {log : List (Event β κ)} {completion : Completion κ}
    (known : completion.Known log) (events : List (Event β κ)) :
    completion.Known (log ++ events) := by
  intro id covered
  obtain ⟨thread, record, logged, same⟩ := known id covered
  exact ⟨thread, record, List.mem_append_left _ logged, same⟩

theorem mem_coveredBy {log : List (Event β κ)} {now : Int} {id : Nat} :
    id ∈ coveredBy log now ↔ ∃ thread record, .enqueued thread record ∈ log ∧
      record.flushTimestamp ≤ now ∧ record.id = id := by
  simp only [coveredBy, List.mem_filterMap]
  constructor
  · rintro ⟨e, member, covered⟩
    cases e with
    | enqueued thread record =>
        simp only [Option.ite_none_right_eq_some, Option.some.injEq] at covered
        exact ⟨thread, record, member, covered⟩
    | _ => simp at covered
  · rintro ⟨thread, record, member, early, rfl⟩
    exact ⟨.enqueued thread record, member, by simp [early]⟩

/-- A waiting completion has a mark on every covered record still in the
    system, and a completion about to start covers none. -/
structure Waiting (s : State β κ) : Prop where
  slotKnown : ∀ c, s.guarded.flushCompletion = some c → c.Known s.log
  slotMarked : ∀ c, s.guarded.flushCompletion = some c → ∀ id ∈ c.covers, s.Holds id →
    id ∈ s.guarded.manualFlushRecordIds
  startingKnown : ∀ c, s.worker.starting = some c → c.Known s.log
  startingFree : ∀ c, s.worker.starting = some c → ∀ id ∈ c.covers, ¬ s.Holds id

theorem Waiting.initial : Waiting (initial : State β κ) := by
  constructor <;> simp [DiskFlushQueue.initial, Worker.starting]

/-- Only a fresh id comes into the system. -/
theorem step_holds {o : Options} {s s' : State β κ} {a : Action β κ} {id : Nat}
    (taken : step o s a = some s') (holds : s'.Holds id) :
    s.Holds id ∨ id = s.guarded.nextFlushInfoId := by
  rw [holds_iff_mem_records] at holds ⊢
  cases step_records taken with
  | same events records => exact .inl ((records.map FlushInfo.id).mem_iff.mp holds)
  | enter thread record _ records fresh =>
      rw [(records.map FlushInfo.id).mem_iff, List.map_cons, List.mem_cons] at holds
      exact holds.elim (fun same => .inr (same.trans fresh)) .inl
  | leave record event records =>
      rw [(records.map FlushInfo.id).mem_iff, List.map_cons]
      exact .inl (List.mem_cons_of_mem _ holds)
  | clear records =>
      rw [records, List.map_append]
      exact .inl (List.mem_append_right _ holds)

/-- A known record is only in the system after a step if it was before. -/
theorem Completion.Known.holds {o : Options} {s s' : State β κ} {a : Action β κ}
    {completion : Completion κ} {id : Nat} (known : completion.Known s.log)
    (tracked : Tracked s) (taken : step o s a = some s') (covered : id ∈ completion.covers)
    (holds : s'.Holds id) : s.Holds id := by
  rcases step_holds taken holds with before | fresh
  · exact before
  · obtain ⟨thread, record, logged, same⟩ := known id covered
    have := tracked.below thread record logged
    omega

/-- A held record leaves no copy behind in the deque. -/
theorem Tracked.not_holds_left {s s' : State β κ} {record : FlushInfo β} (tracked : Tracked s)
    (held : s.worker.held = some record) (deque : s'.guarded.queue = s.guarded.queue)
    (unheld : s'.worker.held = none) : ¬ s'.Holds record.id := by
  have distinct := tracked.distinct
  simp only [State.records, held, Option.toList_some, List.map_append, List.map_map,
    List.map_cons, List.map_nil, List.nodup_append, List.mem_singleton, forall_eq] at distinct
  rintro (⟨other, member, same⟩ | ⟨other, still, -⟩)
  · rw [deque] at member
    exact distinct.2.2 _ (List.mem_map_of_mem member) (by simpa using same)
  · simp [unheld] at still

/-- A record in the system that a `Flush` is about has an early timestamp. -/
theorem Tracked.early {s : State β κ} {record : FlushInfo β} {now : Int} (tracked : Tracked s)
    (member : record ∈ s.guarded.queue ∨ s.worker.held = some record)
    (covered : record.id ∈ coveredBy s.log now) : record.flushTimestamp ≤ now := by
  obtain ⟨thread, enqueued, logged, early, same⟩ := mem_coveredBy.mp covered
  have inside : record.stamp ∈ s.records := by
    refine List.mem_map_of_mem (List.mem_append.mpr ?_)
    rcases member with queued | held
    · exact .inl queued
    · exact .inr (by simp [held])
  obtain ⟨thread', enqueued', logged', stamped⟩ := tracked.origin _ inside
  obtain rfl : enqueued' = enqueued := by
    refine tracked.once _ _ _ _ logged' logged ?_
    rw [same, ← stamp_id enqueued', stamped, stamp_id]
  rw [← stamp_flushTimestamp record, ← stamped]
  exact early

/-- A step that leaves both completions where they are keeps `Waiting` if no
    record in the system loses its mark while a completion waits. -/
private theorem Waiting.carry {o : Options} {s s' : State β κ} {a : Action β κ}
    (waiting : Waiting s) (tracked : Tracked s) (taken : step o s a = some s')
    (events : List (Event β κ)) (log : s'.log = s.log ++ events)
    (slot : s'.guarded.flushCompletion = s.guarded.flushCompletion)
    (starting : s'.worker.starting = s.worker.starting)
    (kept : s.guarded.flushCompletion.isSome → ∀ id, s'.Holds id →
      id ∈ s.guarded.manualFlushRecordIds → id ∈ s'.guarded.manualFlushRecordIds) :
    Waiting s' := by
  constructor
  · intro c stored
    rw [log]
    exact (waiting.slotKnown c (slot ▸ stored)).append events
  · intro c stored id covered holds
    rw [slot] at stored
    have before := (waiting.slotKnown c stored).holds tracked taken covered holds
    exact kept (by simp [stored]) id holds (waiting.slotMarked c stored id covered before)
  · intro c starts
    rw [log]
    exact (waiting.startingKnown c (starting ▸ starts)).append events
  · intro c starts id covered holds
    rw [starting] at starts
    exact waiting.startingFree c starts id covered
      ((waiting.startingKnown c starts).holds tracked taken covered holds)

/-- A step that takes no marks away and leaves the completions alone. -/
private theorem Waiting.keep {o : Options} {s s' : State β κ} {a : Action β κ}
    (waiting : Waiting s) (tracked : Tracked s) (taken : step o s a = some s')
    (events : List (Event β κ)) (log : s'.log = s.log ++ events)
    (slot : s'.guarded.flushCompletion = s.guarded.flushCompletion)
    (starting : s'.worker.starting = s.worker.starting)
    (marks : s.guarded.manualFlushRecordIds ⊆ s'.guarded.manualFlushRecordIds) : Waiting s' :=
  waiting.carry tracked taken events log slot starting fun _ _ _ marked => marks marked

/-- The mark a leaving record takes with it is on no record that stays. -/
private theorem Tracked.leave_keeps_marks {s s' : State β κ} {record : FlushInfo β} {id : Nat}
    (tracked : Tracked s) (held : s.worker.held = some record)
    (guarded : s'.guarded = s.guarded.leave record.id) (unheld : s'.worker.held = none)
    (holds : s'.Holds id) (marked : id ∈ s.guarded.manualFlushRecordIds) :
    id ∈ s'.guarded.manualFlushRecordIds := by
  have other : id ≠ record.id := by
    rintro rfl
    exact tracked.not_holds_left held (by rw [guarded]; rfl) unheld holds
  rw [guarded]
  exact Finset.mem_erase.mpr ⟨other, marked⟩

/-- A `Flush` that misses no held record marks every record its completion covers. -/
private theorem flush_marks {s s' : State β κ} {callback : κ} {now : Int} {id : Nat}
    {stored : Option (Completion κ)} (tracked : Tracked s)
    (kept : s.MarksKept (some (.flush (some callback) now)))
    (guarded : s'.guarded = s.guarded.flush stored now) (worker : s'.worker = s.worker)
    (covered : id ∈ coveredBy s.log now) (holds : s'.Holds id) :
    id ∈ s'.guarded.manualFlushRecordIds := by
  rw [guarded]
  rcases holds with ⟨record, member, rfl⟩ | ⟨record, held, rfl⟩
  · have queued : record ∈ s.guarded.queue := by simpa [guarded, Guarded.flush] using member
    refine Finset.mem_union_right _ (List.mem_toFinset.mpr ?_)
    refine List.mem_map_of_mem (List.mem_filter.mpr ⟨queued, ?_⟩)
    simpa using tracked.early (.inl queued) covered
  · rw [worker] at held
    have early := tracked.early (.inr held) covered
    rcases kept record held with late | marked
    · omega
    · exact Finset.mem_union_left _ marked

/-- A `Flush` stores a completion in place of the one before. -/
private theorem Waiting.store {o : Options} {s s' : State β κ} {a : Action β κ} {callback : κ}
    {now : Int} {events : List (Event β κ)} (waiting : Waiting s) (tracked : Tracked s)
    (taken : step o s a = some s') (kept : s.MarksKept (some (.flush (some callback) now)))
    (guarded : s'.guarded = s.guarded.flush (some ⟨callback, coveredBy s.log now⟩) now)
    (worker : s'.worker = s.worker) (log : s'.log = s.log ++ events) : Waiting s' := by
  have stored : s'.guarded.flushCompletion = some ⟨callback, coveredBy s.log now⟩ := by
    rw [guarded]
    rfl
  have known : Completion.Known s.log ⟨callback, coveredBy s.log now⟩ := by
    intro id covered
    obtain ⟨thread, record, logged, -, same⟩ := mem_coveredBy.mp covered
    exact ⟨thread, record, logged, same⟩
  constructor
  · intro c slot
    obtain rfl := Option.some.inj (stored.symm.trans slot)
    rw [log]
    exact known.append _
  · intro c slot id covered holds
    obtain rfl := Option.some.inj (stored.symm.trans slot)
    exact flush_marks tracked kept guarded worker covered holds
  · intro c starts
    rw [log]
    exact (waiting.startingKnown c (worker ▸ starts)).append _
  · intro c starts id covered holds
    rw [worker] at starts
    exact waiting.startingFree c starts id covered
      ((waiting.startingKnown c starts).holds tracked taken covered holds)

/-- The worker takes a completion out of the slot when no record is marked. -/
private theorem Waiting.take {o : Options} {s s' : State β κ} {a : Action β κ}
    {completion : Completion κ} (waiting : Waiting s) (tracked : Tracked s)
    (taken : step o s a = some s') (unmarked : s.guarded.manualFlushRecordIds = ∅)
    (slot : s.guarded.flushCompletion = some completion)
    (emptied : s'.guarded.flushCompletion = none)
    (starting : s'.worker.starting = some completion) (log : s'.log = s.log) : Waiting s' := by
  constructor
  · simp [emptied]
  · simp [emptied]
  · intro c starts
    obtain rfl := Option.some.inj (starting.symm.trans starts)
    rw [log]
    exact waiting.slotKnown _ slot
  · intro c starts id covered holds
    obtain rfl := Option.some.inj (starting.symm.trans starts)
    have before := (waiting.slotKnown _ slot).holds tracked taken covered holds
    have marked := waiting.slotMarked _ slot id covered before
    simp [unmarked] at marked

theorem step_waiting {o : Options} {s s' : State β κ} {a : Action β κ} (waiting : Waiting s)
    (tracked : Tracked s) (keeps : KeepsMarks s a) (taken : step o s a = some s') :
    Waiting s' := by
  have carry := waiting.carry tracked taken
  have keep := waiting.keep tracked taken
  cases step_effect taken with
  | silent events guarded load log =>
      exact keep events log (by rw [guarded]) (congrArg Load.starting load) (by rw [guarded])
  | bypass callback guarded worker log =>
      exact keep _ log (by rw [guarded]) (by rw [worker]) (by rw [guarded])
  | enqueue thread buffer flushTimestamp record _ _ _ guarded worker log =>
      exact keep _ log (by rw [guarded]; rfl) (by rw [worker])
        (by rw [guarded]; exact Finset.Subset.refl _)
  | flush completion now flushes guarded worker log =>
      cases completion with
      | none =>
          exact keep _ log (by rw [guarded]; rfl) (by rw [worker])
            (by rw [guarded]; exact Finset.subset_union_left)
      | some callback =>
          rw [KeepsMarks, flushes] at keeps
          exact waiting.store tracked taken keeps guarded worker log
  | clear clears guarded worker log =>
      refine carry _ log (by rw [guarded]; rfl) (by rw [worker]) ?_
      intro waits id holds marked
      rw [KeepsMarks, clears] at keeps
      rcases holds with ⟨record, member, -⟩ | ⟨record, held, rfl⟩
      · simp [guarded, Guarded.clear] at member
      · rw [worker] at held
        rcases keeps record held with free | unmarked
        · rw [Option.isNone_iff_eq_none] at free
          simp [free] at waits
        · exact absurd marked unmarked
  | pop record rest position front guarded worker log =>
      exact keep [] (by simp [log]) (by rw [guarded]) (by rw [worker, position]; rfl)
        (by rw [guarded])
  | test record now position guarded worker log =>
      have starting : s'.worker.starting = s.worker.starting := by
        rcases worker with after | ⟨after, -⟩ <;> rw [after, position] <;> rfl
      exact keep _ log (by rw [guarded]) starting (by rw [guarded])
  | discard record position guarded worker log =>
      refine carry _ log (by rw [guarded]; rfl) (by rw [worker, position]; rfl) ?_
      intro _ id holds marked
      exact tracked.leave_keeps_marks (by rw [position]; rfl) guarded (by rw [worker]; rfl)
        holds marked
  | write record ok position guarded worker log =>
      exact keep _ log (by rw [guarded]) (by rw [worker, position]; rfl) (by rw [guarded])
  | requeue record position _ guarded log =>
      have unstarting : s'.worker.starting = s.worker.starting := by
        rcases position with ⟨before, after⟩ | ⟨before, -, after⟩ <;> rw [before, after] <;> rfl
      exact keep [] (by simp [log]) (by rw [guarded]; rfl) unstarting
        (by rw [guarded]; exact Finset.Subset.refl _)
  | finish record ok position _ guarded worker log =>
      refine carry _ log (by rw [guarded]; rfl) (by rw [worker, position]; rfl) ?_
      intro _ id holds marked
      exact tracked.leave_keeps_marks (by rw [position]; rfl) guarded (by rw [worker]; rfl)
        holds marked
  | take completion leaving position unmarked slot guarded worker log =>
      exact waiting.take tracked taken unmarked slot (by rw [guarded]) (by rw [worker]; rfl) log
  | start completion leaving position guarded worker log =>
      have none : s'.worker.starting = none := by rw [worker, starting_endIteration]
      constructor
      · intro c slot
        rw [log]
        exact (waiting.slotKnown c (guarded ▸ slot)).append _
      · intro c slot id covered holds
        rw [guarded] at slot ⊢
        exact waiting.slotMarked c slot id covered
          ((waiting.slotKnown c slot).holds tracked taken covered holds)
      · simp [none]
      · simp [none]

theorem run_waiting {o : Options} {labels : List (Action β κ)} {s : State β κ}
    (keeps : Meets (step o) KeepsMarks initial labels)
    (reached : exec (step o) initial labels = some s) : Waiting s := by
  refine (invariant KeepsMarks (fun t => Tracked t ∧ Waiting t)
    ⟨Tracked.initial, Waiting.initial⟩ ?_ keeps reached).2
  rintro t a u ⟨tracked, waiting⟩ keeps taken
  exact ⟨step_tracked tracked taken, step_waiting waiting tracked keeps taken⟩

/-- In a run whose critical sections keep the marks of held records, a
    completion is only started when every record its `Flush` was about has left. -/
theorem completion_waits_for_covered (o : Options) (labels : List (Action β κ)) (s : State β κ)
    (completion : Completion κ) (leaving : Option (FlushInfo β))
    (keeps : Meets (step o) KeepsMarks initial labels)
    (reached : exec (step o) initial labels = some s)
    (starts : s.worker = .startCompletion completion leaving) :
    ∀ id ∈ completion.covers, ¬ s.Holds id ∧ Left s.log id := by
  intro id covered
  have waiting := run_waiting keeps reached
  have starting : s.worker.starting = some completion := by rw [starts]; rfl
  have gone : ¬ s.Holds id := waiting.startingFree completion starting id covered
  obtain ⟨thread, record, logged, rfl⟩ := waiting.startingKnown completion starting id covered
  rcases (run_tracked reached).located thread record logged with inside | left
  · exact absurd (holds_iff_mem_records.mpr inside) gone
  · exact ⟨gone, left⟩

/-- The record is enqueued at 1 and flushed at 2 while it is in the deque. -/
def flushThenWrite : List (Action Unit Unit) :=
  runAndEnqueue ++ flushCall 0 (some ()) 2 ++ List.replicate 7 (Action.worker 3 true)

theorem completion_waits_for_covered_flushThenWrite :
    ∃ s, exec (step logEverything) initial flushThenWrite = some s ∧
      ∃ leaving, s.worker = .startCompletion ⟨(), [0]⟩ leaving ∧ ¬ s.Holds 0 ∧ Left s.log 0 :=
  ⟨_, rfl, _, rfl, completion_waits_for_covered logEverything flushThenWrite _ ⟨(), [0]⟩ _
    (by decide) rfl rfl 0 (by decide)⟩

def retryOnce : Options := { logEverything with maxBufferFlushAttempts := 2 }

/-- The worker pops the record before the `Flush` at 2, its write fails, and the
    record goes back to the deque. -/
def flushWhileHeld : List (Action Unit Unit) :=
  runAndEnqueue ++ List.replicate 2 (Action.worker 1 true) ++ flushCall 0 (some ()) 2 ++
    List.replicate 5 (Action.worker 3 false)

theorem completion_starts_before_retry :
    ∃ s, exec (step retryOnce) initial flushWhileHeld = some s ∧
      s.worker = .startCompletion ⟨(), [0]⟩ none ∧ s.Holds 0 :=
  ⟨_, rfl, rfl, .inl ⟨⟨(), 1, 0, 0, 1⟩, by decide, rfl⟩⟩

end Spoor.FlushQueue.DiskFlushQueue
