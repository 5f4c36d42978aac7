import Spoor.FlushQueue.Steps

/-! # The hand-kept size of the flush queue

`queue_size_` is maintained by hand in five critical sections, two of which run
while a record is in the worker's hands.  It counts the deque and that record.
The exception is `Clear`: it stores zero whether or not the worker holds a
record, so the count is exact along a run exactly when no `Clear` lands between
the worker's pop and its next lock.
-/

namespace Spoor.FlushQueue.DiskFlushQueue

open Lib.MachineInteger Lib.Transition

variable {β κ : Type}

/-- What `queue_size_` is meant to say: it counts the deque and the record in
    the worker's hands, the worker can decrement it without wrapping, and
    `Empty()` means that no record is left anywhere. -/
structure CounterExact (s : State β κ) : Prop where
  size : s.guarded.queueSize =
    s.guarded.queue.length + if s.worker.held.isSome then 1 else 0
  decrement : s.worker.held.isSome → 0 < s.guarded.queueSize
  empty : s.guarded.empty = true ↔ s.guarded.queue = [] ∧ s.worker.held = none

/-- `Clear` only runs while the worker holds no popped record. -/
def ClearsUnheld (s : State β κ) (a : Action β κ) : Prop :=
  s.criticalSection a = some .clear → s.worker.held = none

instance [DecidableEq κ] (s : State β κ) (a : Action β κ) : Decidable (ClearsUnheld s a) :=
  inferInstanceAs (Decidable (_ → s.worker.held = none))

/-- The inductive part of `CounterExact`, with the bound the deque puts on it. -/
structure Counted (s : State β κ) : Prop where
  size : s.guarded.queueSize = s.guarded.queue.length + s.worker.held.toList.length
  bound : s.guarded.queue.length ≤ dequeMaxSize

theorem Counted.initial : Counted (initial : State β κ) where
  size := rfl
  bound := Nat.zero_le _

private theorem length_toList_le (held : Option (FlushInfo β)) : held.toList.length ≤ 1 := by
  cases held <;> simp

private theorem dequeMaxSize_lt : dequeMaxSize + 2 < sizeModulus := by
  simp [dequeMaxSize, sizeModulus]

/-- A held record that leaves takes one off the count of its own. -/
private theorem leave_counted {s s' : State β κ} {record : FlushInfo β} (counted : Counted s)
    (held : s.worker.held = some record) (guarded : s'.guarded = s.guarded.leave record.id)
    (unheld : s'.worker.held = none) : Counted s' := by
  have size : s.guarded.queueSize = s.guarded.queue.length + 1 := by
    simpa [held] using counted.size
  have bound := counted.bound
  have range := dequeMaxSize_lt
  constructor
  · rw [guarded, unheld]
    simp only [Guarded.leave, Option.toList_none, List.length_nil, Nat.add_zero]
    rw [subSize_of_le (by omega) (by omega)]
    omega
  · rw [guarded]
    exact bound

theorem step_counted {o : Options} {s s' : State β κ} {a : Action β κ} (counted : Counted s)
    (conforms : ClearsUnheld s a) (taken : step o s a = some s') : Counted s' := by
  have atMostOne := length_toList_le s.worker.held
  have range := dequeMaxSize_lt
  obtain ⟨size, bound⟩ := counted
  cases step_effect taken with
  | silent events guarded load =>
      have held : s'.worker.held = s.worker.held := congrArg Load.held load
      exact ⟨by rw [guarded, held, size], by rw [guarded]; exact bound⟩
  | bypass callback guarded worker =>
      exact ⟨by rw [guarded, worker, size], by rw [guarded]; exact bound⟩
  | enqueue thread buffer flushTimestamp record _ _ room guarded worker =>
      constructor
      · rw [guarded, worker]
        simp only [Guarded.enqueue, List.length_append, List.length_singleton]
        rw [addSize_of_lt (by omega)]
        omega
      · rw [guarded]
        simp only [Guarded.enqueue, List.length_append, List.length_singleton]
        omega
  | flush completion now _ guarded worker =>
      exact ⟨by rw [guarded, worker]; exact size, by rw [guarded]; exact bound⟩
  | clear clears guarded worker =>
      constructor
      · rw [guarded, worker, conforms clears]
        rfl
      · rw [guarded]
        exact Nat.zero_le _
  | pop record rest position front guarded worker =>
      rw [position, front] at size
      rw [front] at bound
      simp only [Worker.held, Option.toList_none, List.length_cons, List.length_nil] at size bound
      constructor
      · rw [guarded, worker]
        simpa only [Worker.held, Option.toList_some, List.length_singleton] using size
      · rw [guarded]
        simp only
        omega
  | test record now position guarded worker =>
      have held : s'.worker.held = s.worker.held := by
        rcases worker with after | ⟨after, -⟩ <;> rw [after, position] <;> rfl
      exact ⟨by rw [guarded, held, size], by rw [guarded]; exact bound⟩
  | discard record position guarded worker =>
      exact leave_counted ⟨size, bound⟩ (by rw [position]; rfl) guarded (by rw [worker]; rfl)
  | write record ok position guarded worker =>
      exact ⟨by rw [guarded, worker, size, position]; rfl, by rw [guarded]; exact bound⟩
  | requeue record position room guarded =>
      have held : s.worker.held = some record := by
        rcases position with ⟨before, -⟩ | ⟨before, -⟩ <;> rw [before] <;> rfl
      have unheld : s'.worker.held = none := by
        rcases position with ⟨-, after⟩ | ⟨-, -, after⟩ <;> rw [after] <;> rfl
      rw [held] at size
      constructor
      · rw [guarded, unheld, Guarded.emplaceBack, List.length_append]
        exact size
      · rw [guarded, Guarded.emplaceBack, List.length_append, List.length_singleton]
        omega
  | finish record ok position _ guarded worker =>
      exact leave_counted ⟨size, bound⟩ (by rw [position]; rfl) guarded (by rw [worker]; rfl)
  | take completion leaving position _ _ guarded worker =>
      exact ⟨by rw [guarded, worker, size, position]; rfl, by rw [guarded]; exact bound⟩
  | start completion leaving position guarded worker =>
      refine ⟨?_, by rw [guarded]; exact bound⟩
      rw [guarded, worker, size, position, held_endIteration]
      rfl

theorem run_counted {o : Options} {labels : List (Action β κ)} {s : State β κ}
    (meets : Meets (step o) ClearsUnheld initial labels)
    (reached : exec (step o) initial labels = some s) : Counted s :=
  invariant ClearsUnheld Counted Counted.initial
    (fun _ _ _ counted conforms taken => step_counted counted conforms taken) meets reached

theorem Counted.exact {s : State β κ} (counted : Counted s) : CounterExact s := by
  obtain ⟨size, -⟩ := counted
  cases held : s.worker.held with
  | none =>
      simp only [held, Option.toList_none, List.length_nil, Nat.add_zero] at size
      exact ⟨by simp [held, size], by simp [held], by simp [held, Guarded.empty, size]⟩
  | some record =>
      simp only [held, Option.toList_some, List.length_singleton] at size
      exact ⟨by simp [held, size], by simp [size], by simp [held, Guarded.empty, size]⟩

/-- Along a run, the counter is exact in every state passed through if and only
    if every `Clear` of the run lands while the worker holds no record. -/
theorem counter_exact_iff (o : Options) (labels : List (Action β κ)) (final : State β κ)
    (completes : exec (step o) initial labels = some final) :
    (∀ before after s, labels = before ++ after → exec (step o) initial before = some s →
        CounterExact s) ↔
      Meets (step o) ClearsUnheld initial labels := by
  constructor
  · intro exactly before a after s split reached clears
    obtain ⟨s', taken⟩ : ∃ s', step o s a = some s' := by
      rw [split, exec_append, reached] at completes
      cases taken : step o s a with
      | none => simp [taken] at completes
      | some s' => exact ⟨s', rfl⟩
    have cleared : CounterExact s' :=
      exactly (before ++ [a]) after s' (by simp [split]) (exec_concat.mpr ⟨s, reached, taken⟩)
    obtain ⟨thread, now, rfl, position⟩ := criticalSection_eq_clear clears
    simp only [step, clientStep, position, Option.some.injEq] at taken
    subst taken
    cases held : s.worker.held with
    | none => rfl
    | some record => simpa [held, Guarded.clear] using cleared.size
  · intro meets before after s split reached
    subst split
    exact (run_counted meets.take reached).exact

/-- Options of a queue in log-everything mode that gives up after one attempt. -/
def logEverything : Options where
  bufferRetentionDuration := 0
  sessionId := 0
  processId := 0
  maxBufferFlushAttempts := 1
  flushAllEvents := true
  threadIdHash := fun thread => BitVec.ofNat 64 thread

def runAndEnqueue : List (Action Unit Unit) := runCall 0 ++ enqueueCall 0 () 1

/-- One record is enqueued and popped, `Clear` runs, and the worker then writes
    the record it still holds and counts it out. -/
def clearBetweenPopAndFinish : List (Action Unit Unit) :=
  runAndEnqueue ++ List.replicate 2 (Action.worker 1 true) ++ clearCall 0 ++
    List.replicate 4 (Action.worker 1 true)

theorem counter_exact_iff_runAndEnqueue :
    ∃ final, exec (step logEverything) initial runAndEnqueue = some final ∧
      ((∀ before after s, runAndEnqueue = before ++ after →
          exec (step logEverything) initial before = some s → CounterExact s) ↔
        Meets (step logEverything) ClearsUnheld initial runAndEnqueue) :=
  ⟨_, rfl, counter_exact_iff _ _ _ rfl⟩

/-- The decrement after such a `Clear` wraps: the queue is empty, nothing is
    held, and the counter shows the largest size. -/
theorem clear_wraps_counter :
    ∃ s, exec (step logEverything) initial clearBetweenPopAndFinish = some s ∧
      s.guarded.queue = [] ∧ s.worker.held = none ∧
      s.guarded.queueSize = sizeModulus - 1 ∧ ¬ CounterExact s := by
  refine ⟨_, rfl, rfl, rfl, rfl, ?_⟩
  intro counter
  exact absurd counter.size (by decide)

end Spoor.FlushQueue.DiskFlushQueue
