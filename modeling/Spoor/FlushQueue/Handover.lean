import Spoor.FlushQueue.Steps

/-! # Who has a buffer

A buffer is offered to `Enqueue`, moved into a record, carried around by the
worker and destroyed with the record, or it is refused and stays with the
caller.  Each step moves buffers between these places and none gets lost.
-/

namespace Spoor.FlushQueue.DiskFlushQueue

variable {β κ : Type}

/-- The record object in the worker's hands, whether or not it still counts. -/
def Worker.carried : Worker β κ → List (FlushInfo β)
  | .retain r | .discard r | .decideFlush r | .requeue r | .write r | .settle r _ | .destroy r =>
      [r]
  | .runCompletion leaving | .startCompletion _ leaving => leaving.toList
  | _ => []

/-- The buffers in the deque and in the worker's hands. -/
def State.buffers (s : State β κ) : List β :=
  (s.guarded.queue ++ s.worker.carried).map FlushInfo.buffer

/-- The buffer a client offers to `Enqueue` and has not been answered about. -/
def Client.offered : Client β κ → List β
  | .enqueueNow buffer | .enqueueRunning buffer _ | .enqueueDraining buffer _
  | .enqueueLock buffer _ => [buffer]
  | _ => []

@[simp] theorem offered_idle : (Client.idle : Client β κ).offered = [] := rfl

/-- The client is outside the queue. -/
def Client.isIdle : Client β κ → Bool
  | .idle => true
  | _ => false

theorem isIdle_iff {position : Client β κ} : position.isIdle = true ↔ position = .idle := by
  cases position <;> simp [Client.isIdle]

/-- The buffers that leave the queue with a client's step: a refused one, or
    those of the records `Clear` swaps out. -/
def State.released (s : State β κ) (thread : Nat) : List β :=
  match s.clients thread with
  | .enqueueRunning buffer _ => if s.running then [] else [buffer]
  | .enqueueDraining buffer _ => if s.draining then [buffer] else []
  | .clearLock => s.guarded.queue.map FlushInfo.buffer
  | _ => []

/-- The buffer the worker destroys with its next step. -/
def Worker.destroyed : Worker β κ → List β
  | .destroy r => [r.buffer]
  | _ => []

section

variable {o : Options} {s s' : State β κ}

theorem client_others {thread : Nat} {now : Int} (taken : clientStep o s thread now = some s')
    {other : Nat} (differ : other ≠ thread) : s'.clients other = s.clients other := by
  cases position : s.clients thread <;> simp only [clientStep, position] at taken
  all_goals
    repeat split at taken
    all_goals cases taken
    all_goals simp [differ]

/-- A client's step keeps every buffer in the queue, in its hands or among those
    that leave. -/
theorem client_buffers {thread : Nat} {now : Int} (taken : clientStep o s thread now = some s') :
    (s'.buffers ++ (s'.clients thread).offered ++ s.released thread).Perm
      (s.buffers ++ (s.clients thread).offered) := by
  cases position : s.clients thread with
  | enqueueLock buffer flushTimestamp =>
      simp only [clientStep, position] at taken
      split at taken <;> cases taken
      simp only [State.buffers, State.released, position, Client.offered, Guarded.enqueue,
        Guarded.record, emit_guarded, emit_worker, emit_clients, goto_guarded, goto_worker,
        goto_clients, Function.update_self, List.map_append, List.map_cons, List.map_nil,
        List.append_nil, List.append_assoc]
      exact List.perm_append_comm.append_left _
  | clearLock =>
      simp only [clientStep, position, Option.some.injEq] at taken
      subst taken
      simp only [State.buffers, State.released, position, Client.offered, Guarded.clear,
        emit_guarded, emit_worker, emit_clients, goto_guarded, goto_worker, goto_clients,
        Function.update_self, List.nil_append, List.map_append, List.append_nil]
      exact List.perm_append_comm
  | runSpawn =>
      simp only [clientStep, position] at taken
      split at taken <;> cases taken
      rename_i absent
      simp [State.buffers, State.released, position, Client.offered, absent, Worker.carried]
  | drainJoin =>
      simp only [clientStep, position] at taken
      split at taken <;> cases taken
      · simp [State.buffers, State.released, position, Client.offered]
      · rename_i finished
        simp [State.buffers, State.released, position, Client.offered, finished, Worker.carried]
  | _ =>
      simp only [clientStep, position] at taken
      repeat split at taken
      all_goals cases taken
      all_goals simp_all [State.buffers, State.released, Client.offered, Guarded.flush]

/-- Inside a method a client offers no other buffer than before. -/
theorem client_offered {thread : Nat} {now : Int} (taken : clientStep o s thread now = some s') :
    (s'.clients thread).offered ⊆ (s.clients thread).offered := by
  cases position : s.clients thread <;> simp only [clientStep, position] at taken
  all_goals
    repeat split at taken
    all_goals cases taken
    all_goals simp [Client.offered]

theorem worker_clients {now : Int} {ok : Bool} (taken : workerStep o s now ok = some s') :
    s'.clients = s.clients := by
  cases position : s.worker <;> simp only [workerStep, position] at taken
  all_goals
    repeat split at taken
    all_goals cases taken
    all_goals rfl

theorem worker_buffers {now : Int} {ok : Bool} (taken : workerStep o s now ok = some s') :
    (s'.buffers ++ s.worker.destroyed).Perm s.buffers := by
  cases position : s.worker with
  | pop =>
      simp only [workerStep, position] at taken
      split at taken <;> cases taken
      · rename_i none
        simp [State.buffers, position, Worker.destroyed, Worker.carried, none]
      · rename_i record rest front
        simp only [State.buffers, position, Worker.destroyed, Worker.carried, front,
          List.append_nil, List.map_append, List.map_cons, List.map_nil]
        exact List.perm_append_singleton _ _
  | requeue record =>
      simp only [workerStep, position] at taken
      split at taken <;> cases taken
      simp [State.buffers, position, Worker.destroyed, Worker.carried, Guarded.emplaceBack]
  | settle record written =>
      simp only [workerStep, position] at taken
      repeat split at taken
      all_goals cases taken
      all_goals simp [State.buffers, position, Worker.destroyed, Worker.carried,
        Guarded.emplaceBack, Guarded.leave]
  | runCompletion leaving =>
      simp only [workerStep, position] at taken
      split at taken <;> cases taken <;> cases leaving
      all_goals
        cases slot : s.guarded.flushCompletion
        all_goals simp [State.buffers, position, Worker.destroyed, Worker.carried,
          Worker.endIteration]
  | startCompletion completion leaving =>
      simp only [workerStep, position, Option.some.injEq] at taken
      subst taken
      cases leaving <;>
        simp [State.buffers, position, Worker.destroyed, Worker.carried, Worker.endIteration]
  | _ =>
      simp only [workerStep, position] at taken
      repeat split at taken
      all_goals cases taken
      all_goals simp_all [State.buffers, Worker.destroyed, Worker.carried, Guarded.leave]

end

end Spoor.FlushQueue.DiskFlushQueue
