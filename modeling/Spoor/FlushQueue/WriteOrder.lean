import Spoor.FlushQueue.Retries

/-! # The order of first writes

Failed records go to the back of the deque that fresh records are appended to.
The records that were never attempted are still in the order of their ids: they
are those with an id from some number on, and leaving out the retried ones, the
worker's hands and the deque hold exactly these in sequence.
-/

namespace Spoor.FlushQueue.DiskFlushQueue

open Lib.MachineInteger Lib.Transition

variable {β κ : Type}

/-- The id a `Write` was called for. -/
def Event.wrote? : Event β κ → Option Nat
  | .wrote id _ => some id
  | _ => none

/-- The records `Write` was called for, each at its first call. -/
def firstWrites (log : List (Event β κ)) : List Nat := (log.filterMap Event.wrote?).eraseDups

theorem firstWrites_unwritten {log events : List (Event β κ)}
    (unwritten : events.filterMap Event.wrote? = []) :
    firstWrites (log ++ events) = firstWrites log := by
  rw [firstWrites, List.filterMap_append, unwritten, List.append_nil, firstWrites]

theorem unwritten_of_idle {events : List (Event β κ)} (idle : ∀ e ∈ events, e.Idle) :
    events.filterMap Event.wrote? = [] := by
  rw [List.filterMap_eq_nil_iff]
  intro e member
  cases e with
  | wrote => exact (idle _ member).elim
  | _ => rfl

theorem eraseDups_concat (ids : List Nat) (id : Nat) :
    (ids ++ [id]).eraseDups =
      if id ∈ ids.eraseDups then ids.eraseDups else ids.eraseDups ++ [id] := by
  rw [List.eraseDups_append]
  by_cases before : id ∈ ids
  · simp [List.removeAll, before]
  · simp [List.removeAll, before, List.eraseDups_cons]

theorem firstWrites_wrote (log : List (Event β κ)) (id : Nat) (ok : Bool) :
    firstWrites (log ++ [.wrote id ok]) =
      if id ∈ firstWrites log then firstWrites log else firstWrites log ++ [id] := by
  rw [firstWrites, List.filterMap_append]
  exact eraseDups_concat _ id

/-- The ids of the records in the system, in the order in which they are due. -/
def State.line (s : State β κ) : List Nat :=
  (s.worker.held.toList ++ s.guarded.queue).map FlushInfo.id

/-- The records below `count` have been written at least once, in order, and
    those from `count` on stand in line in order. -/
structure Ordered (s : State β κ) (count : Nat) : Prop where
  firsts : firstWrites s.log = List.range count
  waiting : s.line.filter (count ≤ ·) =
    List.range' count (s.guarded.nextFlushInfoId - count)
  inUse : count ≤ s.guarded.nextFlushInfoId
  settling : ∀ record ok, s.worker.verdict = some (record, some ok) → record.id < count

theorem Ordered.initial : Ordered (initial : State β κ) 0 := by
  constructor <;> simp [DiskFlushQueue.initial, firstWrites, State.line, Worker.held,
    Worker.verdict]

theorem line_eq {s : State β κ} {held : Option (FlushInfo β)} {queue : List (FlushInfo β)}
    (hands : s.worker.held = held) (deque : s.guarded.queue = queue) :
    s.line = (held.toList ++ queue).map FlushInfo.id := by
  rw [State.line, hands, deque]

/-- The first of a line from `count` on, and what follows it. -/
theorem filter_advance {count length id : Nat} {rest : List Nat} (due : count ≤ id)
    (waiting : (id :: rest).filter (count ≤ ·) = List.range' count length) :
    id = count ∧ 0 < length ∧
      (id :: rest).filter (count + 1 ≤ ·) = List.range' (count + 1) (length - 1) := by
  rw [List.filter_cons_of_pos (by simpa using due)] at waiting
  cases length with
  | zero => simp at waiting
  | succ length =>
      rw [List.range'_succ, List.cons.injEq] at waiting
      obtain ⟨rfl, later⟩ := waiting
      refine ⟨rfl, Nat.succ_pos _, ?_⟩
      calc (id :: rest).filter (id + 1 ≤ ·)
          = rest.filter (id + 1 ≤ ·) := by simp
        _ = (rest.filter (id ≤ ·)).filter (id + 1 ≤ ·) := by
            rw [List.filter_filter]
            refine List.filter_congr fun other _ => ?_
            rw [Bool.eq_iff_iff]
            simp only [Bool.and_eq_true, decide_eq_true_eq]
            omega
        _ = (List.range' (id + 1) length).filter (id + 1 ≤ ·) := by rw [later]
        _ = List.range' (id + 1) length := by
            rw [List.filter_eq_self]
            intro other member
            rw [List.mem_range'_1] at member
            simpa using member.1

section

variable {o : Options} {s s' : State β κ} {a : Action β κ} {count : Nat}

/-- A step that writes nothing for the first time keeps the order if it keeps
    the line from `count` on. -/
theorem Ordered.carry (ordered : Ordered s count)
    (firsts : firstWrites s'.log = firstWrites s.log)
    (line : s'.line.filter (count ≤ ·) = s.line.filter (count ≤ ·))
    (next : s'.guarded.nextFlushInfoId = s.guarded.nextFlushInfoId)
    (settling : ∀ record ok, s'.worker.verdict = some (record, some ok) → record.id < count) :
    Ordered s' count := by
  obtain ⟨first, waiting, inUse, -⟩ := ordered
  exact ⟨firsts.trans first, by rw [line, waiting, next], by rw [next]; exact inUse, settling⟩

theorem Ordered.append (ordered : Ordered s count)
    (line : s'.line = s.line ++ [s.guarded.nextFlushInfoId])
    (next : s'.guarded.nextFlushInfoId = s.guarded.nextFlushInfoId + 1) :
    s'.line.filter (count ≤ ·) =
      List.range' count (s'.guarded.nextFlushInfoId - count) := by
  obtain ⟨-, waiting, inUse, -⟩ := ordered
  rw [line, List.filter_append, waiting, next, Nat.sub_add_comm inUse, List.range'_concat]
  simp [inUse]

/-- The worker writes the record in its hands. -/
theorem Ordered.write (ordered : Ordered s count) {record written : FlushInfo β} {ok : Bool}
    (held : s.worker.held = some record) (queue : s'.guarded.queue = s.guarded.queue)
    (worker : s'.worker = .settle written ok) (same : written.id = record.id)
    (next : s'.guarded.nextFlushInfoId = s.guarded.nextFlushInfoId)
    (log : s'.log = s.log ++ [.wrote record.id ok]) : ∃ count', Ordered s' count' := by
  have before := line_eq held rfl
  have after : s'.line = s.line := by
    rw [before, line_eq (congrArg _ worker) queue]
    simp [Worker.held, same]
  have settling : ∀ limit, record.id < limit → ∀ other answer,
      s'.worker.verdict = some (other, some answer) → other.id < limit := by
    intro limit below other answer verdict
    simp only [worker, Worker.verdict, Option.some.injEq, Prod.mk.injEq] at verdict
    rw [← verdict.1, same]
    exact below
  have firsts := firstWrites_wrote s.log record.id ok
  simp only [← log, ordered.firsts, List.mem_range] at firsts
  by_cases again : record.id < count
  · refine ⟨count, ordered.carry ?_ (by rw [after]) next (settling count again)⟩
    rw [firsts, if_pos again, ordered.firsts]
  · have waiting := ordered.waiting
    rw [before] at waiting
    obtain ⟨first, some, later⟩ := filter_advance (Nat.le_of_not_lt again) waiting
    refine ⟨count + 1, ?_, ?_, by omega, settling (count + 1) (by omega)⟩
    · rw [firsts, if_neg again, first, List.range_succ]
    · rw [after, before, next, ← Nat.sub_sub]
      exact later

theorem step_ordered (flushAll : o.flushAllEvents = true) (ordered : Ordered s count)
    (keeping : s.Keeping) (unclearing : Unclearing s) (taken : step o s a = some s') :
    ∃ count', Ordered s' count' := by
  cases step_passage flushAll keeping taken with
  | still events queue held verdict next log idle =>
      refine ⟨count, ordered.carry ?_ ?_ next ?_⟩
      · rw [log, firstWrites_unwritten (unwritten_of_idle idle)]
      · rw [line_eq held queue, State.line]
      · rw [verdict]
        exact ordered.settling
  | enter thread record fresh _ queue worker next log =>
      refine ⟨count, ?_, ordered.append ?_ next, ?_, ?_⟩
      · rw [← ordered.firsts, log, firstWrites_unwritten rfl]
      · rw [line_eq (congrArg _ worker) queue, ← fresh]
        simp [State.line]
      · rw [next]
        exact Nat.le_succ_of_le ordered.inUse
      · rw [worker]
        exact ordered.settling
  | clear clears =>
      obtain ⟨thread, now, -, position⟩ := criticalSection_eq_clear clears
      exact absurd position (unclearing.clients thread)
  | pop record unheld queue held verdict next log =>
      refine ⟨count, ordered.carry (by rw [log]) ?_ next (by simp [verdict])⟩
      rw [line_eq held rfl, line_eq unheld queue]
      rfl
  | write record ok held _ queue worker next log =>
      exact ordered.write held queue worker rfl next log
  | back record position _ queue unheld unsettled next log =>
      refine ⟨count, ordered.carry (by rw [log]) ?_ next (by simp [unsettled])⟩
      have written : record.id < count := ordered.settling record false (by rw [position]; rfl)
      rw [line_eq unheld queue, line_eq (congrArg _ position) rfl]
      simp [Worker.held, written]
  | finish record ok position _ queue unheld unsettled next log =>
      refine ⟨count, ordered.carry ?_ ?_ next (by simp [unsettled])⟩
      · rw [log, firstWrites_unwritten rfl]
      · have written : record.id < count := ordered.settling record ok (by rw [position]; rfl)
        rw [line_eq unheld queue, line_eq (congrArg _ position) rfl]
        simp [Worker.held, written]

theorem run_ordered {labels : List (Action β κ)} (flushAll : o.flushAllEvents = true)
    (unclearing : ∀ thread, Action.call thread .clear ∉ labels)
    (reached : exec (step o) initial labels = some s) : ∃ count, Ordered s count := by
  refine (invariant (fun _ a => ∀ thread, a ≠ .call thread .clear)
    (fun t => t.Keeping ∧ Unclearing t ∧ ∃ count, Ordered t count)
    ⟨Keeping.initial, Unclearing.initial, 0, Ordered.initial⟩ ?_
    (meets_of_forall (forall_ne_clear unclearing)) reached).2.2
  rintro t b u ⟨keeping, clean, count, ordered⟩ other taken
  exact ⟨step_keeping flushAll keeping taken, step_unclearing clean other taken,
    step_ordered flushAll ordered keeping clean taken⟩

end

/-- In log-everything mode and without `Clear`, the records are written for the
    first time in the order of their ids, and none is left out. -/
theorem first_writes_in_order (o : Options) (labels : List (Action β κ)) (s : State β κ)
    (flushAll : o.flushAllEvents = true) (unclearing : ∀ thread, Action.call thread .clear ∉ labels)
    (reached : exec (step o) initial labels = some s) :
    ∃ count, firstWrites s.log = List.range count := by
  obtain ⟨count, ordered⟩ := run_ordered flushAll unclearing reached
  exact ⟨count, ordered.firsts⟩

/-- Options of a queue in log-everything mode that tries each record twice. -/
def tryTwice : Options := { logEverything with maxBufferFlushAttempts := 2 }

/-- Two records are enqueued, and the first attempt at each of them fails. -/
def failEachOnce : List (Action Unit Unit) :=
  runAndEnqueue ++ enqueueCall 0 () 2 ++ List.replicate 20 (Action.worker 2 false)

theorem first_writes_in_order_failEachOnce :
    ∃ s, exec (step tryTwice) initial failEachOnce = some s ∧
      s.log.filterMap Event.wrote? = [0, 1, 0] ∧
      ∃ count, firstWrites s.log = List.range count := by
  refine ⟨_, rfl, by decide, first_writes_in_order tryTwice failEachOnce _ rfl ?_ rfl⟩
  simp [failEachOnce, runAndEnqueue, runCall, enqueueCall]

end Spoor.FlushQueue.DiskFlushQueue
