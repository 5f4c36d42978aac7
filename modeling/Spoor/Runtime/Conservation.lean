import Mathlib.Algebra.BigOperators.Fin
import Mathlib.Tactic.Abel
import Spoor.Buffer.Accounting
import Spoor.Runtime.Steps

/-! # The slices of the manager's pool

Every slice the pool lent is in a logger's buffer, on its way into the queue, in
the queue or its worker's hands, or about to be given back.  Steps move slices
between these places; only a push borrows one and only the end of a pointer
returns one.
-/

namespace Spoor.Runtime.RuntimeManager

open Buffer EventLogging FlushQueue Lib.Transition

variable {n : Nat} {α κ : Type}

def ptrTokens (ptrs : List (SlicePtr α)) : Multiset Token := ptrs.map OwnedSlicePtr.token

def bufferTokens (buffers : List (CircularSliceBuffer Owner α)) : Multiset Token :=
  ptrTokens (buffers.flatMap CircularSliceBuffer.slices)

@[simp] theorem ptrTokens_nil : ptrTokens ([] : List (SlicePtr α)) = 0 := rfl

@[simp] theorem ptrTokens_cons (ptr : SlicePtr α) (rest : List (SlicePtr α)) :
    ptrTokens (ptr :: rest) = ptr.token ::ₘ ptrTokens rest := rfl

@[simp] theorem bufferTokens_nil : bufferTokens ([] : List (CircularSliceBuffer Owner α)) = 0 := rfl

theorem bufferTokens_append (left right : List (CircularSliceBuffer Owner α)) :
    bufferTokens (left ++ right) = bufferTokens left + bufferTokens right := by
  simp only [bufferTokens, ptrTokens, List.flatMap_append, List.map_append, Multiset.coe_add]

theorem bufferTokens_perm {left right : List (CircularSliceBuffer Owner α)}
    (same : left.Perm right) : bufferTokens left = bufferTokens right :=
  Multiset.coe_eq_coe.mpr ((same.flatMap_right _).map _)

def loggerTokens (loggers : Fin n → ThreadLocal α) : Multiset Token :=
  ∑ owner, ptrTokens (loggers owner).slices

def releasingTokens (releasing : Fin n → List (SlicePtr α)) : Multiset Token :=
  ∑ thread, ptrTokens (releasing thread)

def offeredTokens (n : Nat)
    (clients : Nat → DiskFlushQueue.Client (CircularSliceBuffer Owner α) κ) : Multiset Token :=
  ∑ thread : Fin n, bufferTokens (clients thread).offered

namespace System

variable (s : System n α κ)

/-- The slices in the hands of a logger, a thread, the queue or its worker. -/
def tokens : Multiset Token :=
  loggerTokens s.loggers + releasingTokens s.releasing + offeredTokens n s.queue.clients +
    bufferTokens s.queue.buffers + ptrTokens s.workerReleasing

/-- The pool accounts for the slices that are out, and none is out without a pool. -/
def Conserved : Prop :=
  match s.pool with
  | some pool => pool.Accounts s.tokens
  | none => s.tokens = 0

end System

/-- A sum in which one summand changes. -/
theorem sum_change (before after : Fin n → Multiset Token) (place : Fin n)
    (same : ∀ other, other ≠ place → after other = before other) :
    ∑ other, after other + before place = ∑ other, before other + after place := by
  have rest : ∑ other ∈ Finset.univ.erase place, after other =
      ∑ other ∈ Finset.univ.erase place, before other :=
    Finset.sum_congr rfl fun other member => same other (Finset.ne_of_mem_erase member)
  rw [← Finset.add_sum_erase _ after (Finset.mem_univ place),
    ← Finset.add_sum_erase _ before (Finset.mem_univ place), rest]
  abel

theorem slices_setPool (logger : EventLogger Owner α) (attached notified : Bool) :
    (ThreadLocal.alive (logger.setPool attached).1 notified).slices = [] := by
  cases attached <;> rfl

section

variable {o : Options α} {s s' : System n α κ}

/-- Where no slice is borrowed or returned, conservation only depends on which
    slices are out. -/
theorem System.Conserved.same (conserved : s.Conserved) (pool : s'.pool = s.pool)
    (tokens : s'.tokens = s.tokens) : s'.Conserved := by
  unfold System.Conserved at conserved ⊢
  rw [pool, tokens]
  exact conserved

theorem tokens_goto (thread : Fin n) (code : List (Instruction n α)) :
    (s.goto thread code).tokens = s.tokens := rfl

theorem loggerTokens_update (loggers : Fin n → ThreadLocal α) (owner : Fin n)
    (after : ThreadLocal α) :
    loggerTokens (Function.update loggers owner after) + ptrTokens (loggers owner).slices =
      loggerTokens loggers + ptrTokens after.slices := by
  have change := sum_change (fun owner => ptrTokens (loggers owner).slices)
    (fun other => ptrTokens (Function.update loggers owner after other).slices) owner
    (fun other differ => by simp only [Function.update_of_ne differ])
  simp only [Function.update_self] at change
  exact change

theorem releasingTokens_update (releasing : Fin n → List (SlicePtr α)) (thread : Fin n)
    (after : List (SlicePtr α)) :
    releasingTokens (Function.update releasing thread after) + ptrTokens (releasing thread) =
      releasingTokens releasing + ptrTokens after := by
  have change := sum_change (fun thread => ptrTokens (releasing thread))
    (fun other => ptrTokens (Function.update releasing thread after other)) thread
    (fun other differ => by simp only [Function.update_of_ne differ])
  simp only [Function.update_self] at change
  exact change

/-- The slices of a replaced logger are not lost, and a replacement without
    slices brings none. -/
theorem tokens_replaceLogger {thread owner : Fin n} {after : ThreadLocal α}
    (released : s.releasing thread = []) (empty : after.slices = []) :
    (s.replaceLogger thread owner after).tokens = s.tokens := by
  have loggers := loggerTokens_update s.loggers owner after
  have releasing := releasingTokens_update s.releasing thread (s.loggers owner).slices
  rw [released, ptrTokens_nil, Multiset.add_zero] at releasing
  rw [empty, ptrTokens_nil, Multiset.add_zero] at loggers
  simp only [System.tokens, System.replaceLogger, releasing, ← loggers]
  abel

theorem offeredTokens_change
    (before after : Nat → DiskFlushQueue.Client (CircularSliceBuffer Owner α) κ) (thread : Fin n)
    (same : ∀ other, other ≠ (thread : Nat) → after other = before other) :
    offeredTokens n after + bufferTokens (before thread).offered =
      offeredTokens n before + bufferTokens (after thread).offered :=
  sum_change (fun thread : Fin n => bufferTokens (before thread).offered)
    (fun thread : Fin n => bufferTokens (after thread).offered) thread
    (fun other differ => by rw [same other (fun equal => differ (Fin.ext equal))])

/-- A thread that enters a method of the queue takes along what it offers. -/
theorem tokens_enter {thread : Fin n}
    {method : DiskFlushQueue.Call (CircularSliceBuffer Owner α) κ}
    (entered : s.enter thread method = some s') :
    s'.pool = s.pool ∧ s'.tokens = s.tokens + bufferTokens method.entry.offered := by
  obtain ⟨queue, taken, rfl⟩ := Option.map_eq_some_iff.mp entered
  obtain ⟨idle, events, rfl, -⟩ := DiskFlushQueue.call_entry taken
  have offered := offeredTokens_change s.queue.clients
    (Function.update s.queue.clients thread method.entry) thread
    (fun other differ => Function.update_of_ne differ _ _)
  rw [idle, Function.update_self, DiskFlushQueue.offered_idle, bufferTokens_nil,
    Multiset.add_zero] at offered
  refine ⟨rfl, ?_⟩
  simp only [System.tokens, DiskFlushQueue.emit_clients, DiskFlushQueue.goto_clients, offered]
  change _ + _ + (offeredTokens n s.queue.clients + _) + bufferTokens s.queue.buffers + _ = _
  abel

/-- A step of a client inside the queue moves slices between its hands, the queue
    and what it releases. -/
theorem tokens_client {thread : Fin n} {now : Int}
    {queue : DiskFlushQueue.State (CircularSliceBuffer Owner α) κ}
    (released : s.releasing thread = [])
    (taken : DiskFlushQueue.clientStep o.queue s.queue thread now = some queue) :
    { s with
      queue
      releasing := Function.update s.releasing thread
        ((s.queue.released thread).flatMap CircularSliceBuffer.slices) }.tokens = s.tokens := by
  have offered := offeredTokens_change s.queue.clients queue.clients thread
    (fun other differ => DiskFlushQueue.client_others taken differ)
  have moved := bufferTokens_perm (DiskFlushQueue.client_buffers taken)
  have releasing := releasingTokens_update s.releasing thread
    ((s.queue.released thread).flatMap CircularSliceBuffer.slices)
  rw [released, ptrTokens_nil, Multiset.add_zero] at releasing
  rw [bufferTokens_append, bufferTokens_append, bufferTokens_append] at moved
  simp only [System.tokens, releasing]
  change loggerTokens s.loggers + (_ + bufferTokens (s.queue.released thread)) + _ + _ + _ = _
  apply Multiset.ext.mpr
  intro token
  have offered := congrArg (Multiset.count token) offered
  have moved := congrArg (Multiset.count token) moved
  simp only [Multiset.count_add] at offered moved ⊢
  omega

theorem tokens_worker {now : Int} {ok : Bool}
    {queue : DiskFlushQueue.State (CircularSliceBuffer Owner α) κ}
    (released : s.workerReleasing = [])
    (taken : DiskFlushQueue.workerStep o.queue s.queue now ok = some queue) :
    { s with
      queue
      workerReleasing :=
        s.queue.worker.destroyed.flatMap CircularSliceBuffer.slices }.tokens = s.tokens := by
  have moved := bufferTokens_perm (DiskFlushQueue.worker_buffers taken)
  rw [bufferTokens_append] at moved
  simp only [System.tokens, DiskFlushQueue.worker_clients taken, released, ptrTokens_nil,
    Multiset.add_zero, ← moved]
  change _ + _ + _ + bufferTokens queue.buffers + bufferTokens s.queue.worker.destroyed = _
  abel

theorem conserved_giveBack {pool : CombinedBufferSlicePool α} {ptr : SlicePtr α}
    (conserved : s.Conserved) (pooled : s.pool = some pool)
    (returned : s'.pool = some (pool.giveBack ptr)) (tokens : s.tokens = ptr.token ::ₘ s'.tokens) :
    s'.Conserved := by
  simp only [System.Conserved, pooled, tokens] at conserved
  simp only [System.Conserved, returned]
  exact conserved.returned

/-- The slices of one logger and those of all others. -/
theorem loggerTokens_split (loggers : Fin n → ThreadLocal α) (owner : Fin n) :
    ∃ others, ∀ after, loggerTokens (Function.update loggers owner after) =
      ptrTokens after.slices + others := by
  refine ⟨∑ other ∈ Finset.univ.erase owner, ptrTokens (loggers other).slices, ?_⟩
  intro after
  rw [loggerTokens, ← Finset.add_sum_erase _ _ (Finset.mem_univ owner), Function.update_self]
  congr 1
  refine Finset.sum_congr rfl ?_
  intro other member
  rw [Function.update_of_ne (Finset.ne_of_mem_erase member)]

/-- A push borrows what it needs from the pool. -/
theorem conserved_push {thread : Fin n} {overtaken : Overtaken} {event : α}
    {logger : EventLogger Owner α} {notified : Bool} {pool : CombinedBufferSlicePool α}
    (conserved : s.Conserved) (alive : s.loggers thread = .alive logger notified)
    (pooled : s.pool = some pool) :
    { s with
      pool := some (logger.push (CombinedBufferSlicePool.borrow overtaken) pool event).2
      loggers := Function.update s.loggers thread
        (.alive (logger.push (CombinedBufferSlicePool.borrow overtaken) pool event).1
          notified) }.Conserved := by
  obtain ⟨others, split⟩ := loggerTokens_split s.loggers thread
  have before := split (s.loggers thread)
  rw [Function.update_eq_self] at before
  simp only [System.Conserved, pooled, System.tokens, before, alive] at conserved
  simp only [System.Conserved, System.tokens, split]
  cases attached : logger.attached with
  | false => simpa [EventLogger.push, attached] using conserved
  | true =>
      cases held : logger.buffer with
      | none => simpa [EventLogger.push, attached, held, ThreadLocal.slices] using conserved
      | some buffer =>
          simp only [EventLogger.push, attached, held, ThreadLocal.slices, Option.toList_some,
            List.flatMap_singleton, Multiset.add_assoc] at conserved ⊢
          exact CircularSliceBuffer.push_accounts conserved overtaken event

/-- A flush takes the slices out of the logger and offers them to the queue. -/
theorem conserved_flush {thread owner : Fin n} {rest : List (Instruction n α)}
    {logger : EventLogger Owner α} {notified : Bool} {buffer : CircularSliceBuffer Owner α}
    (conserved : s.Conserved) (alive : s.loggers owner = .alive logger notified)
    (passed : logger.flush.2 = some buffer)
    (taken : ({ s with
      loggers := Function.update s.loggers owner
        (.alive { logger with buffer := some (moved buffer) } notified) }.goto thread
        rest).enter thread (.enqueue buffer) = some s') : s'.Conserved := by
  obtain ⟨pool, tokens⟩ := tokens_enter taken
  refine conserved.same pool ?_
  have logged := loggerTokens_update s.loggers owner
    (.alive { logger with buffer := some (moved buffer) } notified)
  have offered : bufferTokens (DiskFlushQueue.Client.offered (κ := κ)
      (DiskFlushQueue.Call.entry (.enqueue buffer))) =
        ptrTokens (s.loggers owner).slices := by
    simp [DiskFlushQueue.Call.entry, DiskFlushQueue.Client.offered, bufferTokens, alive,
      ThreadLocal.slices, buffer_of_flush passed]
  have none : (ThreadLocal.alive { logger with buffer := some (moved buffer) } notified).slices =
      [] := by
    simp [ThreadLocal.slices, moved]
  rw [none, ptrTokens_nil, Multiset.add_zero] at logged
  rw [tokens, offered, tokens_goto]
  simp only [System.tokens, ← logged]
  abel

theorem execute_conserved {thread : Fin n} {rest : List (Instruction n α)}
    {instruction : Instruction n α} (conserved : s.Conserved) (released : s.releasing thread = [])
    (instructed : Instructed s thread rest instruction s') : s'.Conserved := by
  cases instructed with
  | ignore | keep | unsubscribe => exact conserved
  | push event overtaken logger notified pool code alive _ pooled =>
      exact conserved_push conserved alive pooled
  | pass owner logger notified buffer _ alive passed entered =>
      exact conserved_flush conserved alive passed entered
  | renew owner logger notified alive =>
      refine conserved.same rfl (tokens_replaceLogger released ?_)
      cases held : logger.buffer <;> simp [ThreadLocal.slices, CircularSliceBuffer.new]
  | leave | destroy => exact conserved.same rfl (tokens_replaceLogger released rfl)

theorem System.Conserved.enter {thread : Fin n} (conserved : s.Conserved)
    (call : Option (Fin n × Position n κ))
    (method : DiskFlushQueue.Call (CircularSliceBuffer Owner α) κ)
    (none : method.entry.offered = [])
    (entered : { s with call }.enter thread method = some s') : s'.Conserved := by
  obtain ⟨pool, tokens⟩ := tokens_enter entered
  refine conserved.same pool ?_
  rw [tokens, none, bufferTokens_nil, Multiset.add_zero]
  rfl

/-- A logger that keeps its buffer keeps its slices. -/
theorem tokens_update {owner : Fin n} {after : ThreadLocal α}
    (kept : after.slices = (s.loggers owner).slices) :
    { s with loggers := Function.update s.loggers owner after }.tokens = s.tokens := by
  have loggers := loggerTokens_update s.loggers owner after
  rw [kept] at loggers
  simp only [System.tokens, add_right_cancel loggers]

theorem advance_conserved {thread : Fin n} {order : List (Fin n)} {position : Position n κ}
    (conserved : s.Conserved) (released : s.releasing thread = [])
    (resets : position = .resetPool → s.tokens = 0)
    (taken : s.advance o thread order position = some s') : s'.Conserved := by
  cases advance_advanced taken with
  | initialized | uninitialized | deinitialized | detached | flush => exact conserved
  | attach owner rest logger notified alive =>
      exact conserved.same rfl
        (tokens_replaceLogger released (slices_setPool logger true notified))
  | detach owner rest logger notified alive =>
      exact conserved.same rfl (tokens_update (by rw [alive]; rfl))
  | drop owner rest logger notified alive =>
      exact conserved.same rfl (tokens_replaceLogger released rfl)
  | flushQueue completion deinitializing _ entered =>
      exact conserved.enter _ (.flush completion) rfl entered
  | clear owner rest deinitializing logger notified alive =>
      refine conserved.same rfl (tokens_replaceLogger released ?_)
      cases held : logger.buffer <;>
        simp [ThreadLocal.slices, CircularSliceBuffer.clear, CircularSliceBuffer.new]
  | clearQueue deinitializing _ entered => exact conserved.enter _ .clear rfl entered
  | drainAndStop _ entered => exact conserved.enter _ .drainAndStop rfl entered
  | resetPool => exact resets rfl

theorem construct_conserved {thread : Fin n} (conserved : s.Conserved)
    (taken : s.construct o thread = some s') : s'.Conserved := by
  simp only [System.construct] at taken
  split at taken
  · rename_i unconstructed
    obtain rfl := Option.some.inj taken
    refine conserved.same rfl (tokens_update ?_)
    rw [slices_setPool, unconstructed]
    rfl
  · obtain rfl := Option.some.inj taken
    exact conserved
  · cases taken

/-- A call of the manager keeps the slices in place as long as it makes a pool only
    where there is none. -/
theorem call_conserved {thread : Fin n} (conserved : s.Conserved)
    (unpooled : s.call = none → s.initialized = false → s.pool = none)
    (called : Called o s thread s') : s'.Conserved := by
  cases called with
  | flag => exact conserved
  | log t code _ constructed =>
      change t.Conserved
      exact construct_conserved conserved constructed
  | exit => exact conserved
  | begin => exact conserved
  | launch order _ uncalled _ uninitialized _ entered =>
      have none : s.tokens = 0 := by
        simpa [System.Conserved, unpooled uncalled uninitialized] using conserved
      have fresh : { s with
          pool := some (.new o.pool o.value)
          call := some (thread, .attach order) }.Conserved := by
        change (CombinedBufferSlicePool.new o.pool o.value).Accounts s.tokens
        rw [none]
        exact .initially o.pool o.value
      exact fresh.enter _ .run rfl entered

theorem thread_conserved {thread : Fin n} (conserved : s.Conserved)
    (resets : s.call = some (thread, .resetPool) → s.releasing thread = [] →
      s.queue.clients thread = .idle → s.tokens = 0)
    (threaded : Threaded o s thread s') : s'.Conserved := by
  cases threaded with
  | giveBack ptr rest pool releasing pooled =>
      refine conserved_giveBack conserved pooled rfl ?_
      have released := releasingTokens_update s.releasing thread rest
      rw [releasing, ptrTokens_cons, Multiset.add_cons, ← Multiset.cons_add] at released
      simp only [System.tokens, ← add_right_cancel released, Multiset.cons_add, Multiset.add_cons]
  | execute instruction rest overtaken s' released _ _ executes =>
      exact execute_conserved conserved released (execute_instructed executes)
  | advance position order s' released idle _ called advances =>
      refine advance_conserved conserved released ?_ advances
      rintro rfl
      exact resets called released idle
  | client now queue released _ moves =>
      exact conserved.same rfl (tokens_client released moves)

theorem worker_conserved (conserved : s.Conserved) (worked : Worked o s s') : s'.Conserved := by
  cases worked with
  | giveBack ptr rest pool releasing pooled =>
      refine conserved_giveBack conserved pooled rfl ?_
      simp only [System.tokens, releasing, ptrTokens_cons, Multiset.add_cons]
  | move now ok queue released moves =>
      exact conserved.same rfl (tokens_worker released moves)

end

end Spoor.Runtime.RuntimeManager
