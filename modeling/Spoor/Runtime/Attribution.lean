import Spoor.Buffer.Provenance
import Spoor.FlushQueue.Records
import Spoor.Runtime.Deinitialize

/-! # The thread a record names

A logger has the events of its thread, but `Enqueue` asks which thread calls it.
So a record names the thread that handed the buffer over.  The two are the same
when a thread hands over its own full buffer or leaves, and differ when `Flush` or
`Deinitialize` hands over the buffer of another thread.
-/

namespace Spoor.Runtime.RuntimeManager

open Buffer EventLogging FlushQueue Lib.Transition

variable {n : Nat} {α κ : Type}

/-- The logger whose buffer the thread passes to `Enqueue` with its next step. -/
def System.passing (s : System n α κ) (thread : Fin n) : Option (Fin n) :=
  match s.releasing thread, s.queue.clients thread, s.code thread with
  | [], .idle, .flush owner :: _ =>
      match s.loggers owner with
      | .alive logger _ => logger.flush.2.map fun _ => owner
      | _ => none
  | _, _, _ => none

def Action.mover : Action n α κ → Option (Fin n)
  | .thread mover _ _ _ => some mover
  | _ => none

/-- A buffer that the step passes to `Enqueue` is passed by a thread with the id of the
    one whose logger it is. -/
def PassedByOwner (o : Options α) (s : System n α κ) (a : Action n α κ) : Prop :=
  ∀ thread ∈ a.mover, ∀ owner ∈ s.passing thread,
    o.queue.threadIdHash thread = o.queue.threadIdHash owner

instance (o : Options α) (s : System n α κ) (a : Action n α κ) :
    Decidable (PassedByOwner o s a) :=
  inferInstanceAs (Decidable (∀ thread ∈ a.mover, ∀ owner ∈ s.passing thread, _))

/-- A thread logs events that come from it. -/
def LogsOwn (source : Fin n → α → Prop) (a : Action n α κ) : Prop :=
  ∀ thread event order, a = .call thread (.logEvent event) order → source thread event

/-- The event comes from a thread with this id. -/
def Named (o : Options α) (source : Fin n → α → Prop) (id : BitVec 64) (event : α) : Prop :=
  ∃ thread, source thread event ∧ o.queue.threadIdHash thread = id

/-- Events are where they belong, and every slice on its way back to the pool can be
    lent again. -/
structure Sourced (o : Options α) (source : Fin n → α → Prop) (s : System n α κ) : Prop where
  pool : ∀ pool ∈ s.pool, pool.reserved.Clean
  code : ∀ thread event, .logEvent event ∈ s.code thread → source thread event
  loggers : ∀ owner, ∀ ptr ∈ (s.loggers owner).slices, ptr.slice.Within (source owner)
  offered : ∀ thread : Fin n, ∀ buffer ∈ (s.queue.clients thread).offered,
    buffer.Within (Named o source (o.queue.threadIdHash thread))
  buffers : ∀ buffer ∈ s.queue.buffers, ∀ ptr ∈ buffer.slices, ptr.slice.WellFormed
  releasing : ∀ thread, ∀ ptr ∈ s.releasing thread, ptr.slice.WellFormed
  workerReleasing : ∀ ptr ∈ s.workerReleasing, ptr.slice.WellFormed
  enqueued : ∀ thread record, .enqueued thread record ∈ s.queue.log →
    record.buffer.Within (Named o source record.threadId)

section

variable {o : Options α} {source : Fin n → α → Prop} {s s' : System n α κ} {thread : Fin n}

theorem Sourced.initial : Sourced o source (initial : System n α κ) where
  pool := by simp [RuntimeManager.initial]
  code := by simp [RuntimeManager.initial]
  loggers := by simp [RuntimeManager.initial, ThreadLocal.slices]
  offered := by simp [RuntimeManager.initial, DiskFlushQueue.initial]
  buffers := by
    simp [RuntimeManager.initial, DiskFlushQueue.initial, DiskFlushQueue.State.buffers,
      DiskFlushQueue.Worker.carried]
  releasing := by simp [RuntimeManager.initial]
  workerReleasing := by simp [RuntimeManager.initial]
  enqueued := by simp [RuntimeManager.initial, DiskFlushQueue.initial]

theorem Sourced.goto (held : Sourced o source s) {code : List (Instruction n α)}
    (own : ∀ event, .logEvent event ∈ code → source thread event) :
    Sourced o source (s.goto thread code) := by
  refine { held with code := ?_ }
  intro other event member
  by_cases same : other = thread
  · subst same
    exact own event (by simpa [System.goto] using member)
  · exact held.code other event (by simpa [System.goto, same] using member)

theorem Sourced.update (held : Sourced o source s) {owner : Fin n} {after : ThreadLocal α}
    (within : ∀ ptr ∈ after.slices, ptr.slice.Within (source owner)) :
    Sourced o source { s with loggers := Function.update s.loggers owner after } := by
  refine { held with loggers := ?_ }
  intro other
  by_cases same : other = owner
  · subst same
    simpa using within
  · simpa [same] using held.loggers other

theorem Sourced.replaceLogger (held : Sourced o source s) {owner : Fin n}
    {after : ThreadLocal α} (empty : after.slices = []) :
    Sourced o source (s.replaceLogger thread owner after) := by
  have replaced : Sourced o source
      { s with loggers := Function.update s.loggers owner after } := held.update (by simp [empty])
  refine { replaced with releasing := ?_ }
  intro other
  by_cases same : other = thread
  · subst same
    intro ptr member
    exact (held.loggers owner ptr (by simpa [System.replaceLogger] using member)).formed
  · simpa [System.replaceLogger, same] using held.releasing other

/-- No record is appended by entering a method of the queue. -/
theorem Sourced.enter (held : Sourced o source s)
    {method : DiskFlushQueue.Call (CircularSliceBuffer Owner α) κ}
    (offers : ∀ buffer ∈ method.entry.offered,
      buffer.Within (Named o source (o.queue.threadIdHash thread)))
    (entered : s.enter thread method = some s') : Sourced o source s' := by
  obtain ⟨queue, taken, rfl⟩ := enter_queue entered
  have enqueued : ∀ other record, .enqueued other record ∈ queue.log →
      record.buffer.Within (Named o source record.threadId) := by
    intro other record logged
    have entering : DiskFlushQueue.step o.queue s.queue (.call thread method) = some queue := taken
    obtain before | ⟨_, _, _, acts, -⟩ := DiskFlushQueue.step_enqueued entering logged
    · exact held.enqueued other record before
    · cases acts
  obtain ⟨-, events, rfl, -⟩ := DiskFlushQueue.call_entry taken
  refine { held with offered := ?_, enqueued }
  intro other buffer member
  by_cases same : other = thread
  · subst same
    exact offers buffer (by simpa using member)
  · have apart : (other : Nat) ≠ thread := fun equal => same (Fin.ext equal)
    exact held.offered other buffer (by simpa [apart] using member)

/-- `enter` for a call that offers no buffer. -/
theorem Sourced.enterBare (held : Sourced o source s) (call : Option (Fin n × Position n κ))
    {method : DiskFlushQueue.Call (CircularSliceBuffer Owner α) κ}
    (none : method.entry.offered = []) (entered : { s with call }.enter thread method = some s') :
    Sourced o source s' := by
  have called : Sourced o source { s with call } := { held with }
  exact called.enter (by simp [none]) entered

theorem Sourced.giveBack (held : Sourced o source s) {ptr : SlicePtr α}
    {pool : CombinedBufferSlicePool α} (pooled : s.pool = some pool)
    (formed : ptr.slice.WellFormed) :
    Sourced o source { s with pool := some (pool.giveBack ptr) } := by
  refine { held with pool := ?_ }
  intro after returned
  obtain rfl := Option.some.inj returned
  exact CombinedBufferSlicePool.giveBack_clean (held.pool pool pooled) formed

theorem Sourced.release (held : Sourced o source s) {left : List (SlicePtr α)}
    (formed : ∀ ptr ∈ left, ptr.slice.WellFormed) :
    Sourced o source { s with releasing := Function.update s.releasing thread left } := by
  refine { held with releasing := ?_ }
  intro other
  by_cases same : other = thread
  · subst same
    simpa using formed
  · simpa [same] using held.releasing other

/-- The event a thread logs goes to the slices of its own logger. -/
theorem Sourced.push (held : Sourced o source s) {overtaken : Overtaken} {event : α}
    {logger : EventLogger Owner α} {notified : Bool} {pool : CombinedBufferSlicePool α}
    (alive : s.loggers thread = .alive logger notified) (pooled : s.pool = some pool)
    (own : source thread event) :
    Sourced o source { s with
      pool := some (logger.push (CombinedBufferSlicePool.borrow overtaken) pool event).2
      loggers := Function.update s.loggers thread
        (.alive (logger.push (CombinedBufferSlicePool.borrow overtaken) pool event).1
          notified) } := by
  have clean := held.pool pool pooled
  have within := held.loggers thread
  rw [alive] at within
  have pushed : (∀ ptr ∈ (ThreadLocal.alive
      (logger.push (CombinedBufferSlicePool.borrow overtaken) pool event).1 notified).slices,
        ptr.slice.Within (source thread)) ∧
      (logger.push (CombinedBufferSlicePool.borrow overtaken) pool event).2.reserved.Clean := by
    cases attached : logger.attached with
    | false => simpa [EventLogger.push, attached] using ⟨within, clean⟩
    | true =>
        cases present : logger.buffer with
        | none => simpa [EventLogger.push, attached, present, ThreadLocal.slices] using clean
        | some buffer =>
            have fits : ∀ ptr ∈ buffer.slices, ptr.slice.Within (source thread) := by
              simpa [ThreadLocal.slices, present] using within
            simp only [EventLogger.push, attached, present, ThreadLocal.slices,
              Option.toList_some, List.flatMap_singleton]
            exact CircularSliceBuffer.push_within overtaken clean fits own
  refine { held.update pushed.1 with pool := ?_ }
  intro after borrowed
  obtain rfl := Option.some.inj borrowed
  exact pushed.2

/-- The buffer a thread passes to `Enqueue` has the events of a thread with its id. -/
theorem Sourced.pass (held : Sourced o source s) {owner : Fin n} {rest : List (Instruction n α)}
    {logger : EventLogger Owner α} {notified : Bool} {buffer : CircularSliceBuffer Owner α}
    (alive : s.loggers owner = .alive logger notified) (passed : logger.flush.2 = some buffer)
    (known : ∀ event, .logEvent event ∈ rest → source thread event)
    (same : o.queue.threadIdHash thread = o.queue.threadIdHash owner)
    (entered : ({ s with
      loggers := Function.update s.loggers owner
        (.alive { logger with buffer := some (moved buffer) } notified) }.goto thread
        (.renew owner :: rest)).enter thread (.enqueue buffer) = some s') :
    Sourced o source s' := by
  have emptied : (ThreadLocal.alive { logger with buffer := some (moved buffer) } notified).slices =
      [] := by
    simp [ThreadLocal.slices, moved]
  have moves : Sourced o source { s with
      loggers := Function.update s.loggers owner
        (.alive { logger with buffer := some (moved buffer) } notified) } :=
    held.update (by simp [emptied])
  refine (moves.goto (by simpa using known)).enter ?_ entered
  intro offered member
  obtain rfl : offered = buffer := by
    simpa [DiskFlushQueue.Call.entry, DiskFlushQueue.Client.offered] using member
  intro ptr slice
  have within : ptr.slice.Within (source owner) := by
    refine held.loggers owner ptr ?_
    simpa [alive, ThreadLocal.slices, buffer_of_flush passed] using slice
  exact within.mono fun event own => ⟨owner, own, same.symm⟩

theorem Sourced.execute (held : Sourced o source s) {rest : List (Instruction n α)}
    {instruction : Instruction n α}
    (known : ∀ event, .logEvent event ∈ instruction :: rest → source thread event)
    (passes : ∀ owner logger notified, instruction = .flush owner →
      s.loggers owner = .alive logger notified → logger.flush.2.isSome = true →
      o.queue.threadIdHash thread = o.queue.threadIdHash owner)
    (instructed : Instructed s thread rest instruction s') : Sourced o source s' := by
  have later : ∀ event, .logEvent event ∈ rest → source thread event :=
    fun event member => known event (List.mem_cons_of_mem _ member)
  cases instructed with
  | ignore | keep => exact held.goto later
  | push event overtaken logger notified pool code alive _ pooled codes =>
      refine (held.push alive pooled (known event (by simp))).goto ?_
      intro other member
      rw [codes] at member
      split at member
      · exact later other (by simpa using member)
      · exact later other member
  | pass owner logger notified buffer _ alive passed entered =>
      exact held.pass alive passed later
        (passes owner logger notified rfl alive (Option.isSome_of_eq_some passed)) entered
  | renew owner logger notified alive =>
      refine (held.replaceLogger ?_).goto later
      cases present : logger.buffer <;> simp [ThreadLocal.slices, CircularSliceBuffer.new]
  | unsubscribe logger notified alive =>
      refine held.goto ?_
      intro event member
      split at member
      · exact later event (by simpa using member)
      · exact later event member
  | leave logger notified alive =>
      have left : Sourced o source ((s.replaceLogger thread thread
          (.alive (detached logger) notified)).goto thread rest) :=
        (held.replaceLogger rfl).goto later
      exact { left with }
  | destroy => exact (held.replaceLogger rfl).goto later

theorem Sourced.advance (held : Sourced o source s) {position : Position n κ}
    (advanced : Advanced s thread position s') : Sourced o source s' := by
  cases advanced with
  | initialized | uninitialized | deinitialized | detached => exact { held with }
  | attach owner rest logger notified alive =>
      have replaced : Sourced o source (s.replaceLogger thread owner
          (.alive (logger.setPool true).1 notified)) :=
        held.replaceLogger (slices_setPool logger true notified)
      exact { replaced with }
  | detach owner rest logger notified alive =>
      have kept : Sourced o source
          { s with loggers := Function.update s.loggers owner (.alive logger false) } := by
        refine held.update ?_
        have within := held.loggers owner
        rwa [alive] at within
      have called : Sourced o source { s with
          loggers := Function.update s.loggers owner (.alive logger false)
          call := some (thread, .drop owner rest) } := { kept with }
      exact called.goto (by simp)
  | drop owner rest logger notified alive =>
      have replaced : Sourced o source (s.replaceLogger thread owner
          (.alive (RuntimeManager.detached logger) notified)) := held.replaceLogger rfl
      exact { replaced with }
  | flush owner rest completion deinitializing =>
      have called : Sourced o source
          { s with call := some (thread, .flush rest completion deinitializing) } :=
        { held with }
      exact called.goto (by simp)
  | flushQueue completion deinitializing _ entered => exact held.enterBare _ rfl entered
  | clear owner rest deinitializing logger notified alive =>
      have replaced : Sourced o source (s.replaceLogger thread owner (.alive { logger with
          buffer := logger.buffer.map fun buffer => buffer.clear.1 } notified)) := by
        refine held.replaceLogger ?_
        cases present : logger.buffer <;>
          simp [ThreadLocal.slices, CircularSliceBuffer.clear, CircularSliceBuffer.new]
      exact { replaced with }
  | clearQueue deinitializing _ entered => exact held.enterBare _ rfl entered
  | drainAndStop _ entered => exact held.enterBare _ rfl entered
  | resetPool => exact { held with pool := by simp }

theorem construct_code (constructed : s.construct o thread = some s') : s'.code = s.code := by
  simp only [System.construct] at constructed
  split at constructed <;> cases constructed <;> rfl

/-- A call makes a thread log the event it is about and no other. -/
theorem call_code {method : Method α κ} {order : List (Fin n)}
    (taken : s.callStep o thread method order = some s') {other : Fin n} {event : α}
    (member : .logEvent event ∈ s'.code other) :
    .logEvent event ∈ s.code other ∨ other = thread ∧ method = .logEvent event := by
  have moved : ∀ {t : System n α κ} {code : List (Instruction n α)}, t.code = s.code →
      .logEvent event ∈ (t.goto thread code).code other →
      .logEvent event ∈ s.code other ∨ other = thread ∧ .logEvent event ∈ code := by
    intro t code same inside
    by_cases own : other = thread
    · subst own
      exact .inr ⟨rfl, by simpa [System.goto] using inside⟩
    · exact .inl (by simpa [System.goto, own, same] using inside)
  simp only [System.callStep, System.begin] at taken
  split at taken
  · cases taken
  · cases method with
    | logEvent logged =>
        simp only at taken
        split at taken
        · cases taken
        · obtain ⟨t, constructed, rfl⟩ := Option.map_eq_some_iff.mp taken
          have same := construct_code constructed
          split at member
          · rcases moved same member with before | ⟨own, logs⟩
            · exact .inl before
            · exact .inr ⟨own, by simpa [eq_comm] using logs⟩
          · exact .inl (same ▸ member)
    | exit =>
        simp only at taken
        split at taken
        · obtain rfl := Option.some.inj taken
          exact .inl ((moved rfl member).resolve_right (by simp))
        · cases taken
    | initializeRuntime =>
        simp only at taken
        split at taken
        · cases taken
        · split at taken
          · obtain rfl := Option.some.inj taken
            exact .inl member
          · split at taken
            · cases taken
            · obtain ⟨queue, -, rfl⟩ := enter_queue taken
              exact .inl member
    | enable =>
        obtain rfl := Option.some.inj taken
        split at member <;> exact .inl member
    | disable =>
        obtain rfl := Option.some.inj taken
        exact .inl member
    | deinitializeRuntime | flush | clear =>
        simp only at taken
        split at taken
        · cases taken
        · obtain rfl := Option.some.inj taken
          exact .inl member

theorem Sourced.construct (held : Sourced o source s) (taken : s.construct o thread = some s') :
    Sourced o source s' := by
  simp only [System.construct] at taken
  split at taken
  · obtain rfl := Option.some.inj taken
    have made : ∀ after : ThreadLocal α, after.slices = [] →
        Sourced o source { s with loggers := Function.update s.loggers thread after } :=
      fun after empty => held.update (by simp [empty])
    exact { made _ (slices_setPool _ _ _) with }
  · obtain rfl := Option.some.inj taken
    exact held
  · cases taken

theorem Sourced.call (held : Sourced o source s) {method : Method α κ} {order : List (Fin n)}
    (own : LogsOwn source (.call thread method order))
    (taken : s.callStep o thread method order = some s') : Sourced o source s' := by
  have code : ∀ other event, .logEvent event ∈ s'.code other → source other event := by
    intro other event member
    rcases call_code taken member with before | ⟨rfl, rfl⟩
    · exact held.code other event before
    · exact own other event order rfl
  cases call_called taken with
  | flag | exit | begin => exact { held with code }
  | log t _ _ constructed => exact { held.construct constructed with code }
  | launch order _ _ _ _ _ entered =>
      have launched : Sourced o source { s with
          pool := some (.new o.pool o.value)
          call := some (thread, .attach order) } := by
        refine { held with pool := ?_ }
        intro pool made
        obtain rfl := Option.some.inj made
        exact .initially o.pool.reserved o.value
      exact launched.enter (by simp [DiskFlushQueue.Call.entry, DiskFlushQueue.Client.offered])
        entered

/-- The records a step of the queue appends carry the id of the thread that appends
    them, and so the events they are offered with. -/
theorem Sourced.append (held : Sourced o source s)
    {queue : DiskFlushQueue.State (CircularSliceBuffer Owner α) κ}
    {a : DiskFlushQueue.Action (CircularSliceBuffer Owner α) κ}
    (own : ∀ mover now, a = .client mover now → ∃ thread : Fin n, mover = thread)
    (taken : DiskFlushQueue.step o.queue s.queue a = some queue) :
    ∀ mover record, .enqueued mover record ∈ queue.log →
      record.buffer.Within (Named o source record.threadId) := by
  intro mover record logged
  obtain before | ⟨now, buffer, time, acts, position, rfl⟩ :=
    DiskFlushQueue.step_enqueued taken logged
  · exact held.enqueued mover record before
  · obtain ⟨thread, rfl⟩ := own mover now acts
    exact held.offered thread buffer (by simp [position, DiskFlushQueue.Client.offered])

theorem Sourced.client (held : Sourced o source s) {now : Int}
    {queue : DiskFlushQueue.State (CircularSliceBuffer Owner α) κ}
    (moves : DiskFlushQueue.clientStep o.queue s.queue thread now = some queue) :
    Sourced o source { s with
      queue
      releasing := Function.update s.releasing thread
        ((s.queue.released thread).flatMap CircularSliceBuffer.slices) } := by
  have formed : ∀ buffer ∈ s.queue.buffers ++ (s.queue.clients thread).offered,
      ∀ ptr ∈ buffer.slices, ptr.slice.WellFormed := by
    intro buffer member
    rcases List.mem_append.mp member with inside | offered
    · exact held.buffers buffer inside
    · exact fun ptr slice => (held.offered thread buffer offered ptr slice).formed
  have kept := (DiskFlushQueue.client_buffers moves).subset
  have released : Sourced o source { s with
      releasing := Function.update s.releasing thread
        ((s.queue.released thread).flatMap CircularSliceBuffer.slices) } := by
    refine held.release ?_
    intro ptr member
    obtain ⟨buffer, leaves, slice⟩ := List.mem_flatMap.mp member
    exact formed buffer (kept (List.mem_append_right _ leaves)) ptr slice
  refine { released with offered := ?_, buffers := ?_, enqueued := ?_ }
  · intro other buffer member
    by_cases same : other = thread
    · subst same
      exact held.offered other buffer (DiskFlushQueue.client_offered moves member)
    · have apart : (other : Nat) ≠ thread := fun equal => same (Fin.ext equal)
      rw [DiskFlushQueue.client_others moves apart] at member
      exact held.offered other buffer member
  · intro buffer member
    exact formed buffer (kept (List.mem_append_left _ (List.mem_append_left _ member)))
  · refine held.append ?_ (show DiskFlushQueue.step o.queue s.queue (.client thread now) = _ from
      moves)
    rintro mover reading ⟨⟩
    exact ⟨thread, rfl⟩

theorem Sourced.threaded (held : Sourced o source s)
    (passes : ∀ owner ∈ s.passing thread,
      o.queue.threadIdHash thread = o.queue.threadIdHash owner)
    (threaded : Threaded o s thread s') : Sourced o source s' := by
  cases threaded with
  | giveBack ptr rest pool releasing pooled =>
      have formed := held.releasing thread
      rw [releasing] at formed
      have returned := held.giveBack pooled (formed ptr (by simp))
      exact returned.release fun other member => formed other (List.mem_cons_of_mem ptr member)
  | execute instruction rest overtaken s' released idle code executes =>
      have known := held.code thread
      rw [code] at known
      refine held.execute known ?_ (execute_instructed executes)
      rintro owner logger notified rfl alive some
      refine passes owner ?_
      obtain ⟨buffer, passed⟩ := Option.isSome_iff_exists.mp some
      simp [System.passing, released, idle, code, alive, passed]
  | advance position order s' _ _ _ _ advances => exact held.advance (advance_advanced advances)
  | client now queue _ _ moves => exact held.client moves

theorem Sourced.worked (held : Sourced o source s) (worked : Worked o s s') :
    Sourced o source s' := by
  cases worked with
  | giveBack ptr rest pool releasing pooled =>
      have formed := held.workerReleasing
      rw [releasing] at formed
      refine { held.giveBack pooled (formed ptr (by simp)) with workerReleasing := ?_ }
      exact fun other member => formed other (List.mem_cons_of_mem ptr member)
  | move now ok queue _ moves =>
      have kept := (DiskFlushQueue.worker_buffers moves).subset
      refine { held with offered := ?_, buffers := ?_, workerReleasing := ?_, enqueued := ?_ }
      · rw [DiskFlushQueue.worker_clients moves]
        exact held.offered
      · exact fun buffer member => held.buffers buffer (kept (List.mem_append_left _ member))
      · intro ptr member
        obtain ⟨buffer, leaves, slice⟩ := List.mem_flatMap.mp member
        exact held.buffers buffer (kept (List.mem_append_right _ leaves)) ptr slice
      · refine held.append ?_ (show DiskFlushQueue.step o.queue s.queue (.worker now ok) = _ from
          moves)
        rintro mover reading ⟨⟩

theorem Sourced.step (held : Sourced o source s) {a : Action n α κ} (passed : PassedByOwner o s a)
    (own : LogsOwn source a) (taken : step o s a = some s') : Sourced o source s' := by
  cases a with
  | call thread method order => exact held.call own taken
  | thread thread now overtaken order =>
      exact held.threaded (passed thread rfl) (thread_threaded taken)
  | worker now ok => exact held.worked (worker_worked taken)

theorem run_sourced {labels : List (Action n α κ)}
    (passed : Meets (RuntimeManager.step o) (PassedByOwner o) RuntimeManager.initial labels)
    (own : ∀ a ∈ labels, LogsOwn source a)
    (reached : exec (RuntimeManager.step o) RuntimeManager.initial labels = some s) :
    Sourced o source s :=
  invariant (fun s a => PassedByOwner o s a ∧ LogsOwn source a) (Sourced o source) .initial
    (fun _ _ _ held conforms taken => held.step conforms.1 conforms.2 taken)
    (passed.and (meets_of_forall own)) reached

end

/-- The method with its event marked with the thread that calls it. -/
def Method.marked (caller : Fin n) : Method α κ → Method (Fin n × α) κ
  | .initializeRuntime => .initializeRuntime
  | .deinitializeRuntime => .deinitializeRuntime
  | .enable => .enable
  | .disable => .disable
  | .flush completion => .flush completion
  | .clear => .clear
  | .logEvent event => .logEvent (caller, event)
  | .exit => .exit

/-- The action with the event it logs marked.  The mark is not in the source and no
    step reads it. -/
def Action.marked : Action n α κ → Action n (Fin n × α) κ
  | .call caller method order => .call caller (method.marked caller) order
  | .thread mover now overtaken order => .thread mover now overtaken order
  | .worker now ok => .worker now ok

theorem logsOwn_marked (a : Action n α κ) :
    LogsOwn (fun thread event => event.1 = thread) a.marked := by
  intro thread event order acts
  cases a with
  | call caller method order =>
      cases method <;> cases acts
      rfl
  | thread | worker => cases acts

/-- Every record carries the id of the thread that logged the events of its buffer. -/
def Attributed (o : Options (Fin n × α)) (s : System n (Fin n × α) κ) : Prop :=
  ∀ thread record, .enqueued thread record ∈ s.queue.log → ∀ event ∈ record.buffer.items,
    record.threadId = o.queue.threadIdHash event.1

/-- Records are attributed to the right thread throughout every run in which each
    buffer is handed over by the thread whose logger it is. -/
theorem records_attributed (o : Options (Fin n × α)) (labels : List (Action n α κ))
    (s : System n (Fin n × α) κ)
    (passed : Meets (step o) (PassedByOwner o) initial (labels.map Action.marked))
    (reached : exec (step o) initial (labels.map Action.marked) = some s) : Attributed o s := by
  have own : ∀ a ∈ labels.map Action.marked,
      LogsOwn (fun (thread : Fin n) (event : Fin n × α) => event.1 = thread) a := by
    intro a member
    obtain ⟨b, -, rfl⟩ := List.mem_map.mp member
    exact logsOwn_marked b
  have held := run_sourced passed own reached
  intro thread record logged event member
  obtain ⟨logger, mark, same⟩ := (held.enqueued thread record logged).items event member
  rw [mark, same]

/-- `keepLatest` for events that are marked with one of two threads. -/
def keepLatestMarked : Options (Fin 2 × Nat) where
  queue := keepLatest.queue
  pool := keepLatest.pool
  value := (0, 0)
  threadEventBufferCapacity := keepLatest.threadEventBufferCapacity
  flushAllEvents := keepLatest.flushAllEvents

def stepsOf (thread : Fin 2) (count : Nat) : List (Action 2 Nat Unit) :=
  List.replicate count (.thread thread 1 ⟨0, 0⟩ [])

/-- Thread 1 starts the runtime, and thread 0 logs an event. -/
def startAndLog : List (Action 2 Nat Unit) :=
  Action.call 1 .initializeRuntime [] :: stepsOf 1 4 ++
    [Action.call 1 .enable [], Action.call 0 (.logEvent 7) []] ++ stepsOf 0 1

/-- Thread 0 leaves and hands its buffer over. -/
def logThenExit : List (Action 2 Nat Unit) :=
  startAndLog ++ .call 0 .exit [] :: stepsOf 0 5

/-- Thread 1 flushes the loggers. -/
def logThenFlush : List (Action 2 Nat Unit) :=
  startAndLog ++ .call 1 (.flush none) [0] :: stepsOf 1 6

theorem records_attributed_logThenExit :
    ∃ s, exec (step keepLatestMarked) initial (logThenExit.map Action.marked) = some s ∧
      (∃ record, .enqueued 0 record ∈ s.queue.log ∧ record.buffer.items = [(0, 7)]) ∧
      Attributed keepLatestMarked s := by
  have passed : Meets (step keepLatestMarked) (PassedByOwner keepLatestMarked) initial
      (logThenExit.map Action.marked) := by decide +kernel
  refine ⟨_, rfl, ⟨_, List.mem_cons_of_mem _ (List.mem_cons_self ..), rfl⟩, ?_⟩
  exact records_attributed keepLatestMarked logThenExit _ passed rfl

/-- The record has the event of thread 0 and names thread 1. -/
theorem flush_names_caller :
    ∃ s, exec (step keepLatestMarked) initial (logThenFlush.map Action.marked) = some s ∧
      (∃ record, .enqueued 1 record ∈ s.queue.log ∧ record.buffer.items = [(0, 7)] ∧
        record.threadId = 1) ∧ ¬ Attributed keepLatestMarked s := by
  refine ⟨_, rfl, ⟨_, List.mem_cons_of_mem _ (List.mem_cons_self ..), rfl, rfl⟩, ?_⟩
  intro attributed
  have named := attributed 1 _ (List.mem_cons_of_mem _ (List.mem_cons_self ..)) (0, 7)
    (List.mem_cons_self ..)
  cases named

end Spoor.Runtime.RuntimeManager
