import Spoor.Runtime.RuntimeManager

/-! # What one step of the manager can do

A thread works on its own: its steps leave the code, the slices to release and
the position in the queue of every other thread alone.  What a call, an
instruction and a step inside a call can do is said once here.
-/

namespace Spoor.Runtime.RuntimeManager

open Buffer EventLogging FlushQueue

variable {n : Nat} {α κ : Type} {o : Options α} {s s' : System n α κ} {thread : Fin n}

theorem goto_code (s : System n α κ) (thread : Fin n) :
    s.goto thread (s.code thread) = s := by
  rw [System.goto, Function.update_eq_self]

/-- What a call can do. -/
inductive Called (o : Options α) (s : System n α κ) (thread : Fin n) : System n α κ → Prop where
  | flag (enabled : Bool) : Called o s thread { s with enabled }
  | log (t : System n α κ) (code : List (Instruction n α)) : s.call = none →
      s.construct o thread = some t → Called o s thread (t.goto thread code)
  | exit (code : List (Instruction n α)) : s.call = none → Called o s thread (s.goto thread code)
  | begin (position : Position n κ) (enabled : Bool) : s.call = none →
      (∀ other, s.outside other = true) → position.resting = true →
      Called o s thread { s with enabled, call := some (thread, position) }
  | launch (order : List (Fin n)) (s' : System n α κ) : s.call = none →
      (∀ other, s.outside other = true) → s.initialized = false → s.loops order = true →
      { s with
        pool := some (.new o.pool o.value)
        call := some (thread, .attach order) }.enter thread .run = some s' →
      Called o s thread s'

theorem call_called {method : Method α κ} {order : List (Fin n)}
    (taken : s.callStep o thread method order = some s') : Called o s thread s' := by
  simp only [System.callStep, System.begin] at taken
  split at taken
  · cases taken
  · cases method with
    | enable =>
        obtain rfl := Option.some.inj taken
        split
        · exact .flag true
        · exact .flag s.enabled
    | disable =>
        obtain rfl := Option.some.inj taken
        exact .flag false
    | logEvent event =>
        simp only at taken
        split at taken
        · cases taken
        · rename_i uncalled
          obtain ⟨t, constructed, rfl⟩ := Option.map_eq_some_iff.mp taken
          have none : s.call = none := by simpa using uncalled
          split
          · exact .log t _ none constructed
          · rw [← goto_code t thread]
            exact .log t _ none constructed
    | exit =>
        simp only at taken
        split at taken
        · rename_i uncalled _
          obtain rfl := Option.some.inj taken
          exact .exit _ (Option.isNone_iff_eq_none.mp uncalled)
        · cases taken
    | initializeRuntime =>
        simp only at taken
        split at taken
        · cases taken
        · rename_i alone
          obtain ⟨uncalled, outside⟩ : s.call = none ∧ ∀ other, s.outside other = true := by
            simpa using alone
          split at taken
          · obtain rfl := Option.some.inj taken
            exact .flag s.enabled
          · rename_i uninitialized
            split at taken
            · cases taken
            · rename_i ready
              simp only [Bool.or_eq_true, not_or, Bool.not_eq_true', Bool.not_eq_false] at ready
              exact .launch order s' uncalled outside (by simpa using uninitialized) ready.1 taken
    | deinitializeRuntime =>
        simp only at taken
        split at taken
        · cases taken
        · rename_i alone
          obtain ⟨uncalled, outside⟩ : s.call = none ∧ ∀ other, s.outside other = true := by
            simpa using alone
          obtain rfl := Option.some.inj taken
          exact .begin .deinitializeRuntime false uncalled outside rfl
    | flush completion =>
        simp only at taken
        split at taken
        · cases taken
        · rename_i alone
          simp only [Bool.or_eq_true, not_or, Bool.not_eq_true', Bool.not_eq_false] at alone
          obtain ⟨uncalled, outside⟩ : s.call = none ∧ ∀ other, s.outside other = true := by
            simpa using alone.1
          obtain rfl := Option.some.inj taken
          exact .begin _ s.enabled uncalled outside rfl
    | clear =>
        simp only at taken
        split at taken
        · cases taken
        · rename_i alone
          simp only [Bool.or_eq_true, not_or, Bool.not_eq_true', Bool.not_eq_false] at alone
          obtain ⟨uncalled, outside⟩ : s.call = none ∧ ∀ other, s.outside other = true := by
            simpa using alone.1
          obtain rfl := Option.some.inj taken
          exact .begin _ s.enabled uncalled outside rfl

/-- What a thread inside the manager can do next. -/
inductive Threaded (o : Options α) (s : System n α κ) (thread : Fin n) : System n α κ → Prop where
  | giveBack (ptr : SlicePtr α) (rest : List (SlicePtr α)) (pool : CombinedBufferSlicePool α) :
      s.releasing thread = ptr :: rest → s.pool = some pool →
      Threaded o s thread { s with
        pool := some (pool.giveBack ptr)
        releasing := Function.update s.releasing thread rest }
  | execute (instruction : Instruction n α) (rest : List (Instruction n α))
      (overtaken : Overtaken) (s' : System n α κ) : s.releasing thread = [] →
      s.queue.clients thread = .idle → s.code thread = instruction :: rest →
      s.execute thread overtaken rest instruction = some s' → Threaded o s thread s'
  | advance (position : Position n κ) (order : List (Fin n)) (s' : System n α κ) :
      s.releasing thread = [] → s.queue.clients thread = .idle → s.code thread = [] →
      s.call = some (thread, position) → s.advance o thread order position = some s' →
      Threaded o s thread s'
  | client (now : Int) (queue : DiskFlushQueue.State (CircularSliceBuffer Owner α) κ) :
      s.releasing thread = [] → s.queue.clients thread ≠ .idle →
      DiskFlushQueue.clientStep o.queue s.queue thread now = some queue →
      Threaded o s thread { s with
        queue
        releasing := Function.update s.releasing thread
          ((s.queue.released thread).flatMap CircularSliceBuffer.slices) }

theorem thread_threaded {now : Int} {overtaken : Overtaken} {order : List (Fin n)}
    (taken : s.threadStep o thread now overtaken order = some s') : Threaded o s thread s' := by
  simp only [System.threadStep] at taken
  split at taken
  · rename_i ptr rest releasing
    obtain ⟨pool, pooled, rfl⟩ := Option.map_eq_some_iff.mp taken
    exact .giveBack ptr rest pool releasing pooled
  · rename_i released
    split at taken
    · rename_i idle
      rw [DiskFlushQueue.isIdle_iff] at idle
      split at taken
      · rename_i instruction rest code
        exact .execute instruction rest overtaken s' released idle code taken
      · rename_i caller position code called
        split at taken
        · rename_i own
          exact .advance position order s' released idle code (own ▸ called) taken
        · cases taken
      · cases taken
    · rename_i busy
      rw [DiskFlushQueue.isIdle_iff] at busy
      obtain ⟨queue, moves, rfl⟩ := Option.map_eq_some_iff.mp taken
      exact .client now queue released busy moves

/-- What the worker can do next. -/
inductive Worked (o : Options α) (s : System n α κ) : System n α κ → Prop where
  | giveBack (ptr : SlicePtr α) (rest : List (SlicePtr α)) (pool : CombinedBufferSlicePool α) :
      s.workerReleasing = ptr :: rest → s.pool = some pool →
      Worked o s { s with pool := some (pool.giveBack ptr), workerReleasing := rest }
  | move (now : Int) (ok : Bool)
      (queue : DiskFlushQueue.State (CircularSliceBuffer Owner α) κ) :
      s.workerReleasing = [] → DiskFlushQueue.workerStep o.queue s.queue now ok = some queue →
      Worked o s { s with
        queue
        workerReleasing := s.queue.worker.destroyed.flatMap CircularSliceBuffer.slices }

theorem worker_worked {now : Int} {ok : Bool} (taken : s.workerStep o now ok = some s') :
    Worked o s s' := by
  simp only [System.workerStep] at taken
  split at taken
  · rename_i ptr rest releasing
    obtain ⟨pool, pooled, rfl⟩ := Option.map_eq_some_iff.mp taken
    exact .giveBack ptr rest pool releasing pooled
  · rename_i released
    obtain ⟨queue, moves, rfl⟩ := Option.map_eq_some_iff.mp taken
    exact .move now ok queue released moves

/-- The step is about `thread` only. -/
structure Local (thread : Fin n) (s s' : System n α κ) : Prop where
  code : ∀ other, other ≠ thread → s'.code other = s.code other
  releasing : ∀ other, other ≠ thread → s'.releasing other = s.releasing other
  clients : ∀ other : Fin n, other ≠ thread → s'.queue.clients other = s.queue.clients other

theorem Local.refl (thread : Fin n) (s : System n α κ) : Local thread s s :=
  ⟨fun _ _ => rfl, fun _ _ => rfl, fun _ _ => rfl⟩

theorem Local.goto {t : System n α κ} (own : Local thread s t)
    (code : List (Instruction n α)) : Local thread s (t.goto thread code) where
  code other differ := (Function.update_of_ne differ _ _).trans (own.code other differ)
  releasing := own.releasing
  clients := own.clients

theorem Local.replaceLogger {t : System n α κ} (own : Local thread s t) (owner : Fin n)
    (after : ThreadLocal α) : Local thread s (t.replaceLogger thread owner after) where
  code := own.code
  releasing other differ := (Function.update_of_ne differ _ _).trans (own.releasing other differ)
  clients := own.clients

/-- Entering a method of the queue is a step of the client only. -/
theorem enter_queue {method : DiskFlushQueue.Call (CircularSliceBuffer Owner α) κ}
    (entered : s.enter thread method = some s') :
    ∃ queue, DiskFlushQueue.callStep s.queue thread method = some queue ∧
      s' = { s with queue } := by
  obtain ⟨queue, taken, rfl⟩ := Option.map_eq_some_iff.mp entered
  exact ⟨queue, taken, rfl⟩

theorem Local.enter {t : System n α κ} (own : Local thread s t)
    {method : DiskFlushQueue.Call (CircularSliceBuffer Owner α) κ}
    (entered : t.enter thread method = some s') : Local thread s s' := by
  obtain ⟨queue, taken, rfl⟩ := enter_queue entered
  obtain ⟨-, events, rfl, -⟩ := DiskFlushQueue.call_entry taken
  refine ⟨own.code, own.releasing, ?_⟩
  intro other differ
  have apart : (other : Nat) ≠ thread := fun equal => differ (Fin.ext equal)
  rw [DiskFlushQueue.emit_clients, DiskFlushQueue.goto_clients, Function.update_of_ne apart]
  exact own.clients other differ

/-- The logger has a buffer. -/
def ThreadLocal.present : ThreadLocal α → Bool
  | .alive logger _ => logger.buffer.isSome
  | _ => false

/-- The frame of an instruction: it gives no logger a buffer, a logger that keeps its
    buffer stays subscribed, and the queue is at most entered. -/
structure Executed (thread : Fin n) (s s' : System n α κ) : Prop where
  own : Local thread s s'
  call : s'.call = s.call
  initialized : s'.initialized = s.initialized
  pool : s'.pool.isSome = s.pool.isSome
  worker : s'.workerReleasing = s.workerReleasing
  queue : s'.queue = s.queue ∨ ∃ buffer,
    DiskFlushQueue.callStep s.queue thread (.enqueue buffer) = some s'.queue
  present : ∀ owner, (s'.loggers owner).present = true →
    (s.loggers owner).present = true ∧ (owner ∈ s.eventLoggers → owner ∈ s'.eventLoggers)

theorem Executed.refl (thread : Fin n) (s : System n α κ) : Executed thread s s where
  own := .refl thread s
  call := rfl
  initialized := rfl
  pool := rfl
  worker := rfl
  queue := .inl rfl
  present _ present := ⟨present, id⟩

theorem Executed.goto {t : System n α κ} (executed : Executed thread s t)
    (code : List (Instruction n α)) : Executed thread s (t.goto thread code) :=
  { executed with own := executed.own.goto code }

/-- Presence after the logger of `owner` was replaced. -/
theorem present_update {owner other : Fin n} {after : ThreadLocal α}
    (less : after.present = true → (s.loggers owner).present = true)
    (present : (Function.update s.loggers owner after other).present = true) :
    (s.loggers other).present = true := by
  by_cases same : other = owner
  · subst same
    rw [Function.update_self] at present
    exact less present
  · rwa [Function.update_of_ne same] at present

theorem Executed.replaceLogger (owner : Fin n) {after : ThreadLocal α}
    (less : after.present = true → (s.loggers owner).present = true) :
    Executed thread s (s.replaceLogger thread owner after) where
  own := (Local.refl thread s).replaceLogger owner after
  call := rfl
  initialized := rfl
  pool := rfl
  worker := rfl
  queue := .inl rfl
  present _ present := ⟨present_update less present, id⟩

theorem buffer_of_flush {logger : EventLogger Owner α} {buffer : CircularSliceBuffer Owner α}
    (passed : logger.flush.2 = some buffer) : logger.buffer = some buffer := by
  cases held : logger.buffer with
  | none => simp [EventLogger.flush, held] at passed
  | some other =>
      simp only [EventLogger.flush, held] at passed
      split at passed
      · cases passed
      · exact passed

theorem isSome_buffer_push {π : Type} (borrow : Borrow Owner π α) (logger : EventLogger Owner α)
    (pool : π) (event : α) :
    (logger.push borrow pool event).1.buffer.isSome = logger.buffer.isSome := by
  cases attached : logger.attached with
  | false => simp [EventLogger.push, attached]
  | true => cases held : logger.buffer <;> simp [EventLogger.push, attached, held]

/-- What an instruction can do. -/
inductive Instructed (s : System n α κ) (thread : Fin n) (rest : List (Instruction n α)) :
    Instruction n α → System n α κ → Prop where
  | ignore (event : α) (logger : EventLogger Owner α) (notified : Bool) :
      s.loggers thread = .alive logger notified → logger.attached = false →
      Instructed s thread rest (.logEvent event) (s.goto thread rest)
  | push (event : α) (overtaken : Overtaken) (logger : EventLogger Owner α) (notified : Bool)
      (pool : CombinedBufferSlicePool α) (code : List (Instruction n α)) :
      s.loggers thread = .alive logger notified → logger.attached = true → s.pool = some pool →
      code = (if (logger.push (CombinedBufferSlicePool.borrow overtaken) pool event).1.flushesNow
        then .flush thread :: rest else rest) →
      Instructed s thread rest (.logEvent event) ({ s with
        pool := some (logger.push (CombinedBufferSlicePool.borrow overtaken) pool event).2
        loggers := Function.update s.loggers thread
          (.alive (logger.push (CombinedBufferSlicePool.borrow overtaken) pool event).1
            notified) }.goto thread code)
  | keep (owner : Fin n) (logger : EventLogger Owner α) (notified : Bool) :
      s.loggers owner = .alive logger notified → logger.flush.2 = none →
      Instructed s thread rest (.flush owner) (s.goto thread rest)
  | pass (owner : Fin n) (logger : EventLogger Owner α) (notified : Bool)
      (buffer : CircularSliceBuffer Owner α) (s' : System n α κ) :
      s.loggers owner = .alive logger notified → logger.flush.2 = some buffer →
      ({ s with
        loggers := Function.update s.loggers owner
          (.alive { logger with buffer := some (moved buffer) } notified) }.goto thread
        (.renew owner :: rest)).enter thread (.enqueue buffer) = some s' →
      Instructed s thread rest (.flush owner) s'
  | renew (owner : Fin n) (logger : EventLogger Owner α) (notified : Bool) :
      s.loggers owner = .alive logger notified →
      Instructed s thread rest (.renew owner)
        ((s.replaceLogger thread owner (.alive { logger with
          buffer := logger.buffer.map fun _ => .new logger.options.preferredCapacity }
          notified)).goto thread rest)
  | unsubscribe (logger : EventLogger Owner α) (notified : Bool) :
      s.loggers thread = .alive logger notified →
      Instructed s thread rest .unsubscribe
        (s.goto thread (if notified then .flush thread :: .leave :: rest else rest))
  | leave (logger : EventLogger Owner α) (notified : Bool) :
      s.loggers thread = .alive logger notified →
      Instructed s thread rest .leave
        { (s.replaceLogger thread thread (.alive (detached logger) notified)).goto thread rest with
          eventLoggers := s.eventLoggers.erase thread }
  | destroy (logger : EventLogger Owner α) (notified : Bool) :
      s.loggers thread = .alive logger notified →
      Instructed s thread rest .destroy
        ((s.replaceLogger thread thread .destroyed).goto thread rest)

theorem execute_instructed {overtaken : Overtaken} {rest : List (Instruction n α)}
    {instruction : Instruction n α}
    (taken : s.execute thread overtaken rest instruction = some s') :
    Instructed s thread rest instruction s' := by
  cases instruction with
  | logEvent event =>
      simp only [System.execute] at taken
      split at taken
      · rename_i logger notified alive
        split at taken
        · rename_i unattached
          obtain rfl := Option.some.inj taken
          exact .ignore event logger notified alive (by simpa using unattached)
        · rename_i attached
          obtain ⟨pool, pooled, rfl⟩ := Option.map_eq_some_iff.mp taken
          exact .push event overtaken logger notified pool _ alive (by simpa using attached) pooled
            rfl
      · cases taken
  | flush owner =>
      simp only [System.execute] at taken
      split at taken
      · rename_i logger notified alive
        split at taken
        · rename_i kept
          obtain rfl := Option.some.inj taken
          exact .keep owner logger notified alive kept
        · rename_i buffer passed
          exact .pass owner logger notified buffer s' alive passed taken
      · cases taken
  | renew owner =>
      simp only [System.execute] at taken
      split at taken <;> cases taken
      rename_i logger notified alive
      exact .renew owner logger notified alive
  | unsubscribe =>
      simp only [System.execute] at taken
      split at taken <;> cases taken
      rename_i logger notified alive
      exact .unsubscribe logger notified alive
  | leave =>
      simp only [System.execute] at taken
      split at taken <;> cases taken
      rename_i logger notified alive
      exact .leave logger notified alive
  | destroy =>
      simp only [System.execute] at taken
      split at taken <;> cases taken
      rename_i logger notified alive
      exact .destroy logger notified alive

theorem instructed_executed {rest : List (Instruction n α)} {instruction : Instruction n α}
    (instructed : Instructed s thread rest instruction s') : Executed thread s s' := by
  cases instructed with
  | ignore | keep | unsubscribe => exact (Executed.refl thread s).goto _
  | push event overtaken logger notified pool code alive _ pooled =>
      apply Executed.goto
      refine ⟨⟨fun _ _ => rfl, fun _ _ => rfl, fun _ _ => rfl⟩, rfl, rfl, ?_, rfl, .inl rfl, ?_⟩
      · rw [pooled]
        rfl
      · intro owner present
        refine ⟨present_update ?_ present, id⟩
        intro pushed
        rw [alive]
        exact (isSome_buffer_push _ logger pool event).symm.trans pushed
  | pass owner logger notified buffer _ alive passed entered =>
      have own : Local thread s s' := by
        refine Local.enter ?_ entered
        apply Local.goto
        exact ⟨fun _ _ => rfl, fun _ _ => rfl, fun _ _ => rfl⟩
      obtain ⟨queue, calls, rfl⟩ := enter_queue entered
      refine ⟨own, rfl, rfl, rfl, rfl, .inr ⟨buffer, calls⟩, ?_⟩
      intro other present
      refine ⟨present_update ?_ present, id⟩
      intro _
      rw [alive]
      exact Option.isSome_of_eq_some (buffer_of_flush passed)
  | renew owner logger notified alive =>
      refine (Executed.replaceLogger owner ?_).goto rest
      simp [ThreadLocal.present, alive]
  | leave logger notified alive =>
      have gone : (ThreadLocal.alive (detached logger) notified).present = true →
          (s.loggers thread).present = true := by
        simp [ThreadLocal.present, detached]
      have executed : Executed thread s _ := (Executed.replaceLogger thread gone).goto rest
      refine { executed with own := ?_, present := ?_ }
      · exact ⟨executed.own.code, executed.own.releasing, executed.own.clients⟩
      · intro owner present
        refine ⟨(executed.present owner present).1, ?_⟩
        intro member
        refine Finset.mem_erase.mpr ⟨?_, member⟩
        rintro rfl
        simp [System.goto, System.replaceLogger, ThreadLocal.present, detached] at present
  | destroy logger notified alive =>
      refine (Executed.replaceLogger thread ?_).goto rest
      simp [ThreadLocal.present]

/-- What a call can do next that goes through all loggers. -/
inductive Advanced (s : System n α κ) (thread : Fin n) : Position n κ → System n α κ → Prop where
  | initialized :
      Advanced s thread (.attach []) { s with initialized := true, call := none }
  | attach (owner : Fin n) (rest : List (Fin n)) (logger : EventLogger Owner α)
      (notified : Bool) : s.loggers owner = .alive logger notified →
      Advanced s thread (.attach (owner :: rest))
        { s.replaceLogger thread owner (.alive (logger.setPool true).1 notified) with
          call := some (thread, .attach rest) }
  | uninitialized : s.initialized = false →
      Advanced s thread .deinitializeRuntime { s with call := none }
  | deinitialized (order : List (Fin n)) : s.initialized = true → s.loops order = true →
      Advanced s thread .deinitializeRuntime
        { s with initialized := false, call := some (thread, .detach order) }
  | detach (owner : Fin n) (rest : List (Fin n)) (logger : EventLogger Owner α)
      (notified : Bool) : s.loggers owner = .alive logger notified →
      Advanced s thread (.detach (owner :: rest))
        ({ s with
          loggers := Function.update s.loggers owner (.alive logger false)
          call := some (thread, .drop owner rest) }.goto thread [.flush owner])
  | drop (owner : Fin n) (rest : List (Fin n)) (logger : EventLogger Owner α)
      (notified : Bool) : s.loggers owner = .alive logger notified →
      Advanced s thread (.drop owner rest)
        { s.replaceLogger thread owner (.alive (detached logger) notified) with
          call := some (thread, .detach rest) }
  | detached (order : List (Fin n)) (position : Position n κ) :
      position = .flush order none true ∨ position = .clear order true →
      Advanced s thread (.detach []) { s with call := some (thread, position) }
  | flush (owner : Fin n) (rest : List (Fin n)) (completion : Option κ) (deinitializing : Bool) :
      Advanced s thread (.flush (owner :: rest) completion deinitializing)
        ({ s with call := some (thread, .flush rest completion deinitializing) }.goto thread
          [.flush owner])
  | flushQueue (completion : Option κ) (deinitializing : Bool) (s' : System n α κ) :
      { s with
        call := if deinitializing then some (thread, .drainAndStop) else none }.enter thread
        (.flush completion) = some s' →
      Advanced s thread (.flush [] completion deinitializing) s'
  | clear (owner : Fin n) (rest : List (Fin n)) (deinitializing : Bool)
      (logger : EventLogger Owner α) (notified : Bool) :
      s.loggers owner = .alive logger notified →
      Advanced s thread (.clear (owner :: rest) deinitializing)
        { s.replaceLogger thread owner (.alive { logger with
            buffer := logger.buffer.map fun buffer => buffer.clear.1 } notified) with
          call := some (thread, .clear rest deinitializing) }
  | clearQueue (deinitializing : Bool) (s' : System n α κ) :
      { s with
        call := if deinitializing then some (thread, .drainAndStop) else none }.enter thread
        .clear = some s' →
      Advanced s thread (.clear [] deinitializing) s'
  | drainAndStop (s' : System n α κ) :
      { s with call := some (thread, .resetPool) }.enter thread .drainAndStop = some s' →
      Advanced s thread .drainAndStop s'
  | resetPool : Advanced s thread .resetPool { s with pool := none, call := none }

theorem advance_advanced {order : List (Fin n)} {position : Position n κ}
    (taken : s.advance o thread order position = some s') : Advanced s thread position s' := by
  cases position with
  | attach rest =>
      cases rest with
      | nil =>
          obtain rfl := Option.some.inj taken
          exact .initialized
      | cons owner rest =>
          simp only [System.advance] at taken
          split at taken <;> cases taken
          rename_i logger notified alive
          exact .attach owner rest logger notified alive
  | deinitializeRuntime =>
      simp only [System.advance] at taken
      split at taken
      · rename_i uninitialized
        obtain rfl := Option.some.inj taken
        exact .uninitialized (by simpa using uninitialized)
      · rename_i initialized
        split at taken <;> cases taken
        rename_i loops
        exact .deinitialized order (by simpa using initialized) (by simpa using loops)
  | detach rest =>
      cases rest with
      | nil =>
          simp only [System.advance] at taken
          split at taken <;> cases taken
          refine .detached order _ ?_
          cases o.flushAllEvents with
          | true => exact .inl rfl
          | false => exact .inr rfl
      | cons owner rest =>
          simp only [System.advance] at taken
          split at taken <;> cases taken
          rename_i logger notified alive
          exact .detach owner rest logger notified alive
  | drop owner rest =>
      simp only [System.advance] at taken
      split at taken <;> cases taken
      rename_i logger notified alive
      exact .drop owner rest logger notified alive
  | flush rest completion deinitializing =>
      cases rest with
      | nil => exact .flushQueue completion deinitializing s' taken
      | cons owner rest =>
          obtain rfl := Option.some.inj taken
          exact .flush owner rest completion deinitializing
  | clear rest deinitializing =>
      cases rest with
      | nil => exact .clearQueue deinitializing s' taken
      | cons owner rest =>
          simp only [System.advance] at taken
          split at taken <;> cases taken
          rename_i logger notified alive
          exact .clear owner rest deinitializing logger notified alive
  | drainAndStop => exact .drainAndStop s' taken
  | resetPool =>
      simp only [System.advance] at taken
      split at taken <;> cases taken
      exact .resetPool

end Spoor.Runtime.RuntimeManager
