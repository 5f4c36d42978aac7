import Spoor.FlushQueue.Draining
import Spoor.Runtime.Deinitialize

/-! # Nothing gets stuck

A thread inside the manager can always go on, or it joins the worker of the queue and
the worker can go on.  A step is missing where the source would use a logger or a pool
that is gone, start a second worker, or fail an expectation, so none of that happens
either.  Two things can spoil it: a `Clear` that takes the count of a record from the
worker, and the end of a thread whose logger `Deinitialize` has told to forget the
manager, which leaves a pointer to a logger that is gone.
-/

namespace Spoor.Runtime.RuntimeManager

open Buffer EventLogging FlushQueue FlushQueue.DiskFlushQueue Lib.Transition

variable {n : Nat} {α κ : Type} {o : Options α} {s s' : System n α κ} {thread : Fin n}

def ThreadLocal.isAlive : ThreadLocal α → Bool
  | .alive _ _ => true
  | _ => false

/-- The logger is there and knows the manager. -/
def ThreadLocal.isNotified : ThreadLocal α → Bool
  | .alive _ notified => notified
  | _ => false

def ThreadLocal.isAttached : ThreadLocal α → Bool
  | .alive logger _ => logger.attached
  | _ => false

/-- The loggers that a call still has to come to. -/
def Position.owners : Position n κ → List (Fin n)
  | .attach rest | .detach rest | .flush rest _ _ | .clear rest _ => rest
  | .drop owner rest => owner :: rest
  | _ => []

/-- The thread is in a call that goes through all loggers. -/
def System.calling (s : System n α κ) (thread : Fin n) : Prop :=
  ∃ position, s.call = some (thread, position)

/-- What a thread still has to do finds the loggers it is about. -/
def Ready (s : System n α κ) (thread : Fin n) : List (Instruction n α) → Prop
  | [] => True
  | .logEvent _ :: rest => (s.loggers thread).isAlive = true ∧ Ready s thread rest
  | .flush owner :: rest | .renew owner :: rest =>
      (s.loggers owner).isAlive = true ∧ (owner = thread ∨ s.calling thread) ∧ Ready s thread rest
  | .unsubscribe :: rest =>
      (s.loggers thread).isNotified = true ∧ ¬ s.calling thread ∧ rest = [.destroy]
  | .leave :: rest => (s.loggers thread).isAlive = true ∧ ¬ s.calling thread ∧ rest = [.destroy]
  | .destroy :: rest =>
      (s.loggers thread).isAlive = true ∧ ¬ s.calling thread ∧ thread ∉ s.eventLoggers ∧ rest = []

structure Lively (s : System n α κ) : Prop where
  subscribed : ∀ owner ∈ s.eventLoggers, (s.loggers owner).isAlive = true
  pooled : ∀ owner, (s.loggers owner).isAttached = true → s.pool.isSome = true
  attached : ∀ owner, (s.loggers owner).isAttached = true → (s.loggers owner).present = true
  ready : ∀ thread, Ready s thread (s.code thread)
  owners : ∀ caller position, s.call = some (caller, position) →
    ∀ owner ∈ position.owners, (s.loggers owner).isAlive = true

/-- A thread ends only while its logger knows the manager. -/
def ExitsNotified (s : System n α κ) : Action n α κ → Prop
  | .call thread .exit _ => (s.loggers thread).isNotified = true
  | _ => True

instance (s : System n α κ) : ∀ a, Decidable (ExitsNotified s a)
  | .call thread .exit _ => inferInstanceAs (Decidable ((s.loggers thread).isNotified = true))
  | .call _ .initializeRuntime _ | .call _ .deinitializeRuntime _ | .call _ .enable _
  | .call _ .disable _ | .call _ (.flush _) _ | .call _ .clear _ | .call _ (.logEvent _) _
  | .thread _ _ _ _ | .worker _ _ => inferInstanceAs (Decidable True)

theorem Lively.initial : Lively (initial : System n α κ) := by
  constructor <;> simp [RuntimeManager.initial, ThreadLocal.isAttached, Ready]

/-! ## Loggers stay usable -/

/-- A step of another thread, in or outside of a call. -/
theorem Ready.keeps {code : List (Instruction n α)} (ready : Ready s thread code)
    (alive : ∀ owner, owner = thread ∨ s.calling thread → (s.loggers owner).isAlive = true →
      (s'.loggers owner).isAlive = true)
    (notified : ¬ s.calling thread → (s.loggers thread).isNotified = true →
      (s'.loggers thread).isNotified = true)
    (calling : s'.calling thread ↔ s.calling thread)
    (apart : thread ∉ s.eventLoggers → thread ∉ s'.eventLoggers) : Ready s' thread code := by
  induction code with
  | nil => trivial
  | cons instruction rest ih =>
      cases instruction with
      | logEvent event => exact ⟨alive thread (.inl rfl) ready.1, ih ready.2⟩
      | flush owner | renew owner =>
          obtain ⟨there, own, later⟩ := ready
          exact ⟨alive owner own there, own.imp_right calling.mpr, ih later⟩
      | unsubscribe =>
          obtain ⟨knows, outside, later⟩ := ready
          exact ⟨notified outside knows, outside ∘ calling.mp, later⟩
      | leave =>
          obtain ⟨there, outside, later⟩ := ready
          exact ⟨alive thread (.inl rfl) there, outside ∘ calling.mp, later⟩
      | destroy =>
          obtain ⟨there, outside, left, later⟩ := ready
          exact ⟨alive thread (.inl rfl) there, outside ∘ calling.mp, apart left, later⟩

theorem isAlive_of_alive {logger : EventLogger Owner α} {notified : Bool} {owner : Fin n}
    (alive : s.loggers owner = .alive logger notified) : (s.loggers owner).isAlive = true := by
  rw [alive]
  rfl

theorem isAlive_of_isNotified {logger : ThreadLocal α} (notified : logger.isNotified = true) :
    logger.isAlive = true := by
  cases logger <;> simp_all [ThreadLocal.isNotified, ThreadLocal.isAlive]

theorem alive_of_isAlive {owner : Fin n} (alive : (s.loggers owner).isAlive = true) :
    ∃ logger notified, s.loggers owner = .alive logger notified := by
  cases held : s.loggers owner with
  | alive logger notified => exact ⟨logger, notified, rfl⟩
  | unconstructed | destroyed => simp [held, ThreadLocal.isAlive] at alive

/-- A logger that is there is replaced by one that is there. -/
theorem isAlive_update {owner other : Fin n} {logger : EventLogger Owner α} {notified : Bool}
    (alive : (s.loggers other).isAlive = true) :
    (Function.update s.loggers owner (.alive logger notified) other).isAlive = true := by
  by_cases same : other = owner
  · subst same
    rw [Function.update_self]
    rfl
  · rwa [Function.update_of_ne same]

/-- Steps that are not about loggers. -/
theorem Lively.frame (lively : Lively s) (loggers : s'.loggers = s.loggers)
    (eventLoggers : s'.eventLoggers = s.eventLoggers) (code : s'.code = s.code)
    (call : s'.call = s.call) (pool : s'.pool.isSome = s.pool.isSome) : Lively s' := by
  have calling : ∀ thread, s'.calling thread ↔ s.calling thread := by
    simp [System.calling, call]
  constructor
  · rw [loggers, eventLoggers]
    exact lively.subscribed
  · rw [loggers, pool]
    exact lively.pooled
  · rw [loggers]
    exact lively.attached
  · intro thread
    rw [code]
    exact (lively.ready thread).keeps (by simp [loggers]) (by simp [loggers]) (calling thread)
      (by simp [eventLoggers])
  · rw [call, loggers]
    exact lively.owners

/-- Steps that begin or continue a call while no thread has anything to do. -/
theorem Lively.calls (lively : Lively s) (code : ∀ thread, s'.code thread = [])
    (loggers : s'.loggers = s.loggers) (eventLoggers : s'.eventLoggers = s.eventLoggers)
    (pool : s.pool.isSome = true → s'.pool.isSome = true)
    (owners : ∀ caller position, s'.call = some (caller, position) →
      ∀ owner ∈ position.owners, (s.loggers owner).isAlive = true) : Lively s' := by
  constructor
  · rw [loggers, eventLoggers]
    exact lively.subscribed
  · rw [loggers]
    exact fun owner attached => pool (lively.pooled owner attached)
  · rw [loggers]
    exact lively.attached
  · intro thread
    rw [code]
    trivial
  · rw [loggers]
    exact owners

theorem Lively.goto (lively : Lively s) {code : List (Instruction n α)}
    (ready : Ready s thread code) : Lively (s.goto thread code) := by
  refine ⟨lively.subscribed, lively.pooled, lively.attached, ?_, lively.owners⟩
  intro other
  by_cases same : other = thread
  · subst same
    simpa [System.goto] using @Ready.keeps _ _ _ s (s.goto other code) other _ ready
      (fun _ _ => id) (fun _ => id)
      .rfl id
  · simpa [System.goto, same] using @Ready.keeps _ _ _ s (s.goto thread code) other _
      (lively.ready other) (fun _ _ => id) (fun _ => id) .rfl id

theorem Lively.of_loops (lively : Lively s) {order : List (Fin n)}
    (loops : s.loops order = true) : ∀ owner ∈ order, (s.loggers owner).isAlive = true :=
  fun owner member => lively.subscribed owner ((mem_of_loops loops).mp member)

theorem attached_setPool (logger : EventLogger Owner α) (attached notified : Bool) :
    (ThreadLocal.alive (logger.setPool attached).1 notified).isAttached = attached ∧
      (ThreadLocal.alive (logger.setPool attached).1 notified).present = attached := by
  cases attached <;> simp [EventLogger.setPool, ThreadLocal.isAttached, ThreadLocal.present]

/-- A thread that comes to the manager has a logger afterwards. -/
theorem construct_lively (lively : Lively s) (code : s.code thread = [])
    (constructed : s.construct o thread = some s') :
    Lively s' ∧ (s'.loggers thread).isAlive = true := by
  simp only [System.construct] at constructed
  split at constructed
  · obtain rfl := Option.some.inj constructed
    obtain ⟨attaches, presents⟩ := attached_setPool
      (EventLogger.new ⟨o.threadEventBufferCapacity, o.flushAllEvents⟩ : EventLogger Owner α)
      s.pool.isSome true
    refine ⟨⟨?_, ?_, ?_, ?_, ?_⟩, by simp [ThreadLocal.isAlive]⟩
    · intro owner member
      refine (Finset.mem_insert.mp member).elim ?_ ?_
      · rintro rfl
        simp [ThreadLocal.isAlive]
      · exact fun subscribed => isAlive_update (lively.subscribed owner subscribed)
    · exact (Function.forall_update_iff s.loggers fun _ logger =>
        logger.isAttached = true → s.pool.isSome = true).mpr
        ⟨attaches.symm.trans, fun owner _ => lively.pooled owner⟩
    · exact (Function.forall_update_iff s.loggers fun _ logger =>
        logger.isAttached = true → logger.present = true).mpr
        ⟨fun attached => presents.trans (attaches.symm.trans attached),
          fun owner _ => lively.attached owner⟩
    · intro other
      by_cases same : other = thread
      · subst same
        simp only [code]
        trivial
      · refine (lively.ready other).keeps (fun owner _ => isAlive_update) ?_ .rfl ?_
        · simp [Function.update_of_ne same]
        · simp [Finset.mem_insert, same]
    · intro caller position called owner member
      exact isAlive_update (lively.owners caller position called owner member)
  · obtain rfl := Option.some.inj constructed
    rename_i logger notified alive
    exact ⟨lively, isAlive_of_alive alive⟩
  · cases constructed

@[simp] theorem goto_self (s : System n α κ) (thread : Fin n) (code : List (Instruction n α)) :
    (s.goto thread code).code thread = code := Function.update_self ..

theorem not_calling (uncalled : s.call = none) (thread : Fin n) : ¬ s.calling thread := by
  simp [System.calling, uncalled]

theorem call_lively {method : Method α κ} {order : List (Fin n)} (lively : Lively s)
    (notified : ExitsNotified s (.call thread method order))
    (taken : s.callStep o thread method order = some s') : Lively s' := by
  simp only [System.callStep, System.begin] at taken
  split at taken
  · cases taken
  · rename_i outside
    obtain ⟨idle, -⟩ := outside_iff.mp (by simpa using outside)
    have alone : ∀ {other : Fin n}, (∀ other, s.outside other = true) → s.code other = [] :=
      fun outside => (outside_iff.mp (outside _)).1
    cases method with
    | enable =>
        obtain rfl := Option.some.inj taken
        split
        · exact lively.frame rfl rfl rfl rfl rfl
        · exact lively
    | disable =>
        obtain rfl := Option.some.inj taken
        exact lively.frame rfl rfl rfl rfl rfl
    | logEvent event =>
        simp only at taken
        split at taken
        · cases taken
        · obtain ⟨t, constructed, rfl⟩ := Option.map_eq_some_iff.mp taken
          obtain ⟨after, alive⟩ := construct_lively lively idle constructed
          split
          · exact after.goto ⟨alive, trivial⟩
          · exact after
    | exit =>
        simp only at taken
        split at taken
        · rename_i logger knows uncalled alive
          obtain rfl := Option.some.inj taken
          exact lively.goto ⟨isAlive_of_alive alive, .inl rfl, notified,
            not_calling (Option.isNone_iff_eq_none.mp uncalled) thread, rfl⟩
        · cases taken
    | initializeRuntime =>
        simp only at taken
        split at taken
        · cases taken
        · rename_i free
          obtain ⟨-, outside⟩ : s.call = none ∧ ∀ other, s.outside other = true := by
            simpa using free
          split at taken
          · obtain rfl := Option.some.inj taken
            exact lively
          · split at taken
            · cases taken
            · rename_i ready
              simp only [Bool.or_eq_true, not_or, Bool.not_eq_true', Bool.not_eq_false] at ready
              obtain ⟨queue, -, rfl⟩ := enter_queue taken
              refine lively.calls (fun other => alone outside) rfl rfl (fun _ => rfl) ?_
              rintro _ _ ⟨⟩
              exact lively.of_loops ready.1
    | deinitializeRuntime =>
        simp only at taken
        split at taken
        · cases taken
        · rename_i free
          obtain ⟨-, outside⟩ : s.call = none ∧ ∀ other, s.outside other = true := by
            simpa using free
          obtain rfl := Option.some.inj taken
          refine lively.calls (fun other => alone outside) rfl rfl id ?_
          rintro _ _ ⟨⟩ owner ⟨⟩
    | flush completion =>
        simp only at taken
        split at taken
        · cases taken
        · rename_i free
          simp only [Bool.or_eq_true, not_or, Bool.not_eq_true', Bool.not_eq_false] at free
          obtain ⟨-, outside⟩ : s.call = none ∧ ∀ other, s.outside other = true := by
            simpa using free.1
          obtain rfl := Option.some.inj taken
          refine lively.calls (fun other => alone outside) rfl rfl id ?_
          rintro _ _ ⟨⟩
          exact lively.of_loops free.2
    | clear =>
        simp only at taken
        split at taken
        · cases taken
        · rename_i free
          simp only [Bool.or_eq_true, not_or, Bool.not_eq_true', Bool.not_eq_false] at free
          obtain ⟨-, outside⟩ : s.call = none ∧ ∀ other, s.outside other = true := by
            simpa using free.1
          obtain rfl := Option.some.inj taken
          refine lively.calls (fun other => alone outside) rfl rfl id ?_
          rintro _ _ ⟨⟩
          exact lively.of_loops free.2

/-- A logger is replaced by one that is there. -/
theorem Lively.update (lively : Lively s) {owner : Fin n} {after : ThreadLocal α}
    (there : after.isAlive = true)
    (attached : after.isAttached = true → s.pool.isSome = true ∧ after.present = true)
    (loggers : s'.loggers = Function.update s.loggers owner after)
    (eventLoggers : s'.eventLoggers ⊆ s.eventLoggers) (pool : s'.pool.isSome = s.pool.isSome)
    (ready : ∀ thread, Ready s' thread (s'.code thread))
    (owners : ∀ caller position, s'.call = some (caller, position) →
      ∀ owner ∈ position.owners, (s.loggers owner).isAlive = true) : Lively s' := by
  have alive : ∀ other, (s.loggers other).isAlive = true → (s'.loggers other).isAlive = true := by
    rw [loggers]
    exact (Function.forall_update_iff s.loggers fun other logger =>
      (s.loggers other).isAlive = true → logger.isAlive = true).mpr
      ⟨fun _ => there, fun _ _ => id⟩
  refine ⟨?_, ?_, ?_, ready, ?_⟩
  · exact fun other member => alive other (lively.subscribed other (eventLoggers member))
  · rw [loggers, pool]
    exact (Function.forall_update_iff s.loggers fun _ logger =>
      logger.isAttached = true → s.pool.isSome = true).mpr
      ⟨fun attaches => (attached attaches).1, fun other _ => lively.pooled other⟩
  · rw [loggers]
    exact (Function.forall_update_iff s.loggers fun _ logger =>
      logger.isAttached = true → logger.present = true).mpr
      ⟨fun attaches => (attached attaches).2, fun other _ => lively.attached other⟩
  · exact fun caller position called other member =>
      alive other (owners caller position called other member)

/-- What an attached logger has. -/
theorem Lively.of_attached (lively : Lively s) {owner : Fin n} {logger : EventLogger Owner α}
    {notified : Bool} (alive : s.loggers owner = .alive logger notified)
    (attached : logger.attached = true) :
    s.pool.isSome = true ∧ logger.buffer.isSome = true := by
  have attaches : (s.loggers owner).isAttached = true := by
    rw [alive]
    exact attached
  have presents := lively.attached owner attaches
  rw [alive] at presents
  exact ⟨lively.pooled owner attaches, presents⟩

section Execute

variable {instruction : Instruction n α} {rest : List (Instruction n α)}

/-- A logger is replaced by one that is there and knows the manager if it did; the
    thread that does this goes on. -/
theorem Lively.replace (lively : Lively s) {owner : Fin n}
    {before after : EventLogger Owner α} {notified : Bool}
    (alive : s.loggers owner = .alive before notified)
    (attached : after.attached = true → s.pool.isSome = true ∧ after.buffer.isSome = true)
    (loggers : s'.loggers = Function.update s.loggers owner (.alive after notified))
    (eventLoggers : s'.eventLoggers ⊆ s.eventLoggers) (pool : s'.pool.isSome = s.pool.isSome)
    (call : s'.call = s.call) (code : ∀ other, other ≠ thread → s'.code other = s.code other)
    (ready : (∀ code, Ready s thread code → Ready s' thread code) →
      Ready s' thread (s'.code thread)) : Lively s' := by
  have calling : ∀ other, s'.calling other ↔ s.calling other := by simp [System.calling, call]
  have keeps : ∀ other code, Ready s other code → Ready s' other code := by
    intro other code held
    refine held.keeps ?_ ?_ (calling other) fun left member => left (eventLoggers member)
    · rw [loggers]
      exact fun owner _ => isAlive_update
    · intro _ knows
      rw [loggers]
      by_cases same : other = owner
      · subst same
        rw [alive] at knows
        rwa [Function.update_self]
      · rwa [Function.update_of_ne same]
  refine lively.update (show (ThreadLocal.alive after notified).isAlive = true from rfl) attached
    loggers eventLoggers pool ?_ (call ▸ lively.owners)
  intro other
  by_cases same : other = thread
  · subst same
    exact ready (keeps other)
  · rw [code other same]
    exact keeps other _ (lively.ready other)

theorem execute_lively (lively : Lively s) (exclusive : Exclusive s)
    (next : s.code thread = instruction :: rest)
    (instructed : Instructed s thread rest instruction s') : Lively s' := by
  have ready := lively.ready thread
  rw [next] at ready
  have apart : ∀ (t : System n α κ) (code : List (Instruction n α)), t.code = s.code →
      ∀ other, other ≠ thread → (t.goto thread code).code other = s.code other := by
    intro t code same other differ
    rw [System.goto, same]
    exact Function.update_of_ne differ _ _
  cases instructed with
  | ignore event logger notified alive unattached => exact lively.goto ready.2
  | push event overtaken logger notified pool code alive attached pooled chosen =>
      refine lively.replace alive ?_ rfl (Finset.Subset.refl _) (by simp [System.goto, pooled]) rfl
        (apart _ _ rfl) ?_
      · intro _
        refine ⟨(lively.of_attached alive attached).1, ?_⟩
        rw [isSome_buffer_push]
        exact (lively.of_attached alive attached).2
      · intro keeps
        rw [goto_self]
        split at chosen <;> subst chosen
        · exact ⟨by simp [System.goto, ThreadLocal.isAlive], .inl rfl, keeps _ ready.2⟩
        · exact keeps _ ready.2
  | keep owner logger notified alive kept => exact lively.goto ready.2.2
  | pass owner logger notified buffer _ alive passed entered =>
      obtain ⟨queue, -, rfl⟩ := enter_queue entered
      refine lively.replace alive ?_ rfl (Finset.Subset.refl _) rfl rfl (apart _ _ rfl) ?_
      · exact fun attached => ⟨(lively.of_attached alive attached).1, rfl⟩
      · intro keeps
        simp only [System.goto, Function.update_self]
        exact ⟨by simp [ThreadLocal.isAlive], ready.2.1, keeps rest ready.2.2⟩
  | renew owner logger notified alive =>
      refine lively.replace alive ?_ rfl (Finset.Subset.refl _) rfl rfl (apart _ _ rfl) ?_
      · intro attached
        refine ⟨(lively.of_attached alive attached).1, ?_⟩
        rw [Option.isSome_map]
        exact (lively.of_attached alive attached).2
      · intro keeps
        simp only [System.goto, Function.update_self]
        exact keeps rest ready.2.2
  | unsubscribe logger notified alive =>
      obtain ⟨knows, outside, rfl⟩ := ready
      have true : notified = true := by
        rw [alive] at knows
        exact knows
      rw [if_pos true]
      exact lively.goto ⟨isAlive_of_alive alive, .inl rfl, isAlive_of_alive alive, outside, rfl⟩
  | leave logger notified alive =>
      obtain ⟨there, outside, rfl⟩ := ready
      refine lively.replace alive (by simp [detached]) rfl (Finset.erase_subset _ _) rfl rfl
        (apart _ _ rfl) ?_
      intro keeps
      simp only [System.goto, Function.update_self]
      exact ⟨by simp [System.replaceLogger, ThreadLocal.isAlive], outside,
        Finset.notMem_erase _ _, rfl⟩
  | destroy logger notified alive =>
      obtain ⟨there, outside, left, rfl⟩ := ready
      have uncalled : s.call = none := by
        by_contra called
        obtain ⟨⟨caller, position⟩, calls⟩ := Option.ne_none_iff_exists'.mp called
        by_cases own : thread = caller
        · exact outside ⟨position, own ▸ calls⟩
        · rw [(exclusive caller position calls thread own).1] at next
          cases next
      refine ⟨?_, ?_, ?_, ?_, by simp [System.goto, System.replaceLogger, uncalled]⟩
      · intro owner member
        have differ : owner ≠ thread := fun same => left (same ▸ member)
        simpa [System.goto, System.replaceLogger, differ] using lively.subscribed owner member
      · exact (Function.forall_update_iff s.loggers fun _ logger =>
          logger.isAttached = true → s.pool.isSome = true).mpr
          ⟨by simp [ThreadLocal.isAttached], fun owner _ => lively.pooled owner⟩
      · exact (Function.forall_update_iff s.loggers fun _ logger =>
          logger.isAttached = true → logger.present = true).mpr
          ⟨by simp [ThreadLocal.isAttached], fun owner _ => lively.attached owner⟩
      · intro other
        by_cases same : other = thread
        · subst same
          simp [System.goto, Ready]
        · rw [apart (s.replaceLogger thread thread .destroyed) [] rfl other same]
          refine (lively.ready other).keeps ?_ ?_ .rfl id
          · rintro owner (rfl | ⟨position, calls⟩) there
            · simpa [System.goto, System.replaceLogger, same] using there
            · simp [uncalled] at calls
          · intro _ knows
            simpa [System.goto, System.replaceLogger, same] using knows

end Execute

/-! ## A call that goes through all loggers -/

/-- `Deinitialize` goes on with all loggers when it has detached the last one. -/
theorem advance_last {order : List (Fin n)}
    (taken : s.advance o thread order (.detach []) = some s') :
    s.loops order = true ∧
      ∃ position, position.owners = order ∧ s' = { s with call := some (thread, position) } := by
  simp only [System.advance] at taken
  split at taken <;> cases taken
  rename_i loops
  refine ⟨by simpa using loops, _, ?_, rfl⟩
  split <;> rfl

/-- A logger is replaced while no thread has anything to do. -/
theorem Lively.exchange (lively : Lively s) {owner : Fin n} {after : EventLogger Owner α}
    {notified : Bool}
    (attached : after.attached = true → s.pool.isSome = true ∧ after.buffer.isSome = true)
    (loggers : s'.loggers = Function.update s.loggers owner (.alive after notified))
    (eventLoggers : s'.eventLoggers = s.eventLoggers) (pool : s'.pool = s.pool)
    (code : ∀ thread, s'.code thread = [])
    (owners : ∀ caller position, s'.call = some (caller, position) →
      ∀ owner ∈ position.owners, (s.loggers owner).isAlive = true) : Lively s' := by
  refine lively.update (show (ThreadLocal.alive after notified).isAlive = true from rfl) attached
    loggers eventLoggers.subset (congrArg _ pool) ?_ owners
  intro thread
  rw [code]
  trivial

/-- The caller goes on with the code it is given, and nobody else has any. -/
theorem ready_goto {code : List (Instruction n α)} (idle : ∀ other, s.code other = [])
    (ready : Ready (s.goto thread code) thread code) (other : Fin n) :
    Ready (s.goto thread code) other ((s.goto thread code).code other) := by
  by_cases same : other = thread
  · subst same
    rwa [goto_self]
  · have none : (s.goto thread code).code other = [] :=
      (Function.update_of_ne same _ _).trans (idle other)
    rw [none]
    trivial

theorem advance_lively {position : Position n κ} {order : List (Fin n)} (lively : Lively s)
    (phased : Phased s) (detached : Detached s) (code : ∀ other, s.code other = [])
    (called : s.call = some (thread, position))
    (taken : s.advance o thread order position = some s') : Lively s' := by
  by_cases last : position = .detach []
  · subst last
    obtain ⟨loops, position, rfl, rfl⟩ := advance_last taken
    refine lively.calls code rfl rfl id ?_
    rintro _ _ ⟨⟩
    exact lively.of_loops loops
  · have owners := lively.owners thread position called
    have later : ∀ {next : Position n κ} {call : Option (Fin n × Position n κ)},
        call = some (thread, next) → (∀ owner ∈ next.owners, owner ∈ position.owners) →
        ∀ caller after, call = some (caller, after) →
          ∀ owner ∈ after.owners, (s.loggers owner).isAlive = true := by
      rintro next _ rfl fewer caller after ⟨⟩ owner member
      exact owners owner (fewer owner member)
    cases advance_advanced taken with
    | initialized | uninitialized => exact lively.calls code rfl rfl id (by simp)
    | resetPool =>
        have none : ∀ owner, (s.loggers owner).isAttached = false := by
          intro owner
          by_contra attached
          have present := lively.attached owner (by simpa using attached)
          cases detached.awaited thread _ called owner present
        refine ⟨lively.subscribed, ?_, lively.attached, ?_, by simp⟩
        · intro owner attached
          rw [none owner] at attached
          cases attached
        · intro other
          rw [code]
          trivial
    | attach owner rest logger notified alive =>
        have pooled : s.pool.isSome = true := by
          rw [phased.pooled]
          simp [System.busy, called, Position.resting]
        refine lively.exchange ?_ rfl rfl rfl code (later rfl fun _ => List.mem_cons_of_mem _)
        exact fun _ => ⟨pooled, by simp [EventLogger.setPool]⟩
    | deinitialized order _ loops =>
        refine lively.calls code rfl rfl id ?_
        rintro _ _ ⟨⟩
        exact lively.of_loops loops
    | detach owner rest logger notified alive =>
        refine lively.update (show (ThreadLocal.alive logger false).isAlive = true from rfl)
          (lively.of_attached alive) rfl (Finset.Subset.refl _) rfl ?_ (later rfl fun _ => id)
        apply ready_goto
        · exact code
        · exact ⟨by simp [System.goto, ThreadLocal.isAlive], .inr ⟨_, rfl⟩, trivial⟩
    | drop owner rest logger notified alive =>
        refine lively.exchange ?_ rfl rfl rfl code (later rfl fun _ => List.mem_cons_of_mem _)
        simp [RuntimeManager.detached]
    | detached => exact absurd rfl last
    | flush owner rest completion deinitializing =>
        have moved : Lively { s with
            call := some (thread, .flush rest completion deinitializing) } :=
          lively.calls code rfl rfl id (later rfl fun _ => List.mem_cons_of_mem _)
        exact moved.goto ⟨owners owner List.mem_cons_self, .inr ⟨_, rfl⟩, trivial⟩
    | flushQueue completion deinitializing _ entered | clearQueue deinitializing _ entered =>
        obtain ⟨queue, -, rfl⟩ := enter_queue entered
        cases deinitializing with
        | true => exact lively.calls code rfl rfl id (later rfl fun _ => by simp [Position.owners])
        | false => exact lively.calls code rfl rfl id (by simp)
    | clear owner rest deinitializing logger notified alive =>
        refine lively.exchange ?_ rfl rfl rfl code (later rfl fun _ => List.mem_cons_of_mem _)
        intro attached
        refine ⟨(lively.of_attached alive attached).1, ?_⟩
        rw [Option.isSome_map]
        exact (lively.of_attached alive attached).2
    | drainAndStop _ entered =>
        obtain ⟨queue, -, rfl⟩ := enter_queue entered
        exact lively.calls code rfl rfl id (later rfl fun _ => by simp [Position.owners])

theorem thread_lively {now : Int} {overtaken : Overtaken} {order : List (Fin n)}
    (lively : Lively s) (sound : Sound s)
    (taken : s.threadStep o thread now overtaken order = some s') : Lively s' := by
  cases thread_threaded taken with
  | giveBack ptr rest pool releasing pooled =>
      exact lively.frame rfl rfl rfl rfl (by rw [pooled]; rfl)
  | client now queue => exact lively.frame rfl rfl rfl rfl rfl
  | execute instruction rest overtaken _ _ _ next executes =>
      exact execute_lively lively sound.exclusive next (execute_instructed executes)
  | advance position order _ _ _ code called advances =>
      refine advance_lively lively sound.phased sound.detached ?_ called advances
      intro other
      by_cases same : other = thread
      · exact same ▸ code
      · exact (sound.exclusive thread position called other same).1

theorem worker_lively {now : Int} {ok : Bool} (lively : Lively s)
    (taken : s.workerStep o now ok = some s') : Lively s' := by
  cases worker_worked taken with
  | giveBack ptr rest pool releasing pooled =>
      exact lively.frame rfl rfl rfl rfl (by rw [pooled]; rfl)
  | move => exact lively.frame rfl rfl rfl rfl rfl

theorem run_lively {labels : List (Action n α κ)}
    (clears : Meets (step o) ClearsUnheld initial labels)
    (exits : Meets (step o) ExitsNotified initial labels)
    (reached : exec (step o) initial labels = some s) : Sound s ∧ Lively s := by
  refine invariant (fun s a => ClearsUnheld s a ∧ ExitsNotified s a)
    (fun s => Sound s ∧ Lively s) ⟨.initially, .initial⟩ ?_ (clears.and exits) reached
  rintro s a s' ⟨sound, lively⟩ ⟨clears, exits⟩ taken
  refine ⟨step_sound sound clears taken, ?_⟩
  cases a with
  | call thread method order => exact call_lively lively exits taken
  | thread thread now overtaken order => exact thread_lively lively sound taken
  | worker now ok => exact worker_lively lively taken

/-! ## Progress -/

/-- The thread can take its next step, whatever the clock reads and however its borrows
    are overtaken. -/
def System.Proceeds (o : Options α) (s : System n α κ) (thread : Fin n) : Prop :=
  ∃ order, ∀ now overtaken, (s.threadStep o thread now overtaken order).isSome = true

/-- So can the worker, whatever its writes answer. -/
def System.WorkerProceeds (o : Options α) (s : System n α κ) : Prop :=
  ∀ now ok, (s.workerStep o now ok).isSome = true

/-- The thread has a logger to log with, or to destroy. -/
def Method.Possible (logger : ThreadLocal α) : Method α κ → Prop
  | .logEvent _ => logger ≠ .destroyed
  | .exit => logger.isAlive = true
  | _ => True

section Progress

theorem exists_loops (s : System n α κ) : ∃ order, s.loops order = true :=
  ⟨s.eventLoggers.toList, by simp [System.loops, Finset.nodup_toList]⟩

theorem enter_isSome {method : Call (CircularSliceBuffer Owner α) κ}
    (idle : s.queue.clients thread = .idle) : (s.enter thread method).isSome = true := by
  cases method <;> simp [System.enter, callStep, idle]

/-- Slices are only given back to a pool. -/
theorem System.Conserved.pooled (conserved : s.Conserved) (out : s.tokens ≠ 0) :
    s.pool.isSome = true := by
  cases pool : s.pool with
  | some pool => rfl
  | none =>
      simp only [System.Conserved, pool] at conserved
      exact absurd conserved out

theorem tokens_of_releasing {ptr : SlicePtr α} {rest : List (SlicePtr α)}
    (releasing : s.releasing thread = ptr :: rest) : s.tokens ≠ 0 := by
  have held : ptr.token ∈ releasingTokens s.releasing := by
    rw [releasingTokens, Multiset.mem_sum]
    exact ⟨thread, Finset.mem_univ _, by simp [releasing]⟩
  intro none
  simp only [System.tokens, add_eq_zero] at none
  simp [none] at held

theorem tokens_of_workerReleasing {ptr : SlicePtr α} {rest : List (SlicePtr α)}
    (releasing : s.workerReleasing = ptr :: rest) : s.tokens ≠ 0 := by
  intro none
  simp only [System.tokens, add_eq_zero] at none
  simp [releasing] at none

theorem worker_proceeds (sound : Sound s) (active : s.queue.worker.active = true)
    (room : s.queue.guarded.queue.length < dequeMaxSize) : s.WorkerProceeds o := by
  intro now ok
  rw [System.workerStep]
  cases releasing : s.workerReleasing with
  | cons ptr rest =>
      simpa using sound.conserved.pooled (tokens_of_workerReleasing releasing)
  | nil => simpa using worker_enabled active room

/-- A thread inside the queue moves on, or it waits for the worker. -/
theorem client_proceeds (phased : Phased s) (busy : s.queue.clients thread ≠ .idle)
    (room : s.queue.guarded.queue.length < dequeMaxSize) :
    (∀ now, (clientStep o.queue s.queue thread now).isSome = true) ∨
      s.queue.clients thread = .drainJoin ∧ s.queue.worker.active = true := by
  cases position : s.queue.clients thread with
  | idle => exact absurd position busy
  | runSpawn =>
      obtain ⟨place, called, switches⟩ := phased.switching thread (by rw [position]; rfl)
      rw [position] at switches
      have phase : s.phase = .launched := by
        rcases switches_cases switches with ⟨rest, rfl, -⟩ | ⟨-, wrong⟩
        · simp only [System.phase, called, position]
          rfl
        · rcases wrong with wrong | wrong | wrong <;> cases wrong
      have launched : Launched s.queue := phased.holds phase
      refine .inl fun now => ?_
      simp [clientStep, position, launched.worker]
  | drainJoin =>
      cases worker : s.queue.worker with
      | absent | finished => exact .inl fun now => by simp [clientStep, position, worker]
      | _ => exact .inr ⟨rfl, rfl⟩
  | enqueueLock buffer flushTimestamp => exact .inl fun now => by simp [clientStep, position, room]
  | _ =>
      refine .inl fun now => ?_
      simp only [clientStep, position]
      repeat split
      all_goals rfl

theorem execute_proceeds {instruction : Instruction n α} {rest : List (Instruction n α)}
    (lively : Lively s) (idle : s.queue.clients thread = .idle)
    (next : s.code thread = instruction :: rest) (overtaken : Overtaken) :
    (s.execute thread overtaken rest instruction).isSome = true := by
  have ready := lively.ready thread
  rw [next] at ready
  cases instruction with
  | logEvent event =>
      obtain ⟨logger, notified, alive⟩ := alive_of_isAlive ready.1
      cases attached : logger.attached with
      | false => simp [System.execute, alive, attached]
      | true =>
          simp only [System.execute, alive, attached, Bool.not_true, Bool.false_eq_true, if_false,
            Option.isSome_map]
          exact (lively.of_attached alive attached).1
  | flush owner =>
      obtain ⟨logger, notified, alive⟩ := alive_of_isAlive ready.1
      simp only [System.execute, alive]
      split
      · rfl
      · apply enter_isSome
        exact idle
  | renew owner =>
      obtain ⟨logger, notified, alive⟩ := alive_of_isAlive ready.1
      simp [System.execute, alive]
  | unsubscribe =>
      obtain ⟨logger, notified, alive⟩ := alive_of_isAlive (isAlive_of_isNotified ready.1)
      simp [System.execute, alive]
  | leave | destroy =>
      obtain ⟨logger, notified, alive⟩ := alive_of_isAlive ready.1
      simp [System.execute, alive]

theorem advance_proceeds {position : Position n κ} (lively : Lively s) (sound : Sound s)
    (released : s.releasing thread = []) (idle : s.queue.clients thread = .idle)
    (called : s.call = some (thread, position)) :
    ∃ order, (s.advance o thread order position).isSome = true := by
  obtain ⟨order, loops⟩ := exists_loops s
  have owners := lively.owners thread position called
  refine ⟨order, ?_⟩
  cases position with
  | attach rest | clear rest | detach rest =>
      cases rest with
      | nil =>
          simp only [System.advance]
          first | rfl | exact enter_isSome idle | simp [loops]
      | cons owner rest =>
          obtain ⟨logger, notified, alive⟩ := alive_of_isAlive (owners owner List.mem_cons_self)
          simp [System.advance, alive]
  | drop owner rest =>
      obtain ⟨logger, notified, alive⟩ := alive_of_isAlive (owners owner List.mem_cons_self)
      simp [System.advance, alive]
  | deinitializeRuntime =>
      simp only [System.advance, loops]
      split <;> rfl
  | flush rest completion deinitializing =>
      cases rest with
      | nil => exact enter_isSome idle
      | cons owner rest => rfl
  | drainAndStop => exact enter_isSome idle
  | resetPool =>
      obtain ⟨loggers, threads, queue, carried, releasing⟩ :=
        hands_empty sound.exclusive sound.phased sound.detached called released idle
      have none : s.tokens = 0 := tokens_of_hands_empty loggers threads queue carried releasing
      have full : s.pool.all CombinedBufferSlicePool.full = true := by
        cases pool : s.pool with
        | none => rfl
        | some pool =>
            have conserved := sound.conserved
            simp only [System.Conserved, pool, none] at conserved
            exact conserved.isFull
      simp [System.advance, full]

/-- A thread inside the manager moves on, or it waits for the worker. -/
theorem thread_proceeds (lively : Lively s) (sound : Sound s) (inside : s.outside thread = false)
    (room : s.queue.guarded.queue.length < dequeMaxSize) :
    s.Proceeds o thread ∨ s.queue.clients thread = .drainJoin ∧ s.queue.worker.active = true := by
  cases releasing : s.releasing thread with
  | cons ptr rest =>
      refine .inl ⟨[], fun now overtaken => ?_⟩
      simpa [System.threadStep, releasing] using
        sound.conserved.pooled (tokens_of_releasing releasing)
  | nil =>
      by_cases idle : s.queue.clients thread = .idle
      · cases code : s.code thread with
        | cons instruction rest =>
            refine .inl ⟨[], fun now overtaken => ?_⟩
            simpa [System.threadStep, releasing, idle, Client.isIdle, code] using
              execute_proceeds lively idle code overtaken
        | nil =>
            obtain ⟨position, called⟩ : ∃ position, s.call = some (thread, position) := by
              by_contra uncalled
              have outside : s.outside thread = true :=
                outside_iff.mpr ⟨code, releasing, idle, not_exists.mp uncalled⟩
              rw [outside] at inside
              cases inside
            obtain ⟨order, advances⟩ := advance_proceeds (o := o) lively sound releasing idle called
            refine .inl ⟨order, fun now overtaken => ?_⟩
            simpa [System.threadStep, releasing, idle, Client.isIdle, code, called] using advances
      · refine (@client_proceeds n α κ o s thread sound.phased idle room).imp_left ?_
        refine fun moves => ⟨[], fun now overtaken => ?_⟩
        have busy : (s.queue.clients thread).isIdle = false := by
          cases position : s.queue.clients thread <;> simp_all [Client.isIdle]
        simpa [System.threadStep, releasing, busy] using moves now

/-- While no thread is inside, every method can be entered. -/
theorem call_proceeds (phased : Phased s) (outside : ∀ other, s.outside other = true)
    (method : Method α κ) (possible : method.Possible (s.loggers thread)) :
    ∃ order, (s.callStep o thread method order).isSome = true := by
  obtain ⟨order, loops⟩ := exists_loops s
  have uncalled : s.call = none := by
    by_contra called
    obtain ⟨⟨caller, position⟩, calls⟩ := Option.ne_none_iff_exists'.mp called
    exact (outside_iff.mp (outside caller)).2.2.2 position calls
  obtain ⟨-, -, idle, -⟩ := outside_iff.mp (outside thread)
  refine ⟨order, ?_⟩
  cases method with
  | logEvent event =>
      cases held : s.loggers thread with
      | destroyed => exact absurd held possible
      | _ => simp [System.callStep, System.begin, outside, uncalled, System.construct, held]
  | exit =>
      obtain ⟨logger, notified, alive⟩ := alive_of_isAlive possible
      simp [System.callStep, System.begin, outside, uncalled, alive]
  | initializeRuntime =>
      cases initialized : s.initialized with
      | true => simp [System.callStep, System.begin, outside, uncalled, initialized]
      | false =>
          have unpooled : s.pool = none := by
            have pooled := phased.pooled
            simpa [System.busy, uncalled, initialized] using pooled
          have enters := @enter_isSome n α κ { s with
            pool := some (.new o.pool o.value)
            call := some (thread, .attach order) } thread .run idle
          simpa [System.callStep, System.begin, outside, uncalled, initialized, unpooled, loops]
            using enters
  | _ => simp [System.callStep, System.begin, outside, uncalled, loops]

end Progress

/-- In a run in which the queue is only cleared while its worker holds no record, and no
    thread ends after its logger was told to forget the manager, a thread inside the
    manager can go on or waits for a worker that can go on, and while no thread is inside,
    every method can be entered. -/
theorem never_stuck (o : Options α) (labels : List (Action n α κ)) (s : System n α κ)
    (clears : Meets (step o) ClearsUnheld initial labels)
    (exits : Meets (step o) ExitsNotified initial labels)
    (reached : exec (step o) initial labels = some s)
    (room : s.queue.guarded.queue.length < dequeMaxSize) :
    (∀ thread, s.outside thread = false →
      s.Proceeds o thread ∨ s.queue.clients thread = .drainJoin ∧ s.queue.worker.active = true) ∧
    (s.queue.worker.active = true → s.WorkerProceeds o) ∧
    ((∀ other, s.outside other = true) → ∀ thread (method : Method α κ),
      method.Possible (s.loggers thread) →
        ∃ order, (s.callStep o thread method order).isSome = true) := by
  obtain ⟨sound, lively⟩ := run_lively clears exits reached
  refine ⟨?_, ?_, ?_⟩
  · exact fun thread inside => thread_proceeds lively sound inside room
  · exact fun active => worker_proceeds sound active room
  · exact fun outside thread method possible => call_proceeds sound.phased outside method possible

/-- One event is logged and `Deinitialize` comes as far as `Clear` of the queue. -/
def logUntilClear (thread : Fin 1) : List (Action 1 Nat Unit) :=
  Action.call thread .initializeRuntime [] :: threadSteps 4 [] ++
    [Action.call thread .enable [], Action.call thread (.logEvent 7) []] ++ threadSteps 1 [] ++
    [Action.call thread .deinitializeRuntime []] ++ threadSteps 11 [thread]

/-- `Deinitialize` waits for the worker, which has a record to deal with. -/
theorem never_stuck_joining :
    ∃ s, exec (step keepLatest) initial (logUntilClear 0 ++ threadSteps 7 []) = some s ∧
      s.queue.clients 0 = .drainJoin ∧ s.WorkerProceeds keepLatest := by
  have clears : Meets (step keepLatest) ClearsUnheld initial
      (logUntilClear 0 ++ threadSteps 7 []) := by decide +kernel
  have exits : Meets (step keepLatest) ExitsNotified initial
      (logUntilClear 0 ++ threadSteps 7 []) := by decide +kernel
  refine ⟨_, rfl, rfl, ?_⟩
  exact (never_stuck keepLatest _ _ clears exits rfl (by decide)).2.1 rfl

end Spoor.Runtime.RuntimeManager
