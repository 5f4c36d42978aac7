import Spoor.Runtime.Discipline

/-! # The order of a thread's events

The events of a thread wait in its logger, go into a buffer that some thread hands
over to the queue, and end up in a record.  On this way the runtime may drop events,
but it neither invents, repeats nor reorders them.
-/

namespace Spoor.Runtime.RuntimeManager

open Buffer EventLogging FlushQueue Lib.Transition

variable {n : Nat} {α κ : Type}

/-- The events that a thread logs in a run, in order. -/
def logged (thread : Fin n) (labels : List (Action n α κ)) : List α :=
  labels.filterMap fun
    | .call caller (.logEvent event) _ => if caller = thread then some event else none
    | _ => none

/-- The events of a thread that no thread has handed over yet. -/
def System.waiting (s : System n α κ) (thread : Fin n) : List α :=
  (s.loggers thread).events ++ (s.code thread).filterMap Instruction.event?

/-- The events in some buffers that come from a thread; `tag` says which thread an
    event comes from. -/
def ownEvents (tag : α → Fin n) (thread : Fin n)
    (buffers : List (CircularSliceBuffer Owner α)) : List α :=
  (buffers.flatMap contentsOf).filter fun event => tag event = thread

/-! ## How events move in a step -/

/-- What a step does to the events on their way: it may drop some, a thread logs one or
    hands over the buffer of a logger, and the queue appends the buffer a thread offers. -/
inductive Moved (s s' : System n α κ) (a : Action n α κ) : Prop where
  | kept (buffers : s'.queue.enqueuedBuffers = s.queue.enqueuedBuffers)
      (offered : ∀ thread, (s'.offered thread).Sublist (s.offered thread))
      (waiting : ∀ thread, (s'.waiting thread).Sublist (s.waiting thread))
  | logged (thread : Fin n) (event : α) (order : List (Fin n))
      (logs : a = .call thread (.logEvent event) order)
      (buffers : s'.queue.enqueuedBuffers = s.queue.enqueuedBuffers)
      (offered : ∀ other, s'.offered other = s.offered other)
      (waiting : ∀ other, (s'.waiting other).Sublist
        (s.waiting other ++ if other = thread then [event] else []))
  | passed (thread owner : Fin n) (buffer : CircularSliceBuffer Owner α)
      (buffers : s'.queue.enqueuedBuffers = s.queue.enqueuedBuffers)
      (uses : owner = thread ∨ ∃ position, s'.call = some (thread, position))
      (offered : ∀ other, s'.offered other = if other = thread then [buffer] else s.offered other)
      (before : s.offered thread = [])
      (waiting : ∀ other, s.waiting other =
        (if other = owner then contentsOf buffer else []) ++ s'.waiting other)
  | appended (thread : Fin n) (buffer : CircularSliceBuffer Owner α)
      (buffers : s'.queue.enqueuedBuffers = s.queue.enqueuedBuffers ++ [buffer])
      (before : s.offered thread = [buffer])
      (offered : ∀ other, s'.offered other = if other = thread then [] else s.offered other)
      (waiting : ∀ other, s'.waiting other = s.waiting other)

section Steps

variable {o : Options α} {s s' : System n α κ} {thread : Fin n}

/-- Loggers that lose their events, and code that is done. -/
theorem waiting_sublist (loggers : ∀ owner,
      (s'.loggers owner).events = (s.loggers owner).events ∨ (s'.loggers owner).events = [])
    (code : ∀ other, ((s'.code other).filterMap Instruction.event?).Sublist
      ((s.code other).filterMap Instruction.event?)) (other : Fin n) :
    (s'.waiting other).Sublist (s.waiting other) := by
  rw [System.waiting, System.waiting]
  refine List.Sublist.append ?_ (code other)
  rcases loggers other with same | none
  · rw [same]
  · rw [none]
    exact List.nil_sublist _

theorem call_moved {method : Method α κ} {order : List (Fin n)}
    (taken : s.callStep o thread method order = some s') :
    Moved s s' (.call thread method order) := by
  have entered := call_entered taken
  have events : ∀ owner, ((s'.loggers owner).events).Sublist ((s.loggers owner).events) := by
    intro owner
    rcases entered.loggers owner with same | blank
    · rw [same]
    · rw [blank.events]
      exact List.nil_sublist _
  have idle : ∀ other, other ≠ thread → s'.code other = s.code other := entered.others
  rcases entered.code with none | ⟨event, rfl, logs⟩ | leaves
  · refine .kept entered.buffers (fun other => by rw [entered.offered]) fun other => ?_
    rw [System.waiting, System.waiting]
    by_cases same : other = thread
    · subst same
      rw [none, entered.idle]
      exact (events other).append_right _
    · rw [idle other same]
      exact (events other).append_right _
  · refine .logged thread event order rfl entered.buffers entered.offered fun other => ?_
    rw [System.waiting, System.waiting]
    by_cases same : other = thread
    · subst same
      rw [logs, entered.idle, if_pos rfl]
      simpa [Instruction.event?] using (events other).append_right [event]
    · rw [idle other same, if_neg same, List.append_nil]
      exact (events other).append_right _
  · refine .kept entered.buffers (fun other => by rw [entered.offered]) fun other => ?_
    rw [System.waiting, System.waiting]
    by_cases same : other = thread
    · subst same
      rw [leaves, entered.idle]
      exact (events other).append_right []
    · rw [idle other same]
      exact (events other).append_right _

theorem Disciplined.call (disciplined : Disciplined s) {method : Method α κ}
    {order : List (Fin n)} (taken : s.callStep o thread method order = some s') :
    Disciplined s' := by
  have entered := call_entered taken
  refine disciplined.moved (call_exclusive disciplined.exclusive (call_called taken))
    entered.others (fun caller position _ called => entered.call caller position called) ?_ ?_ ?_
  · intro owner member
    rcases entered.code with none | ⟨event, -, logs⟩ | leaves
    · simp [none] at member
    · simp [logs] at member
    · exact .inl (by simpa [leaves] using member)
  · intro owner
    rcases entered.code with none | ⟨event, -, logs⟩ | leaves
    · simp [none]
    · simp [logs]
    · simp [leaves]
  · intro owner
    rcases entered.loggers owner with same | blank
    · exact .inr (.inl ⟨same, by simp [entered.idle]⟩)
    · exact .inl blank.usable

/-- The slices that a pool of well-formed slices lends are fresh. -/
theorem Formed.lends_fresh (formed : Formed o s) {pool : CombinedBufferSlicePool α}
    (pooled : s.pool = some pool) (overtaken : Overtaken) (preferred : Nat) :
    ∀ ptr pool', CombinedBufferSlicePool.borrow overtaken preferred pool = (.ok ptr, pool') →
      ptr.slice.Fresh :=
  fun ptr _ lends =>
    (CombinedBufferSlicePool.borrow_fresh (formed.pool pool pooled) lends).2 ptr rfl

/-- A push slides the window of the buffer, or leaves the buffer as it is. -/
theorem push_slides (formed : Formed o s) {pool : CombinedBufferSlicePool α}
    (pooled : s.pool = some pool) (overtaken : Overtaken)
    {buffer : CircularSliceBuffer Owner α} {window : List α} (holds : buffer.Holds window)
    (event : α) :
    ∃ window', window'.Sublist (window ++ [event]) ∧
      (buffer.push (CombinedBufferSlicePool.borrow overtaken) pool event).1.Holds window' := by
  rw [CircularSliceBuffer.push_replying]
  rcases CircularSliceBuffer.push_holds pool (CircularSliceBuffer.lends_replying
    (formed.lends_fresh pooled overtaken _)) holds event with
    ⟨window', -, slide, holds'⟩ | ⟨-, same⟩
  · exact ⟨window', (slide.suffix (List.suffix_refl window)).sublist, holds'⟩
  · rw [same]
    exact ⟨window, List.sublist_append_left _ _, holds⟩

theorem events_alive {logger : EventLogger Owner α} {notified : Bool}
    {buffer : CircularSliceBuffer Owner α} (present : logger.buffer = some buffer) :
    (ThreadLocal.alive logger notified).events = contentsOf buffer := by
  simp [ThreadLocal.events, present]

/-- The logger of the thread takes an event. -/
theorem push_events (formed : Formed o s) {pool : CombinedBufferSlicePool α}
    (pooled : s.pool = some pool) (overtaken : Overtaken) {logger : EventLogger Owner α}
    {notified : Bool} (usable : (ThreadLocal.alive logger notified).Usable) (event : α) :
    (ThreadLocal.alive (logger.push (CombinedBufferSlicePool.borrow overtaken) pool event).1
        notified).Usable ∧
      ((ThreadLocal.alive (logger.push (CombinedBufferSlicePool.borrow overtaken) pool event).1
        notified).events).Sublist ((ThreadLocal.alive logger notified).events ++ [event]) := by
  cases attached : logger.attached with
  | false =>
      simp only [EventLogger.push, attached]
      exact ⟨usable, List.sublist_append_left _ _⟩
  | true =>
      cases present : logger.buffer with
      | none =>
          simp only [EventLogger.push, attached, present]
          exact ⟨usable, List.sublist_append_left _ _⟩
      | some buffer =>
          obtain ⟨window, holds⟩ := usable buffer present
          obtain ⟨window', slides, holds'⟩ := push_slides formed pooled overtaken holds event
          simp only [EventLogger.push, attached, present]
          refine ⟨?_, ?_⟩
          · intro other same
            obtain rfl := Option.some.inj same
            exact ⟨window', holds'⟩
          · rw [events_alive rfl, events_alive present, contentsOf_eq holds, contentsOf_eq holds']
            exact slides

theorem filterMap_tail (instruction : Instruction n α) (rest : List (Instruction n α)) :
    (rest.filterMap Instruction.event?).Sublist
      ((instruction :: rest).filterMap Instruction.event?) :=
  (List.sublist_cons_self instruction rest).filterMap _

/-- The code of one thread goes on, and it does not log more events than before. -/
theorem code_goto {code : List (Instruction n α)}
    (less : (code.filterMap Instruction.event?).Sublist
      ((s.code thread).filterMap Instruction.event?)) (other : Fin n) :
    (((s.goto thread code).code other).filterMap Instruction.event?).Sublist
      ((s.code other).filterMap Instruction.event?) := by
  by_cases same : other = thread
  · subst same
    simpa [System.goto] using less
  · simp [System.goto, same]

theorem events_replace {owner : Fin n} {after : ThreadLocal α} (blank : after.Blank)
    (other : Fin n) :
    (Function.update s.loggers owner after other).events = (s.loggers other).events ∨
      (Function.update s.loggers owner after other).events = [] := by
  by_cases same : other = owner
  · subst same
    exact .inr (by rw [Function.update_self]; exact blank.events)
  · exact .inl (by rw [Function.update_of_ne same])

theorem execute_moved (disciplined : Disciplined s) (formed : Formed o s)
    {instruction : Instruction n α} {rest : List (Instruction n α)} {a : Action n α κ}
    (idle : s.queue.clients thread = .idle) (code : s.code thread = instruction :: rest)
    (instructed : Instructed s thread rest instruction s') : Moved s s' a := by
  have less : (rest.filterMap Instruction.event?).Sublist
      ((s.code thread).filterMap Instruction.event?) := by
    rw [code]
    exact filterMap_tail instruction rest
  have unoffered : s.offered thread = [] := by
    rw [System.offered, idle]
    rfl
  cases instructed with
  | ignore | keep =>
      exact .kept rfl (fun _ => List.Sublist.refl _)
        (waiting_sublist (fun _ => .inl rfl) (code_goto less))
  | unsubscribe logger notified alive =>
      refine .kept rfl (fun _ => List.Sublist.refl _)
        (waiting_sublist (fun _ => .inl rfl) (code_goto ?_))
      cases notified <;> exact less
  | push event overtaken logger notified pool next alive _ pooled goes =>
      have usable : (ThreadLocal.alive logger notified).Usable := by
        rw [← alive]
        exact disciplined.uses (.inl (by simp [code])) (.inl rfl) (by simp [code])
      obtain ⟨-, events⟩ := push_events formed pooled overtaken usable event
      refine .kept rfl (fun _ => List.Sublist.refl _) fun other => ?_
      rw [System.waiting, System.waiting]
      by_cases same : other = thread
      · subst same
        have same : next.filterMap Instruction.event? = rest.filterMap Instruction.event? := by
          rw [goes]
          split <;> rfl
        simp only [System.goto, Function.update_self, same, code, alive]
        have parts := events.append_right (rest.filterMap Instruction.event?)
        rwa [List.append_assoc] at parts
      · simp [System.goto, same]
  | pass owner logger notified buffer _ alive passed entered =>
      obtain ⟨queue, enters, rfl⟩ := enter_queue entered
      obtain ⟨buffers, clients⟩ := DiskFlushQueue.call_enqueues enters
      have present := buffer_of_flush passed
      refine .passed thread owner buffer buffers ?_ (fun other => ?_) unoffered fun other => ?_
      · exact disciplined.own thread owner (.inl (by simp [code]))
      · rw [System.offered, clients]
        by_cases same : other = thread
        · subst same
          simp [DiskFlushQueue.Call.entry, DiskFlushQueue.Client.offered]
        · have apart : (other : Nat) ≠ thread := fun equal => same (Fin.ext equal)
          simp [apart, same, System.offered, System.goto]
      · have events : (s.loggers other).events =
            (if other = owner then contentsOf buffer else []) ++
            (Function.update s.loggers owner (.alive { logger with buffer := some (moved buffer) }
              notified) other).events := by
          by_cases same : other = owner
          · subst same
            rw [if_pos rfl, Function.update_self, alive, events_alive present, events_alive rfl,
              contentsOf_moved, List.append_nil]
          · rw [if_neg same, Function.update_of_ne same, List.nil_append]
        have codes : (s.code other).filterMap Instruction.event? =
            (Function.update s.code thread (.renew owner :: rest) other).filterMap
              Instruction.event? := by
          by_cases same : other = thread
          · subst same
            rw [Function.update_self, code]
            rfl
          · rw [Function.update_of_ne same]
        rw [System.waiting, System.waiting, events, codes, List.append_assoc]
        rfl
  | renew owner logger notified alive =>
      refine .kept rfl (fun _ => List.Sublist.refl _)
        (waiting_sublist (events_replace (blank_renewed logger notified)) (code_goto less))
  | leave logger notified alive =>
      exact .kept rfl (fun _ => List.Sublist.refl _)
        (waiting_sublist (events_replace (by intro buffer made; cases made)) (code_goto less))
  | destroy logger notified alive =>
      exact .kept rfl (fun _ => List.Sublist.refl _)
        (waiting_sublist (events_replace trivial) (code_goto less))

theorem usable_replace {owner : Fin n} {after : ThreadLocal α} (usable : after.Usable)
    (others : ∀ other, other ≠ owner → ∀ rest, s.code thread ≠ .renew other :: rest)
    (other : Fin n) :
    (Function.update s.loggers owner after other).Usable ∨
      Function.update s.loggers owner after other = s.loggers other ∧
        (∀ rest, s.code thread ≠ .renew other :: rest) := by
  by_cases same : other = owner
  · subst same
    exact .inl (by rwa [Function.update_self])
  · exact .inr ⟨by rw [Function.update_of_ne same], others other same⟩

theorem Disciplined.execute (disciplined : Disciplined s) (formed : Formed o s)
    {instruction : Instruction n α} {rest : List (Instruction n α)} (exclusive : Exclusive s')
    (code : s.code thread = instruction :: rest)
    (instructed : Instructed s thread rest instruction s') : Disciplined s' := by
  have executed := instructed_executed instructed
  have own : ∀ owner, .flush owner ∈ rest ∨ .renew owner ∈ rest →
      owner = thread ∨ ∃ position, s'.call = some (thread, position) := by
    intro owner member
    rw [executed.call]
    refine disciplined.own thread owner ?_
    rw [code]
    exact member.imp (List.mem_cons_of_mem _) (List.mem_cons_of_mem _)
  have unrenewed : ∀ owner, .renew owner ∉ rest := by
    intro owner
    have tail := disciplined.renews thread owner
    rwa [code] at tail
  have calls : ∀ caller position, caller ≠ thread → s.call = some (caller, position) →
      s'.call = some (caller, position) :=
    fun caller position _ called => executed.call.trans called
  have other : ∀ owner, (∀ owner, instruction ≠ .renew owner) →
      ∀ later, s.code thread ≠ .renew owner :: later := by
    intro owner different later
    rw [code]
    intro same
    exact different owner (List.cons_eq_cons.mp same).1
  cases instructed with
  | ignore | keep =>
      refine disciplined.moved exclusive executed.own.code calls ?_ ?_
        fun owner => .inr (.inl ⟨rfl, other owner (by simp)⟩)
      · simpa [System.goto] using own
      · exact fun owner member => unrenewed owner (List.mem_of_mem_tail (by
          simpa [System.goto] using member))
  | unsubscribe logger notified alive =>
      refine disciplined.moved exclusive executed.own.code calls ?_ ?_
        fun owner => .inr (.inl ⟨rfl, other owner (by simp)⟩)
      · intro owner member
        cases notified with
        | true =>
            simp only [System.goto, Function.update_self, if_true, List.mem_cons,
              Instruction.flush.injEq, reduceCtorEq, false_or] at member
            rcases member with (same | flushes) | renews
            · exact .inl same
            · exact own owner (.inl flushes)
            · exact own owner (.inr renews)
        | false => exact own owner (by simpa [System.goto] using member)
      · intro owner member
        cases notified with
        | true => exact unrenewed owner (by simpa [System.goto] using member)
        | false =>
            exact unrenewed owner (List.mem_of_mem_tail (by simpa [System.goto] using member))
  | push event overtaken logger notified pool next alive _ pooled goes =>
      have usable : (ThreadLocal.alive logger notified).Usable := by
        rw [← alive]
        exact disciplined.uses (.inl (by simp [code])) (.inl rfl) (by simp [code])
      have pushed := (push_events formed pooled overtaken usable event).1
      refine disciplined.moved exclusive executed.own.code calls ?_ ?_ fun owner => ?_
      · intro owner member
        simp only [System.goto, Function.update_self, goes] at member
        split at member
        · simp only [List.mem_cons, Instruction.flush.injEq, reduceCtorEq, false_or] at member
          rcases member with (same | flushes) | renews
          · exact .inl same
          · exact own owner (.inl flushes)
          · exact own owner (.inr renews)
        · exact own owner member
      · intro owner member
        simp only [System.goto, Function.update_self, goes] at member
        split at member
        · exact unrenewed owner member
        · exact unrenewed owner (List.mem_of_mem_tail member)
      · rcases usable_replace pushed (fun owner _ => other owner (by simp)) owner with now | kept
        · exact .inl now
        · exact .inr (.inl kept)
  | pass owner logger notified buffer _ alive passed entered =>
      obtain ⟨queue, -, rfl⟩ := enter_queue entered
      refine disciplined.moved exclusive executed.own.code calls ?_ ?_ fun place => ?_
      · intro place member
        simp only [System.goto, Function.update_self, List.mem_cons, reduceCtorEq, false_or,
          Instruction.renew.injEq] at member
        rcases member with flushes | same | renews
        · exact own place (.inl flushes)
        · subst same
          have uses := disciplined.own thread place (.inl (by simp [code]))
          exact uses
        · exact own place (.inr renews)
      · intro place member
        exact unrenewed place (by simpa [System.goto] using member)
      · by_cases same : place = owner
        · subst same
          refine .inr (.inr ⟨?_, rest, by simp [System.goto]⟩)
          simp only [System.goto, Function.update_self]
          rw [events_alive rfl, contentsOf_moved]
        · exact .inr (.inl ⟨by simp [System.goto, same], other place (by simp)⟩)
  | renew owner logger notified alive =>
      refine disciplined.moved exclusive executed.own.code calls ?_ ?_ fun place => ?_
      · simpa [System.goto, System.replaceLogger] using own
      · exact fun place member => unrenewed place (List.mem_of_mem_tail (by
          simpa [System.goto, System.replaceLogger] using member))
      · have others : ∀ other, other ≠ owner → ∀ later, s.code thread ≠ .renew other :: later := by
          intro other differ later same
          rw [code] at same
          exact differ (Instruction.renew.inj (List.cons_eq_cons.mp same).1).symm
        rcases usable_replace (blank_renewed logger notified).usable others place with now | kept
        · exact .inl now
        · exact .inr (.inl kept)
  | leave logger notified alive =>
      refine disciplined.moved exclusive executed.own.code calls ?_ ?_ fun place => ?_
      · simpa [System.goto, System.replaceLogger] using own
      · exact fun place member => unrenewed place (List.mem_of_mem_tail (by
          simpa [System.goto, System.replaceLogger] using member))
      · have usable : (ThreadLocal.alive (detached logger) notified).Usable := by
          intro buffer made
          cases made
        rcases usable_replace usable (fun owner _ => other owner (by simp)) place with now | kept
        · exact .inl now
        · exact .inr (.inl kept)
  | destroy logger notified alive =>
      refine disciplined.moved exclusive executed.own.code calls ?_ ?_ fun place => ?_
      · simpa [System.goto, System.replaceLogger] using own
      · exact fun place member => unrenewed place (List.mem_of_mem_tail (by
          simpa [System.goto, System.replaceLogger] using member))
      · have usable : (ThreadLocal.destroyed : ThreadLocal α).Usable := trivial
        rcases usable_replace usable (fun owner _ => other owner (by simp)) place with now | kept
        · exact .inl now
        · exact .inr (.inl kept)

/-- Entering a method that is not about a buffer. -/
theorem enter_offered {queue : DiskFlushQueue.State (CircularSliceBuffer Owner α) κ}
    {method : DiskFlushQueue.Call (CircularSliceBuffer Owner α) κ}
    (enters : DiskFlushQueue.callStep s.queue thread method = some queue)
    (bare : method.entry.offered = []) (other : Fin n) :
    ((queue.clients other).offered).Sublist (s.offered other) := by
  rw [(DiskFlushQueue.call_enqueues enters).2, System.offered]
  by_cases same : other = thread
  · subst same
    rw [Function.update_self, bare]
    exact List.nil_sublist _
  · have apart : (other : Nat) ≠ thread := fun equal => same (Fin.ext equal)
    rw [Function.update_of_ne apart]

theorem moved_bare {call : Option (Fin n × Position n κ)} {a : Action n α κ}
    {method : DiskFlushQueue.Call (CircularSliceBuffer Owner α) κ}
    (bare : method.entry.offered = []) (entered : { s with call }.enter thread method = some s') :
    Moved s s' a := by
  obtain ⟨queue, enters, rfl⟩ := enter_queue entered
  exact .kept (DiskFlushQueue.call_enqueues enters).1 (enter_offered enters bare)
    fun _ => List.Sublist.refl _

theorem advance_moved {position : Position n κ} {a : Action n α κ} (code : s.code thread = [])
    (advanced : Advanced s thread position s') : Moved s s' a := by
  have goes : ∀ (owner other : Fin n),
      ((Function.update s.code thread [.flush owner] other).filterMap
        Instruction.event?).Sublist ((s.code other).filterMap Instruction.event?) := by
    intro owner other
    by_cases same : other = thread
    · subst same
      rw [Function.update_self, code]
      exact List.Sublist.refl _
    · rw [Function.update_of_ne same]
  cases advanced with
  | initialized | uninitialized | deinitialized | detached | resetPool =>
      exact .kept rfl (fun _ => List.Sublist.refl _) fun _ => List.Sublist.refl _
  | attach owner rest logger notified alive =>
      exact .kept rfl (fun _ => List.Sublist.refl _)
        (waiting_sublist (events_replace (blank_setPool logger true notified))
          fun _ => List.Sublist.refl _)
  | detach owner rest logger notified alive =>
      refine .kept rfl (fun _ => List.Sublist.refl _)
        (waiting_sublist (fun other => .inl ?_) (goes owner))
      by_cases same : other = owner
      · subst same
        simp only [System.goto, Function.update_self, alive]
        rfl
      · simp [System.goto, same]
  | drop owner rest logger notified alive =>
      exact .kept rfl (fun _ => List.Sublist.refl _)
        (waiting_sublist (events_replace (by intro buffer made; cases made))
          fun _ => List.Sublist.refl _)
  | flush owner rest completion deinitializing =>
      exact .kept rfl (fun _ => List.Sublist.refl _)
        (waiting_sublist (fun _ => .inl rfl) (goes owner))
  | flushQueue completion deinitializing _ entered => exact moved_bare rfl entered
  | clear owner rest deinitializing logger notified alive =>
      refine .kept rfl (fun _ => List.Sublist.refl _)
        (waiting_sublist (events_replace ?_) fun _ => List.Sublist.refl _)
      intro buffer made
      obtain ⟨earlier, -, rfl⟩ := Option.map_eq_some_iff.mp made
      exact ⟨earlier.capacity, rfl⟩
  | clearQueue deinitializing _ entered => exact moved_bare rfl entered
  | drainAndStop _ entered => exact moved_bare rfl entered

theorem Disciplined.advance (disciplined : Disciplined s) {position : Position n κ}
    (exclusive : Exclusive s') (code : s.code thread = [])
    (called : s.call = some (thread, position)) (advanced : Advanced s thread position s') :
    Disciplined s' := by
  have calls : ∀ caller (other : Position n κ), caller ≠ thread → s.call = some (caller, other) →
      s'.call = some (caller, other) := by
    intro caller other differ calls
    rw [called] at calls
    exact absurd (congrArg Prod.fst (Option.some.inj calls)).symm differ
  have own := (advanced_local advanced).1.code
  have kept : ∀ owner, s'.loggers owner = s.loggers owner → (s'.loggers owner).Usable ∨
      s'.loggers owner = s.loggers owner ∧ (∀ rest, s.code thread ≠ .renew owner :: rest) ∨
        (s'.loggers owner).events = [] ∧ ∃ rest, s'.code thread = .renew owner :: rest :=
    fun owner same => .inr (.inl ⟨same, by simp [code]⟩)
  have replaced : ∀ {owner : Fin n} {after : ThreadLocal α}, after.Usable →
      s'.loggers = Function.update s.loggers owner after → ∀ place, (s'.loggers place).Usable ∨
        s'.loggers place = s.loggers place ∧ (∀ rest, s.code thread ≠ .renew place :: rest) ∨
          (s'.loggers place).events = [] ∧ ∃ rest, s'.code thread = .renew place :: rest := by
    intro owner after usable loggers place
    by_cases same : place = owner
    · subst same
      exact .inl (by rw [loggers, Function.update_self]; exact usable)
    · exact kept place (by rw [loggers, Function.update_of_ne same])
  have quiet : s'.code thread = [] → (∀ place, (s'.loggers place).Usable ∨
      s'.loggers place = s.loggers place ∧ (∀ rest, s.code thread ≠ .renew place :: rest) ∨
        (s'.loggers place).events = [] ∧ ∃ rest, s'.code thread = .renew place :: rest) →
      Disciplined s' :=
    fun empty usable => disciplined.moved exclusive own calls (by simp [empty]) (by simp [empty])
      usable
  have flushes : ∀ owner (next : Position n κ), s'.code thread = [.flush owner] →
      s'.call = some (thread, next) → (∀ place, (s'.loggers place).Usable ∨
        s'.loggers place = s.loggers place ∧ (∀ rest, s.code thread ≠ .renew place :: rest) ∨
          (s'.loggers place).events = [] ∧ ∃ rest, s'.code thread = .renew place :: rest) →
      Disciplined s' :=
    fun owner next goes stays usable => disciplined.moved exclusive own calls
      (fun _ _ => .inr ⟨next, stays⟩) (by simp [goes]) usable
  cases advanced with
  | initialized | uninitialized | deinitialized | detached | resetPool =>
      exact quiet code fun place => kept place rfl
  | attach owner rest logger notified alive =>
      exact quiet code (replaced (blank_setPool logger true notified).usable rfl)
  | detach owner rest logger notified alive =>
      have usable : (s.loggers owner).Usable :=
        disciplined.uses (.inr ⟨_, called⟩) (.inr ⟨_, called⟩) (by simp [code])
      rw [alive] at usable
      have unnotified : (ThreadLocal.alive logger false).Usable := usable
      exact flushes owner (.drop owner rest) (by simp [System.goto]) rfl (replaced unnotified rfl)
  | drop owner rest logger notified alive =>
      have usable : (ThreadLocal.alive (RuntimeManager.detached logger) notified).Usable := by
        intro buffer made
        cases made
      exact quiet code (replaced usable rfl)
  | flush owner rest completion deinitializing =>
      exact flushes owner (.flush rest completion deinitializing) (by simp [System.goto]) rfl
        fun place => kept place rfl
  | clear owner rest deinitializing logger notified alive =>
      have blank : (ThreadLocal.alive { logger with
          buffer := logger.buffer.map fun buffer => buffer.clear.1 } notified).Blank := by
        intro buffer made
        obtain ⟨earlier, -, rfl⟩ := Option.map_eq_some_iff.mp made
        exact ⟨earlier.capacity, rfl⟩
      exact quiet code (replaced blank.usable rfl)
  | flushQueue _ _ _ entered | clearQueue _ _ entered | drainAndStop _ entered =>
      obtain ⟨queue, -, rfl⟩ := enter_queue entered
      exact quiet code fun place => kept place rfl

/-- Steps that touch neither the code nor the loggers. -/
theorem Disciplined.frame (disciplined : Disciplined s) (exclusive : Exclusive s')
    (code : s'.code = s.code) (call : s'.call = s.call) (loggers : s'.loggers = s.loggers) :
    Disciplined s' := by
  refine ⟨exclusive, ?_, ?_, ?_⟩
  · rw [code, call]
    exact disciplined.own
  · rw [code]
    exact disciplined.renews
  · rw [code, loggers]
    exact disciplined.usable

theorem thread_moved (disciplined : Disciplined s) (formed : Formed o s) {a : Action n α κ}
    (threaded : Threaded o s thread s') : Moved s s' a ∧ Disciplined s' := by
  have exclusive := thread_exclusive disciplined.exclusive threaded
  cases threaded with
  | giveBack ptr rest pool releasing pooled =>
      exact ⟨.kept rfl (fun _ => List.Sublist.refl _) fun _ => List.Sublist.refl _,
        disciplined.frame exclusive rfl rfl rfl⟩
  | execute instruction rest overtaken _ _ idle code executes =>
      have instructed := execute_instructed executes
      exact ⟨execute_moved disciplined formed idle code instructed,
        disciplined.execute formed exclusive code instructed⟩
  | advance position order _ _ idle code called advances =>
      have advanced := advance_advanced advances
      exact ⟨advance_moved code advanced, disciplined.advance exclusive code called advanced⟩
  | client now queue _ busy moves =>
      refine ⟨?_, disciplined.frame exclusive rfl rfl rfl⟩
      have others : ∀ other : Fin n, other ≠ thread →
          (queue.clients other).offered = s.offered other := by
        intro other differ
        have apart : (other : Nat) ≠ thread := fun equal => differ (Fin.ext equal)
        rw [DiskFlushQueue.client_others moves apart, System.offered]
      rcases DiskFlushQueue.client_enqueues moves with
        ⟨buffers, offered⟩ | ⟨buffer, before, after, buffers⟩
      · refine .kept buffers (fun other => ?_) fun _ => List.Sublist.refl _
        by_cases same : other = thread
        · subst same
          exact offered
        · exact others other same ▸ List.Sublist.refl _
      · refine .appended thread buffer buffers before (fun other => ?_) fun _ => rfl
        by_cases same : other = thread
        · subst same
          rw [if_pos rfl]
          exact after
        · rw [if_neg same]
          exact others other same

theorem worker_moved (disciplined : Disciplined s) {a : Action n α κ} (worked : Worked o s s') :
    Moved s s' a ∧ Disciplined s' := by
  have exclusive := worker_exclusive disciplined.exclusive worked
  cases worked with
  | giveBack ptr rest pool releasing pooled =>
      exact ⟨.kept rfl (fun _ => List.Sublist.refl _) fun _ => List.Sublist.refl _,
        disciplined.frame exclusive rfl rfl rfl⟩
  | move now ok queue _ moves =>
      refine ⟨.kept (DiskFlushQueue.worker_enqueues moves) (fun other => ?_)
        fun _ => List.Sublist.refl _, disciplined.frame exclusive rfl rfl rfl⟩
      rw [System.offered, System.offered, DiskFlushQueue.worker_clients moves]

theorem step_moved (disciplined : Disciplined s) (formed : Formed o s) {a : Action n α κ}
    (taken : step o s a = some s') : Moved s s' a ∧ Disciplined s' := by
  cases a with
  | call thread method order => exact ⟨call_moved taken, disciplined.call taken⟩
  | thread thread now overtaken order =>
      exact thread_moved disciplined formed (thread_threaded taken)
  | worker now ok => exact worker_moved disciplined (worker_worked taken)

end Steps

/-! ## Whole runs -/

section Order

variable {o : Options α} {s s' : System n α κ} {tag : α → Fin n} {labels : List (Action n α κ)}

/-- The events of a thread that are in records, in the hands of one thread, or waiting
    are some of the events it logged, in their order. -/
structure InOrder (tag : α → Fin n) (labels : List (Action n α κ)) (s : System n α κ) : Prop where
  offered : ∀ thread, ∀ event ∈ (s.offered thread).flatMap contentsOf,
    tag event = thread ∨ ∃ position, s.call = some (thread, position)
  order : ∀ owner thread, (ownEvents tag owner (s.queue.enqueuedBuffers ++ s.offered thread) ++
    s.waiting owner).Sublist (logged owner labels)

theorem ownEvents_append (owner : Fin n) (first second : List (CircularSliceBuffer Owner α)) :
    ownEvents tag owner (first ++ second) =
      ownEvents tag owner first ++ ownEvents tag owner second := by
  simp [ownEvents]

theorem ownEvents_sublist (owner : Fin n) {first second : List (CircularSliceBuffer Owner α)}
    (part : first.Sublist second) :
    (ownEvents tag owner first).Sublist (ownEvents tag owner second) := by
  rw [ownEvents, ownEvents, List.flatMap, List.flatMap]
  exact ((part.map contentsOf).flatten).filter _

theorem logged_append (owner : Fin n) (labels : List (Action n α κ)) (a : Action n α κ) :
    logged owner (labels ++ [a]) = logged owner labels ++ logged owner [a] :=
  List.filterMap_append

theorem tag_logged {owner : Fin n} (own : ∀ a ∈ labels, LogsOwn (fun thread event =>
    tag event = thread) a) : ∀ event ∈ logged owner labels, tag event = owner := by
  intro event member
  obtain ⟨a, listed, logs⟩ := List.mem_filterMap.mp member
  cases a with
  | call caller method order =>
      cases method with
      | logEvent logged =>
          simp only [Option.ite_none_right_eq_some, Option.some.injEq] at logs
          obtain ⟨rfl, rfl⟩ := logs
          exact own _ listed caller logged order rfl
      | _ => cases logs
  | _ => cases logs

theorem InOrder.tag_waiting (inOrder : InOrder tag labels s)
    (own : ∀ a ∈ labels, LogsOwn (fun thread event => tag event = thread) a) {owner : Fin n}
    {event : α} (member : event ∈ s.waiting owner) : tag event = owner :=
  tag_logged own event ((inOrder.order owner owner).subset (List.mem_append_right _ member))

/-- Two threads never hand over events of the same logger at the same time. -/
theorem InOrder.offered_apart (inOrder : InOrder tag labels s) (exclusive : Exclusive s)
    {thread other owner : Fin n} (differ : thread ≠ other) :
    ownEvents tag owner (s.offered thread) = [] ∨ ownEvents tag owner (s.offered other) = [] := by
  have outside : ∀ {caller aside : Fin n} {position : Position n κ},
      s.call = some (caller, position) → aside ≠ caller →
        ownEvents tag owner (s.offered aside) = [] := by
    intro caller aside position called apart
    rw [System.offered, (exclusive caller position called aside apart).2.2]
    rfl
  by_contra both
  obtain ⟨first, second⟩ := not_or.mp both
  obtain ⟨event, member⟩ := List.exists_mem_of_ne_nil _ first
  obtain ⟨event', member'⟩ := List.exists_mem_of_ne_nil _ second
  obtain ⟨inside, tagged⟩ := List.mem_filter.mp member
  obtain ⟨inside', tagged'⟩ := List.mem_filter.mp member'
  rcases inOrder.offered thread event inside with own | ⟨position, called⟩
  · rcases inOrder.offered other event' inside' with own' | ⟨position, called⟩
    · exact differ (by simpa [← own, ← own', of_decide_eq_true tagged'] using tagged)
    · exact first (outside called differ)
  · exact second (outside called differ.symm)

theorem InOrder.initial : InOrder tag [] (initial : System n α κ) := by
  constructor <;> simp [RuntimeManager.initial, DiskFlushQueue.initial, System.offered,
    DiskFlushQueue.Client.offered, DiskFlushQueue.State.enqueuedBuffers, ownEvents, System.waiting,
    ThreadLocal.events]

/-- A call goes on until its thread is in no method of the queue. -/
theorem step_call {a : Action n α κ} {caller : Fin n} {position : Position n κ}
    (taken : step o s a = some s') (called : s.call = some (caller, position)) :
    (∃ position', s'.call = some (caller, position')) ∨ s.offered caller = [] := by
  cases a with
  | call thread method order =>
      exact .inl ⟨position, (call_entered taken).call caller position called⟩
  | thread thread now overtaken order =>
      cases thread_threaded taken with
      | giveBack | client => exact .inl ⟨position, called⟩
      | execute instruction rest overtaken s' released idle code executes =>
          have same := (instructed_executed (execute_instructed executes)).call
          exact .inl ⟨position, same.trans called⟩
      | advance other order s' released idle code calls advances =>
          obtain ⟨rfl, -⟩ := Prod.mk.inj (Option.some.inj (called.symm.trans calls))
          exact .inr (by rw [System.offered, idle]; rfl)
  | worker now ok =>
      cases worker_worked taken with
      | giveBack | move => exact .inl ⟨position, called⟩

/-- Events that are still offered after a step are offered by a thread that may. -/
theorem InOrder.still_offered (inOrder : InOrder tag labels s) {a : Action n α κ}
    (taken : step o s a = some s') {thread : Fin n} {event : α}
    (member : event ∈ (s.offered thread).flatMap contentsOf) :
    tag event = thread ∨ ∃ position, s'.call = some (thread, position) := by
  refine (inOrder.offered thread event member).imp_right ?_
  rintro ⟨position, called⟩
  refine (step_call taken called).resolve_right ?_
  intro empty
  simp [empty] at member

theorem InOrder.offered_step (inOrder : InOrder tag labels s)
    (own : ∀ a ∈ labels, LogsOwn (fun thread event => tag event = thread) a) {a : Action n α κ}
    (taken : step o s a = some s') (moves : Moved s s' a) :
    ∀ thread, ∀ event ∈ (s'.offered thread).flatMap contentsOf,
      tag event = thread ∨ ∃ position, s'.call = some (thread, position) := by
  intro thread event member
  cases moves with
  | kept _ offered =>
      obtain ⟨buffer, inside, has⟩ := List.mem_flatMap.mp member
      exact inOrder.still_offered taken
        (List.mem_flatMap.mpr ⟨buffer, (offered thread).subset inside, has⟩)
  | logged _ _ _ _ _ offered =>
      rw [offered] at member
      exact inOrder.still_offered taken member
  | passed mover owner buffer _ uses offered _ waiting =>
      rw [offered] at member
      split at member
      · rename_i same
        subst same
        have inside : event ∈ s.waiting owner := by
          rw [waiting, if_pos rfl]
          exact List.mem_append_left _ (by simpa using member)
        rw [inOrder.tag_waiting own inside]
        exact uses
      · exact inOrder.still_offered taken member
  | appended mover buffer _ _ offered =>
      rw [offered] at member
      split at member
      · cases member
      · exact inOrder.still_offered taken member

theorem logged_call (caller owner : Fin n) (event : α) (order : List (Fin n)) :
    logged owner [(.call caller (.logEvent event) order : Action n α κ)] =
      if owner = caller then [event] else [] := by
  by_cases same : caller = owner
  · simp [logged, same]
  · simp [logged, same, Ne.symm same]

theorem InOrder.order_step (inOrder : InOrder tag labels s) (exclusive : Exclusive s)
    (own : ∀ a ∈ labels, LogsOwn (fun thread event => tag event = thread) a) {a : Action n α κ}
    (moves : Moved s s' a) (owner thread : Fin n) :
    (ownEvents tag owner (s'.queue.enqueuedBuffers ++ s'.offered thread) ++
      s'.waiting owner).Sublist (logged owner (labels ++ [a])) := by
  have before := inOrder.order owner
  have longer : (logged owner labels).Sublist (logged owner (labels ++ [a])) := by
    rw [logged_append]
    exact List.sublist_append_left _ _
  cases moves with
  | kept buffers offered waiting =>
      rw [buffers]
      refine List.Sublist.trans ?_ ((before thread).trans longer)
      exact (ownEvents_sublist owner ((offered thread).append_left _)).append (waiting owner)
  | logged caller event order logs buffers offered waiting =>
      rw [buffers, offered, logged_append, logs, logged_call]
      refine ((waiting owner).append_left _).trans ?_
      rw [← List.append_assoc]
      exact (before thread).append_right _
  | passed mover passer buffer buffers uses offered empty waiting =>
      refine List.Sublist.trans ?_ longer
      rw [buffers, offered]
      split
      · have pending := before mover
        rw [empty, List.append_nil, waiting] at pending
        refine List.Sublist.trans ?_ pending
        rw [ownEvents_append, List.append_assoc]
        refine List.Sublist.append_left (List.Sublist.append_right ?_ _) _
        by_cases same : owner = passer
        · subst same
          simp [ownEvents]
        · have foreign : ownEvents tag owner [buffer] = [] := by
            rw [ownEvents, List.filter_eq_nil_iff]
            intro event member
            have inside : event ∈ s.waiting passer := by
              rw [waiting, if_pos rfl]
              exact List.mem_append_left _ (by simpa using member)
            rw [inOrder.tag_waiting own inside]
            simpa using Ne.symm same
          rw [foreign]
          exact List.nil_sublist _
      · refine List.Sublist.trans (List.Sublist.append_left ?_ _) (before thread)
        rw [waiting owner]
        exact List.sublist_append_right _ _
  | appended mover buffer buffers holds offered waiting =>
      refine List.Sublist.trans ?_ longer
      rw [buffers, offered, waiting]
      split
      · rw [List.append_nil, ← holds]
        exact before mover
      · rename_i differ
        rcases inOrder.offered_apart exclusive (Ne.symm differ) with none | none
        · rw [holds] at none
          rw [ownEvents_append, ownEvents_append, none, List.append_nil, ← ownEvents_append]
          exact before thread
        · rw [ownEvents_append, none, List.append_nil, ← holds]
          exact before mover

theorem InOrder.step (inOrder : InOrder tag labels s) (exclusive : Exclusive s)
    (own : ∀ a ∈ labels, LogsOwn (fun thread event => tag event = thread) a) {a : Action n α κ}
    (taken : step o s a = some s') (moves : Moved s s' a) : InOrder tag (labels ++ [a]) s' where
  offered := inOrder.offered_step own taken moves
  order := inOrder.order_step exclusive own moves

/-- Every run keeps the events of every thread in order if each thread logs events that
    come from it. -/
theorem run_inOrder (own : ∀ a ∈ labels, LogsOwn (fun thread event => tag event = thread) a)
    (reached : exec (RuntimeManager.step o) RuntimeManager.initial labels = some s) :
    InOrder tag labels s := by
  suffices run : (∀ a ∈ labels, LogsOwn (fun thread event => tag event = thread) a) ∧
      Disciplined s ∧ Formed o s ∧ InOrder tag labels s from run.2.2.2
  refine history_invariant (fun _ a => LogsOwn (fun thread event => tag event = thread) a)
    (fun labels s => (∀ a ∈ labels, LogsOwn (fun thread event => tag event = thread) a) ∧
      Disciplined s ∧ Formed o s ∧ InOrder tag labels s)
    ⟨by simp, .initial, .initial, .initial⟩ ?_ (meets_of_forall own) reached
  rintro labels t a u ⟨earlier, disciplined, formed, inOrder⟩ last taken
  obtain ⟨moves, disciplined'⟩ := step_moved disciplined formed taken
  refine ⟨?_, disciplined', formed.step taken,
    inOrder.step disciplined.exclusive earlier taken moves⟩
  intro b member
  rcases List.mem_append.mp member with before | added
  · exact earlier b before
  · exact List.mem_singleton.mp added ▸ last

theorem logged_marked (thread : Fin n) (labels : List (Action n α κ)) :
    logged thread (labels.map Action.marked) = (logged thread labels).map (Prod.mk thread) := by
  rw [logged, logged, List.filterMap_map, List.map_filterMap]
  refine List.filterMap_congr fun a _ => ?_
  cases a with
  | call caller method order =>
      cases method with
      | logEvent event =>
          by_cases same : caller = thread <;> simp [Action.marked, Method.marked, same]
      | _ => rfl
  | _ => rfl

end Order

/-- In every run, the events of a thread in the records the queue was given, in the hands
    of any one thread and in the thread's logger are, in this order, some of the events
    that the thread logged, each at most once and in the order of its calls. -/
theorem events_in_order (o : Options (Fin n × α)) (labels : List (Action n α κ))
    (s : System n (Fin n × α) κ)
    (reached : exec (step o) initial (labels.map Action.marked) = some s)
    (thread other : Fin n) :
    (ownEvents Prod.fst thread (s.queue.enqueuedBuffers ++ s.offered other) ++
      s.waiting thread).Sublist ((logged thread labels).map (Prod.mk thread)) := by
  have own : ∀ a ∈ labels.map Action.marked,
      LogsOwn (fun (thread : Fin n) (event : Fin n × α) => event.1 = thread) a := by
    intro a member
    obtain ⟨b, -, rfl⟩ := List.mem_map.mp member
    exact logsOwn_marked b
  rw [← logged_marked]
  exact (run_inOrder own reached).order thread other

/-- Another thread logs as well before the first one logs a second event and leaves. -/
def logTwiceThenExit (thread other : Fin 2) : List (Action 2 Nat Unit) :=
  startAndLog ++ Action.call other (.logEvent 5) [] :: stepsOf other 1 ++
    Action.call thread (.logEvent 8) [] :: stepsOf thread 1 ++
    .call thread .exit [] :: stepsOf thread 5

theorem events_in_order_logTwiceThenExit :
    ∃ s, exec (step keepLatestMarked) initial ((logTwiceThenExit 0 1).map Action.marked) = some s ∧
      ownEvents Prod.fst 0 s.queue.enqueuedBuffers = [(0, 7), (0, 8)] ∧
      (ownEvents Prod.fst 0 (s.queue.enqueuedBuffers ++ s.offered 1) ++
        s.waiting 0).Sublist ((logged 0 (logTwiceThenExit 0 1)).map (Prod.mk 0)) :=
  ⟨_, rfl, by decide +kernel, events_in_order keepLatestMarked (logTwiceThenExit 0 1) _ rfl 0 1⟩

end Spoor.Runtime.RuntimeManager
