import Spoor.Runtime.Attachment

/-! # Buffers in their first lap

In log-everything mode a logger's buffer is flushed and renewed as soon as it is full, so
that it never begins a second lap over its slices.  A buffer in its first lap takes every
event for which it gets the slice it asks for, and has all events it took.
-/

namespace Spoor.EventLogging

open Buffer

open CircularSliceBuffer (FreshSlicePtr answering)

variable {α ω π : Type} {b : CircularSliceBuffer ω α} {window : List α} {borrow : Borrow ω π α}
  {pool : π}

/-- Only the answer of the pool matters to the buffer. -/
theorem push_answered {answer : Except BorrowError (FreshSlicePtr ω α)}
    (answers : (borrow (b.capacity - b.size) pool).1 = answer.map Subtype.val) (item : α) :
    (b.push borrow pool item).1 = (b.push (answering answer) () item).1 := by
  have prepared : (b.prepareToPush borrow pool).1 = (b.prepareToPush (answering answer) ()).1 := by
    have capacity : b.advance.capacity = b.capacity := by rw [b.advance_eq]
    have size : b.advance.size = b.size := by rw [b.advance_eq]
    simp only [CircularSliceBuffer.prepareToPush, capacity, size]
    split
    · split
      · rfl
      · rcases asked : borrow (b.capacity - b.size) pool with ⟨result, after⟩
        rw [asked] at answers
        simp only at answers
        subst answers
        cases answer <;> rfl
    · rfl
  simp only [CircularSliceBuffer.push, prepared]
  split <;> rfl

/-- A buffer in its first lap takes an event if it gets the slice it asks for. -/
theorem Filling.accepts (filling : Filling b window) (short : b.size < b.capacity)
    {answer : Except BorrowError (FreshSlicePtr ω α)} (lends : b.borrows = true → answer.isOk) :
    b.accepts (answering answer) () = true := by
  have positive : b.capacity ≠ 0 := by omega
  have usual := CircularSliceBuffer.answering_lends answer
  cases filling with
  | filling before ptr turning first written =>
      have holds : b.Holds _ := .turning before ptr [] turning written
      exact holds.accepts () usual positive (by simp [turning.slices])
  | unused slices position size acquired =>
      rw [CircularSliceBuffer.accepts_iff positive]
      have stays : b.advance = b := by
        simp [CircularSliceBuffer.advance, CircularSliceBuffer.current, slices]
      have prepared := b.prepareToPush_prepared (answering answer) ()
      generalize b.prepareToPush (answering answer) () = result at prepared ⊢
      cases prepared with
      | inside inner => simp [stays, position, slices] at inner
      | wrapped _ full => omega
      | refused error _ ended room answers =>
          have ok := lends (borrows_of_ended ended room)
          simp [answering_error answers] at ok
      | lent ptr => simp [CircularSliceBuffer.acquire, CircularSliceBuffer.current]

theorem Filling.push_lent (filling : Filling b window) (short : b.size < b.capacity)
    (fresh : ∀ ptr pool', borrow (b.capacity - b.size) pool = (.ok ptr, pool') → ptr.slice.Fresh)
    (lends : b.borrows = true → (borrow (b.capacity - b.size) pool).1.isOk = true) (event : α) :
    Filling (b.push borrow pool event).1 (window ++ [event]) := by
  obtain ⟨answer, answers, ok⟩ : ∃ answer : Except BorrowError (FreshSlicePtr ω α),
      (borrow (b.capacity - b.size) pool).1 = answer.map Subtype.val ∧
        answer.isOk = (borrow (b.capacity - b.size) pool).1.isOk := by
    rcases asked : borrow (b.capacity - b.size) pool with ⟨error | ptr, after⟩
    · exact ⟨.error error, rfl, rfl⟩
    · exact ⟨.ok ⟨ptr, fresh ptr after asked⟩, rfl, rfl⟩
  have granted : b.borrows = true → answer.isOk := fun asks => ok.trans (lends asks)
  rw [push_answered answers]
  exact filling.push short (fun asks _ => granted asks) event (filling.accepts short granted)

end Spoor.EventLogging

namespace Spoor.Runtime.RuntimeManager

open Buffer EventLogging FlushQueue Lib.Transition

variable {n : Nat} {α κ : Type} {o : Options α} {s s' : System n α κ} {thread : Fin n}

def ThreadLocal.Configured (o : Options α) : ThreadLocal α → Prop
  | .alive logger _ => logger.options = ⟨o.threadEventBufferCapacity, o.flushAllEvents⟩
  | _ => True

/-- The buffer of the logger is in its first lap, and it is not full unless it is about to
    be flushed. -/
def ThreadLocal.FirstLap (capacity : Nat) (flushing : Prop) : ThreadLocal α → Prop
  | .alive logger _ => ∀ buffer, logger.buffer = some buffer → buffer.capacity = capacity ∧
      (∃ window, Filling buffer window) ∧ (buffer.size < capacity ∨ flushing)
  | _ => True

/-- The thread of the logger is about to flush it. -/
def System.Flushing (s : System n α κ) (owner : Fin n) : Prop :=
  ∃ rest, s.code owner = .flush owner :: rest

structure FirstLaps (o : Options α) (s : System n α κ) : Prop where
  configured : ∀ owner, (s.loggers owner).Configured o
  filling : ∀ owner,
    (s.loggers owner).FirstLap o.threadEventBufferCapacity (s.Flushing owner) ∨
      ∃ thread rest, s.code thread = .renew owner :: rest

theorem FirstLaps.initial (o : Options α) : FirstLaps o (initial : System n α κ) :=
  ⟨fun _ => trivial, fun _ => .inl trivial⟩

theorem ThreadLocal.FirstLap.mono {capacity : Nat} {flushing flushing' : Prop}
    {threadLocal : ThreadLocal α} (lap : threadLocal.FirstLap capacity flushing)
    (still : flushing → flushing') : threadLocal.FirstLap capacity flushing' := by
  cases threadLocal with
  | alive logger notified =>
      intro buffer present
      obtain ⟨sized, filling, room⟩ := lap buffer present
      exact ⟨sized, filling, room.imp_right still⟩
  | unconstructed | destroyed => trivial

/-- A buffer without events is in its first lap. -/
theorem firstLap_of_new {capacity : Nat} {flushing : Prop} {logger : EventLogger Owner α}
    {notified : Bool} (positive : 0 < capacity)
    (new : ∀ buffer, logger.buffer = some buffer → buffer = .new capacity) :
    (ThreadLocal.alive logger notified).FirstLap capacity flushing := by
  intro buffer present
  obtain rfl := new buffer present
  exact ⟨rfl, ⟨[], .unused rfl rfl rfl rfl⟩, .inl positive⟩

theorem options_setPool (logger : EventLogger Owner α) (attached : Bool) :
    (logger.setPool attached).1.options = logger.options := by
  cases attached with
  | true => rfl
  | false =>
      simp only [EventLogger.setPool, EventLogger.flush, Bool.false_eq_true, if_false]
      split
      · split <;> rfl
      · rfl

theorem new_setPool {logger : EventLogger Owner α} {attached : Bool}
    {buffer : CircularSliceBuffer Owner α}
    (present : (logger.setPool attached).1.buffer = some buffer) :
    buffer = .new logger.options.preferredCapacity := by
  cases attached with
  | true => exact (Option.some.inj present).symm
  | false => cases present

section FirstLaps

/-- What a step of one thread has to keep. -/
theorem FirstLaps.moved (laps : FirstLaps o s)
    (others : ∀ other, other ≠ thread → s'.code other = s.code other)
    (configured : ∀ owner, (s'.loggers owner).Configured o)
    (own : ∀ owner,
      (s'.loggers owner).FirstLap o.threadEventBufferCapacity (s'.Flushing owner) ∨
      (∃ rest, s'.code thread = .renew owner :: rest) ∨
      s'.loggers owner = s.loggers owner ∧ (∀ rest, s.code thread ≠ .renew owner :: rest) ∧
        (owner = thread → ¬ s.Flushing thread)) : FirstLaps o s' := by
  refine ⟨configured, fun owner => ?_⟩
  rcases own owner with lap | ⟨rest, renews⟩ | ⟨same, otherwise, unflushed⟩
  · exact .inl lap
  · exact .inr ⟨thread, rest, renews⟩
  · rw [same]
    rcases laps.filling owner with lap | ⟨renewer, rest, renews⟩
    · refine .inl (lap.mono ?_)
      rintro ⟨rest, flushes⟩
      have differ : owner ≠ thread := by
        rintro rfl
        exact unflushed rfl ⟨rest, flushes⟩
      exact ⟨rest, (others owner differ).trans flushes⟩
    · have differ : renewer ≠ thread := by
        rintro rfl
        exact otherwise rest renews
      exact .inr ⟨renewer, rest, (others renewer differ).trans renews⟩

theorem configured_update {owner : Fin n} {after : ThreadLocal α}
    (configured : ∀ owner, (s.loggers owner).Configured o)
    (replaced : (s.loggers owner).Configured o → after.Configured o) (other : Fin n) :
    (Function.update s.loggers owner after other).Configured o := by
  by_cases same : other = owner
  · subst same
    rw [Function.update_self]
    exact replaced (configured other)
  · rw [Function.update_of_ne same]
    exact configured other

theorem FirstLaps.call {method : Method α κ} {order : List (Fin n)} (laps : FirstLaps o s)
    (positive : 0 < o.threadEventBufferCapacity)
    (taken : s.callStep o thread method order = some s') : FirstLaps o s' := by
  have entered := call_entered taken
  have unmoved : ∀ owner, s'.loggers owner = s.loggers owner →
      (s'.loggers owner).FirstLap o.threadEventBufferCapacity (s'.Flushing owner) ∨
      (∃ rest, s'.code thread = .renew owner :: rest) ∨
      s'.loggers owner = s.loggers owner ∧ (∀ rest, s.code thread ≠ .renew owner :: rest) ∧
        (owner = thread → ¬ s.Flushing thread) := by
    intro owner same
    exact .inr (.inr ⟨same, by simp [entered.idle], by simp [System.Flushing, entered.idle]⟩)
  cases call_called taken with
  | flag | exit | begin =>
      exact laps.moved entered.others laps.configured fun owner => unmoved owner rfl
  | launch order _ _ _ _ _ launches =>
      obtain ⟨queue, -, rfl⟩ := enter_queue launches
      exact laps.moved entered.others laps.configured fun owner => unmoved owner rfl
  | log t code _ constructed =>
      simp only [System.construct] at constructed
      split at constructed
      · obtain rfl := Option.some.inj constructed
        refine laps.moved entered.others (configured_update laps.configured fun _ => ?_) ?_
        · exact options_setPool _ _
        · intro owner
          by_cases same : owner = thread
          · subst same
            refine .inl ?_
            simp only [System.goto, Function.update_self]
            exact firstLap_of_new positive fun buffer present => new_setPool present
          · exact unmoved owner (by simp [System.goto, same])
      · obtain rfl := Option.some.inj constructed
        exact laps.moved entered.others laps.configured fun owner => unmoved owner rfl
      · cases constructed

theorem FirstLaps.advance {position : Position n κ} (laps : FirstLaps o s)
    (positive : 0 < o.threadEventBufferCapacity) (code : ∀ other, s.code other = [])
    (advanced : Advanced s thread position s') : FirstLaps o s' := by
  have others := (advanced_local advanced).1.code
  have unmoved : ∀ owner, s'.loggers owner = s.loggers owner →
      (s'.loggers owner).FirstLap o.threadEventBufferCapacity (s'.Flushing owner) ∨
      (∃ rest, s'.code thread = .renew owner :: rest) ∨
      s'.loggers owner = s.loggers owner ∧ (∀ rest, s.code thread ≠ .renew owner :: rest) ∧
        (owner = thread → ¬ s.Flushing thread) := by
    intro owner same
    exact .inr (.inr ⟨same, by simp [code], by simp [System.Flushing, code]⟩)
  have lap : ∀ owner, (s.loggers owner).FirstLap o.threadEventBufferCapacity False := by
    intro owner
    rcases laps.filling owner with lap | ⟨renewer, rest, renews⟩
    · exact lap.mono fun ⟨rest, flushes⟩ => by simp [code] at flushes
    · simp [code] at renews
  have replaced : ∀ {owner : Fin n} {after : ThreadLocal α},
      s'.loggers = Function.update s.loggers owner after →
      ((s.loggers owner).Configured o → after.Configured o) →
      after.FirstLap o.threadEventBufferCapacity (s'.Flushing owner) → FirstLaps o s' := by
    intro owner after loggers configured lap
    refine laps.moved others ?_ fun other => ?_
    · rw [loggers]
      exact configured_update laps.configured configured
    · by_cases same : other = owner
      · subst same
        rw [loggers, Function.update_self]
        exact .inl lap
      · exact unmoved other (by rw [loggers, Function.update_of_ne same])
  cases advanced with
  | attach owner rest logger notified alive =>
      have configured := laps.configured owner
      rw [alive] at configured
      refine replaced rfl (fun _ => (options_setPool logger true).trans configured) ?_
      refine firstLap_of_new positive fun buffer present => ?_
      rw [new_setPool present, configured]
  | detach owner rest logger notified alive =>
      have configured := laps.configured owner
      have first := lap owner
      rw [alive] at configured first
      have still : (ThreadLocal.alive logger false).FirstLap o.threadEventBufferCapacity False :=
        first
      exact replaced rfl (fun _ => configured) (still.mono False.elim)
  | drop owner rest logger notified alive =>
      have configured := laps.configured owner
      rw [alive] at configured
      exact replaced rfl (fun _ => configured) (firstLap_of_new positive (by rintro _ ⟨⟩))
  | clear owner rest deinitializing logger notified alive =>
      have configured := laps.configured owner
      have first := lap owner
      rw [alive] at configured first
      refine replaced rfl (fun _ => configured) (firstLap_of_new positive ?_)
      intro buffer cleared
      obtain ⟨earlier, present, rfl⟩ := Option.map_eq_some_iff.mp cleared
      rw [← (first earlier present).1]
      rfl
  | flushQueue _ _ _ entered | clearQueue _ _ entered | drainAndStop _ entered =>
      obtain ⟨queue, -, rfl⟩ := enter_queue entered
      exact laps.moved others laps.configured fun owner => unmoved owner rfl
  | _ => exact laps.moved others laps.configured fun owner => unmoved owner rfl

/-- If the next thing the thread does is to log, the pool has a slice for it. -/
def System.lends (s : System n α κ) (thread : Fin n) (overtaken : Overtaken) : Bool :=
  match s.code thread, s.loggers thread, s.pool with
  | .logEvent _ :: _, .alive logger _, some pool =>
      logger.buffer.all fun buffer => !buffer.borrows ||
        (CombinedBufferSlicePool.borrow overtaken (buffer.capacity - buffer.size) pool).1.isOk
  | _, _, _ => true

/-- What `LogEvent` does with the logger of its thread. -/
theorem execute_logEvent {overtaken : Overtaken} {rest : List (Instruction n α)} {event : α}
    (taken : s.execute thread overtaken rest (.logEvent event) = some s') :
    ∃ logger notified, s.loggers thread = .alive logger notified ∧
      (logger.attached = false ∧ s' = s.goto thread rest ∨
        logger.attached = true ∧ ∃ pool after left,
          s.pool = some pool ∧
          logger.push (CombinedBufferSlicePool.borrow overtaken) pool event = (after, left) ∧
          s' = { s with
            pool := some left
            loggers := Function.update s.loggers thread (.alive after notified) }.goto thread
              (if after.flushesNow then .flush thread :: rest else rest)) := by
  simp only [System.execute] at taken
  split at taken
  · rename_i logger notified alive
    refine ⟨logger, notified, alive, ?_⟩
    split at taken
    · rename_i unattached
      exact .inl ⟨by simpa using unattached, (Option.some.inj taken).symm⟩
    · rename_i attached
      obtain ⟨pool, pooled, rfl⟩ := Option.map_eq_some_iff.mp taken
      exact .inr ⟨by simpa using attached, pool, _, _, pooled, rfl, rfl⟩
  · cases taken

/-- Nobody else is at the logger of a thread that logs. -/
theorem FirstLaps.logging {event : α} {rest : List (Instruction n α)} (laps : FirstLaps o s)
    (tidy : Tidy s) (disciplined : Disciplined s) (next : s.code thread = .logEvent event :: rest) :
    (s.loggers thread).FirstLap o.threadEventBufferCapacity False := by
  rcases laps.filling thread with lap | ⟨renewer, later, renews⟩
  · exact lap.mono fun ⟨later, flushes⟩ => by simp [next] at flushes
  · have uncalled := tidy.logging thread event (by simp [next])
    rcases disciplined.own renewer thread (.inr (by simp [renews])) with rfl | ⟨position, called⟩
    · simp [next] at renews
    · cases called.symm.trans uncalled

/-- The buffer of the logger takes the event behind the others. -/
theorem FirstLaps.push {event : α} {rest : List (Instruction n α)} {overtaken : Overtaken}
    {logger after : EventLogger Owner α} {notified : Bool}
    {pool left : CombinedBufferSlicePool α} (laps : FirstLaps o s) (tidy : Tidy s)
    (disciplined : Disciplined s) (formed : Formed o s) (agreed : Agreed s)
    (lends : s.lends thread overtaken = true) (next : s.code thread = .logEvent event :: rest)
    (alive : s.loggers thread = .alive logger notified) (attached : logger.attached = true)
    (pooled : s.pool = some pool)
    (pushes : logger.push (CombinedBufferSlicePool.borrow overtaken) pool event = (after, left)) :
    ∃ buffer pushed, logger.buffer = some buffer ∧
      after = { logger with buffer := some pushed } ∧
      pushed.capacity = o.threadEventBufferCapacity ∧
      Filling pushed (contentsOf buffer ++ [event]) := by
  have lap := laps.logging tidy disciplined next
  have present := agreed.buffered thread (by rw [alive]; exact attached)
  rw [alive] at lap present
  obtain ⟨buffer, held⟩ := Option.isSome_iff_exists.mp present
  obtain ⟨sized, ⟨window, filling⟩, room⟩ := lap buffer held
  have short : buffer.size < buffer.capacity := sized ▸ room.resolve_right id
  have granted : buffer.borrows = true →
      (CombinedBufferSlicePool.borrow overtaken (buffer.capacity - buffer.size) pool).1.isOk =
        true := by
    intro asks
    simpa [System.lends, next, alive, pooled, held, asks] using lends
  have filled := filling.push_lent short
    (formed.lends_fresh pooled overtaken (buffer.capacity - buffer.size)) granted event
  refine ⟨buffer, (buffer.push (CombinedBufferSlicePool.borrow overtaken) pool event).1, held, ?_,
    (CircularSliceBuffer.capacity_push buffer _ pool event).trans sized, ?_⟩
  · rw [EventLogger.push, attached, held] at pushes
    rw [attached]
    exact (congrArg Prod.fst pushes).symm
  · rw [contentsOf_eq filling.holds]
    exact filled

/-- A logger that its thread need not flush has room. -/
theorem FirstLaps.kept {rest : List (Instruction n α)} {logger : EventLogger Owner α}
    {notified : Bool} {flushing : Prop} (laps : FirstLaps o s)
    (positive : 0 < o.threadEventBufferCapacity) (disciplined : Disciplined s)
    (next : s.code thread = .flush thread :: rest)
    (alive : s.loggers thread = .alive logger notified) (kept : logger.flush.2 = none) :
    (s.loggers thread).FirstLap o.threadEventBufferCapacity flushing := by
  rcases laps.filling thread with lap | ⟨renewer, later, renews⟩
  · rw [alive] at lap ⊢
    intro buffer present
    obtain ⟨sized, filling, -⟩ := lap buffer present
    have none : buffer.size = 0 := by
      simpa [CircularSliceBuffer.empty] using empty_of_kept present kept
    exact ⟨sized, filling, .inl (by omega)⟩
  · rcases disciplined.own renewer thread (.inr (by simp [renews])) with rfl | ⟨position, called⟩
    · simp [next] at renews
    · obtain rfl := code_of_calling disciplined.exclusive next called
      simp [next] at renews

theorem FirstLaps.execute {instruction : Instruction n α} {rest : List (Instruction n α)}
    {overtaken : Overtaken} (laps : FirstLaps o s) (positive : 0 < o.threadEventBufferCapacity)
    (flushAll : o.flushAllEvents = true) (tidy : Tidy s) (disciplined : Disciplined s)
    (formed : Formed o s) (agreed : Agreed s) (lends : s.lends thread overtaken = true)
    (next : s.code thread = instruction :: rest)
    (taken : s.execute thread overtaken rest instruction = some s') : FirstLaps o s' := by
  have instructed := execute_instructed taken
  have others := (instructed_executed instructed).own.code
  have unmoved : ∀ owner, s'.loggers owner = s.loggers owner →
      instruction ≠ .renew owner → (owner = thread → instruction ≠ .flush thread) →
        (s'.loggers owner).FirstLap o.threadEventBufferCapacity (s'.Flushing owner) ∨
        (∃ rest, s'.code thread = .renew owner :: rest) ∨
        s'.loggers owner = s.loggers owner ∧ (∀ rest, s.code thread ≠ .renew owner :: rest) ∧
          (owner = thread → ¬ s.Flushing thread) := by
    intro owner same renews flushes
    refine .inr (.inr ⟨same, ?_, ?_⟩)
    · intro later code
      exact renews (List.cons_eq_cons.mp (next.symm.trans code)).1
    · rintro own ⟨later, code⟩
      exact flushes own (List.cons_eq_cons.mp (next.symm.trans code)).1
  cases instruction with
  | logEvent event =>
      obtain ⟨logger, notified, alive,
          ⟨-, rfl⟩ | ⟨attached, pool, after, left, pooled, pushes, rfl⟩⟩ :=
        execute_logEvent taken
      · exact laps.moved others laps.configured fun owner => unmoved owner rfl (by simp) (by simp)
      · obtain ⟨buffer, pushed, -, rfl, sized, filled⟩ :=
          laps.push tidy disciplined formed agreed lends next alive attached pooled pushes
        have configured := laps.configured thread
        rw [alive] at configured
        refine laps.moved others (configured_update laps.configured fun _ => configured) ?_
        intro owner
        by_cases same : owner = thread
        · subst same
          refine .inl ?_
          simp only [System.goto, Function.update_self]
          intro held present
          obtain rfl : pushed = held := Option.some.inj present
          refine ⟨sized, ⟨_, filled⟩, ?_⟩
          rcases Nat.lt_or_ge pushed.size o.threadEventBufferCapacity with room | full
          · exact .inl room
          · refine .inr ⟨rest, ?_⟩
            have flag : logger.options.flushBufferWhenFull = true := by
              rw [show logger.options = _ from configured]
              exact flushAll
            have flushes : ({ logger with buffer := some pushed } :
                EventLogger Owner α).flushesNow = true := by
              simpa [EventLogger.flushesNow, attached, flag, CircularSliceBuffer.full, sized] using
                full
            simp [flushes]
        · exact unmoved owner (by simp [System.goto, same]) (by simp) (by simp)
  | flush place =>
      cases instructed with
      | keep _ logger notified alive kept =>
          refine laps.moved others laps.configured fun owner => ?_
          by_cases same : owner = thread ∧ place = thread
          · obtain ⟨rfl, rfl⟩ := same
            exact .inl (laps.kept positive disciplined next alive kept)
          · refine unmoved owner rfl (by simp) ?_
            rintro rfl flushes
            exact same ⟨rfl, Instruction.flush.inj flushes⟩
      | pass _ logger notified buffer _ alive passed entered =>
          obtain ⟨queue, -, rfl⟩ := enter_queue entered
          have configured := laps.configured place
          rw [alive] at configured
          refine laps.moved others (configured_update laps.configured fun _ => configured) ?_
          intro owner
          by_cases same : owner = place
          · subst same
            exact .inr (.inl ⟨rest, goto_self _ _ _⟩)
          · refine unmoved owner (by simp [System.goto, same]) (by simp) ?_
            rintro rfl flushes
            exact same (Instruction.flush.inj flushes).symm
  | renew place =>
      cases instructed with
      | renew _ logger notified alive =>
          have configured := laps.configured place
          rw [alive] at configured
          refine laps.moved others (configured_update laps.configured fun _ => configured) ?_
          intro owner
          by_cases same : owner = place
          · subst same
            refine .inl ?_
            simp only [System.goto, System.replaceLogger, Function.update_self]
            refine firstLap_of_new positive fun buffer made => ?_
            obtain ⟨-, -, rfl⟩ := Option.map_eq_some_iff.mp made
            rw [configured]
          · refine unmoved owner (by simp [System.goto, System.replaceLogger, same]) ?_ (by simp)
            intro renews
            exact same (Instruction.renew.inj renews).symm
  | unsubscribe =>
      cases instructed with
      | unsubscribe =>
          exact laps.moved others laps.configured fun owner => unmoved owner rfl (by simp) (by simp)
  | leave =>
      cases instructed with
      | leave logger notified alive =>
          have configured := laps.configured thread
          rw [alive] at configured
          refine laps.moved others (configured_update laps.configured fun _ => configured) ?_
          intro owner
          by_cases same : owner = thread
          · subst same
            refine .inl ?_
            simp only [System.goto, System.replaceLogger, Function.update_self]
            exact firstLap_of_new positive (by rintro _ ⟨⟩)
          · exact unmoved owner (by simp [System.goto, System.replaceLogger, same]) (by simp)
              (by simp)
  | destroy =>
      cases instructed with
      | destroy =>
          refine laps.moved others (configured_update laps.configured fun _ => trivial) ?_
          intro owner
          by_cases same : owner = thread
          · subst same
            refine .inl ?_
            simp only [System.goto, System.replaceLogger, Function.update_self]
            trivial
          · exact unmoved owner (by simp [System.goto, System.replaceLogger, same]) (by simp)
              (by simp)

end FirstLaps

end Spoor.Runtime.RuntimeManager
