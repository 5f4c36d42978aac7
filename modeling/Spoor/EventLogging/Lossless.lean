import Spoor.Buffer.Contents
import Spoor.EventLogging.EventLogger
import Spoor.Lib.Transition

/-! # Logging everything

In log-everything mode a buffer is flushed when it is full, measured against its
preferred capacity.  It goes round its slices when it gets no more of them,
measured against what it acquired.  The second comes first exactly when the
pool refuses a slice to a buffer that already has some, and then the oldest
events of the buffer are overwritten.
-/

namespace Spoor.EventLogging

open Buffer Lib.RingWindow Lib.Transition

open CircularSliceBuffer (FreshSlicePtr answering)

variable {α ω π : Type}

/-- An attached logger in log-everything mode. -/
def logEverything (preferredCapacity : Nat) : EventLogger ω α :=
  ((EventLogger.new ⟨preferredCapacity, true⟩).setPool true).1

/-- A logger with the buffers it passed to `Enqueue` and the events its buffer
    accepted. -/
structure Session (ω α : Type) where
  logger : EventLogger ω α
  enqueued : List (CircularSliceBuffer ω α)
  accepted : List α

/-- One `LogEvent`, and what the pool answers if it is asked for a slice. -/
structure LogCall (ω α : Type) where
  event : α
  answer : Except BorrowError (FreshSlicePtr ω α)

/-- The buffer stores the event. -/
def Session.accepts (s : Session ω α) (l : LogCall ω α) : Bool :=
  match s.logger.attached, s.logger.buffer with
  | true, some buffer => buffer.accepts (answering l.answer) ()
  | _, _ => false

def log (s : Session ω α) (l : LogCall ω α) : Session ω α :=
  let result := s.logger.logEvent (answering l.answer) () l.event
  { logger := result.1.1
    enqueued := s.enqueued ++ result.2.toList
    accepted := if s.accepts l then s.accepted ++ [l.event] else s.accepted }

def contentsOf (b : CircularSliceBuffer ω α) : List α :=
  (b.contiguousMemoryChunks.getD []).flatten

/-- The events in the buffers passed on and in the current buffer, in order. -/
def Session.stored (s : Session ω α) : List α :=
  (s.enqueued ++ s.logger.buffer.toList).flatMap contentsOf

/-- The buffer has never gone round its slices: the current one is the last, and
    it is in its first lap. -/
inductive Filling (b : CircularSliceBuffer ω α) : List α → Prop where
  | unused : b.slices = [] → b.insertionIterator = 0 → b.size = 0 →
      b.acquiredSlicesCapacity = 0 → Filling b []
  | filling (before : List (OwnedSlicePtr ω α)) (ptr : OwnedSlicePtr ω α) :
      b.Turning before ptr [] → ptr.slice.view.older = [] → ptr.slice.view.newer ≠ [] →
      Filling b (ring (views before) ptr.slice.view [])

variable {b : CircularSliceBuffer ω α} {window : List α}

theorem Filling.holds (filling : Filling b window) : b.Holds window := by
  cases filling with
  | unused slices position size acquired => exact .unused slices position size acquired
  | filling before ptr turning _ written => exact .turning before ptr [] turning written

/-- A segment in its first lap takes an item without giving one up. -/
theorem push_of_unlapped {s : Segment α} (formed : s.Formed) (first : s.older = [])
    (unlapped : ¬ s.Lapped) (item : α) : s.push item = { s with newer := s.newer ++ [item] } := by
  have size := s.size_eq
  have bounded := formed.bounded
  rw [first, List.length_nil, Nat.zero_add] at size
  have room : s.size < s.capacity := by
    rcases Nat.lt_or_ge s.size s.capacity with room | full
    · exact room
    · exact absurd ⟨first, by omega⟩ unlapped
  rw [Segment.push, if_pos room]

theorem Filling.insert {before : List (OwnedSlicePtr ω α)} {ptr : OwnedSlicePtr ω α}
    (turning : b.Turning before ptr []) (first : ptr.slice.view.older = [])
    (unlapped : ¬ ptr.slice.view.Lapped) (item : α) :
    Filling (b.insert item) (ring (views before) ptr.slice.view [] ++ [item]) := by
  have pushed : (ptr.slice.push item).view =
      { ptr.slice.view with newer := ptr.slice.view.newer ++ [item] } := by
    rw [(turning.ptr_formed.push item).2]
    exact push_of_unlapped turning.ptr_formed.view_formed first unlapped item
  have filling := Filling.filling before _ (turning.insert item) (by rw [pushed]; exact first)
    (by rw [pushed]; simp)
  rw [pushed] at filling
  simpa [ring, List.append_assoc] using filling

/-- The pool does not refuse a slice to a buffer that already holds events. -/
def Granted (b : CircularSliceBuffer ω α)
    (answer : Except BorrowError (FreshSlicePtr ω α)) : Prop :=
  b.borrows → b.empty = false → answer.isOk

theorem borrows_of_ended (ended : b.advance.insertionIterator = b.slices.length)
    (room : b.acquiredSlicesCapacity < b.capacity) : b.borrows := by
  simp [CircularSliceBuffer.borrows, ended, room]

theorem answering_ok {answer : Except BorrowError (FreshSlicePtr ω α)} {preferred : Nat}
    {ptr : OwnedSlicePtr ω α} {pool : Unit}
    (answers : answering answer preferred () = (.ok ptr, pool)) : ptr.slice.Fresh :=
  CircularSliceBuffer.answering_lends answer preferred () ptr pool answers

theorem answering_error {answer : Except BorrowError (FreshSlicePtr ω α)} {preferred : Nat}
    {error : BorrowError} {pool : Unit}
    (answers : answering answer preferred () = (.error error, pool)) : answer.isOk = false := by
  cases answer with
  | error => rfl
  | ok => simp [answering, Except.map] at answers

/-- A slice at its end has no room left anywhere in the ring. -/
theorem size_eq_acquired {before after : List (OwnedSlicePtr ω α)} {ptr : OwnedSlicePtr ω α}
    (turning : b.Turning before ptr after) (lapped : ptr.slice.view.Lapped) :
    b.size = b.acquiredSlicesCapacity := by
  have room := turning.room
  have full : ptr.slice.size = ptr.slice.capacity := by
    rw [← turning.ptr_formed.size_view, lapped.size, Slice.capacity_view]
  omega

/-- A granted push appends to a buffer that has not gone round. -/
theorem Filling.push (filling : Filling b window) (short : b.size < b.capacity)
    {answer : Except BorrowError (FreshSlicePtr ω α)} (granted : Granted b answer) (event : α)
    (accepts : b.accepts (answering answer) ()) :
    Filling (b.push (answering answer) () event).1 (window ++ [event]) := by
  have positive : b.capacity ≠ 0 := by omega
  have pushed : (b.push (answering answer) () event).1 =
      (b.prepareToPush (answering answer) ()).1.insert event := by
    simp [CircularSliceBuffer.push, positive]
  have found := (CircularSliceBuffer.accepts_iff positive).mp accepts
  have prepared := b.prepareToPush_prepared (answering answer) ()
  rw [pushed]
  generalize b.prepareToPush (answering answer) () = result at prepared found ⊢
  cases filling with
  | unused slices position size acquired =>
      have stays : b.advance = b := by
        simp [CircularSliceBuffer.advance, CircularSliceBuffer.current, slices]
      cases prepared with
      | inside inner => simp [stays, position, slices] at inner
      | wrapped _ full => omega
      | refused =>
          simp [CircularSliceBuffer.begin, CircularSliceBuffer.current, slices] at found
      | lent ptr _ _ _ answers =>
          have fresh := answering_ok answers
          have turning : (b.acquire ptr).Turning b.slices ptr [] :=
            CircularSliceBuffer.acquire_turning fresh (by simp [slices]) (by simp [slices])
              (by rw [size, slices]; rfl) (by rw [acquired, slices]; rfl)
          have filled := Filling.insert turning (by rw [fresh.view_eq]) fresh.unlapped event
          simpa [slices, views, ring, fresh.view_eq] using filled
  | filling before ptr turning first written =>
      cases prepared with
      | inside inner =>
          rcases turning.advance_eq with ⟨-, moves⟩ | ⟨unlapped, stays⟩
          · simp [moves, turning.position, turning.slices] at inner
          · rw [stays]
            exact Filling.insert turning first unlapped event
      | wrapped ended full =>
          have size := size_eq_acquired turning (turning.of_ended ended).2
          omega
      | refused error _ ended room answers =>
          have occupied : b.empty = false := by
            simpa [CircularSliceBuffer.empty] using (turning.size_ne_zero written).2
          have ok := granted (borrows_of_ended ended room) occupied
          simp [answering_error answers] at ok
      | lent fresh _ ended _ answers =>
          have lapped := (turning.of_ended ended).2
          have lent := answering_ok answers
          have turning' : (b.acquire fresh).Turning b.slices fresh [] :=
            CircularSliceBuffer.acquire_turning lent turning.formed (turning.all_lapped lapped)
              turning.size turning.acquired
          have filled := Filling.insert turning' (by rw [lent.view_eq]) lent.unlapped event
          rw [lent.view_eq, ring_extend, ← turning.row lapped] at filled
          exact filled

/-- A refused slice costs a buffer that holds events its oldest one. -/
theorem push_of_refused (holds : b.Holds window)
    {answer : Except BorrowError (FreshSlicePtr ω α)} (refused : ¬ Granted b answer)
    (event : α) :
    b.accepts (answering answer) () ∧ (b.push (answering answer) () event).1.size = b.size := by
  obtain ⟨asks, occupied, error⟩ : b.borrows ∧ b.empty = false ∧ answer.isOk = false := by
    simpa [Granted] using refused
  rw [CircularSliceBuffer.borrows, Bool.and_eq_true, beq_iff_eq, decide_eq_true_eq] at asks
  obtain ⟨ended, room⟩ := asks
  have positive : b.capacity ≠ 0 := by omega
  have prepared := b.prepareToPush_prepared (answering answer) ()
  rw [CircularSliceBuffer.accepts_iff positive]
  have pushed : (b.push (answering answer) () event).1 =
      (b.prepareToPush (answering answer) ()).1.insert event := by
    simp [CircularSliceBuffer.push, positive]
  rw [pushed]
  generalize b.prepareToPush (answering answer) () = result at prepared ⊢
  cases holds with
  | unused _ _ size => simp [CircularSliceBuffer.empty, size] at occupied
  | turning before ptr after turning =>
      obtain ⟨rfl, lapped⟩ := turning.of_ended ended
      have size := size_eq_acquired turning lapped
      have found := (turning.begin lapped).current_isSome
      cases prepared with
      | inside inner => exact absurd ended inner
      | wrapped _ full => omega
      | lent fresh pool _ _ answers =>
          cases answer with
          | error => simp [answering, Except.map] at answers
          | ok => simp [Except.isOk, Except.toBool] at error
      | refused =>
          refine ⟨found, ?_⟩
          obtain ⟨first, current⟩ := Option.isSome_iff_exists.mp found
          simp only [CircularSliceBuffer.insert, current]
          simp only [CircularSliceBuffer.begin]
          omega

def initial (capacity : Nat) : Session ω α := ⟨logEverything capacity, [], []⟩

theorem contentsOf_eq (holds : b.Holds window) : contentsOf b = window := by
  obtain ⟨chunks, defined, contents⟩ := holds.chunks
  rw [contentsOf, defined]
  exact contents

/-- The session of an attached logger in log-everything mode, whose current
    buffer is not full and holds a window in the given sense. -/
structure Active (holding : CircularSliceBuffer ω α → List α → Prop) (capacity : Nat)
    (s : Session ω α) (b : CircularSliceBuffer ω α) (window : List α) : Prop where
  logger : s.logger = ⟨⟨capacity, true⟩, true, some b⟩
  sized : b.capacity = capacity
  short : b.size < capacity
  holding : holding b window

section

variable {holding : CircularSliceBuffer ω α → List α → Prop} {capacity : Nat}
  {s : Session ω α}

theorem Active.initial (unused : holding (.new capacity) []) (positive : 0 < capacity) :
    Active holding capacity (initial capacity) (.new capacity) [] where
  logger := rfl
  sized := rfl
  short := positive
  holding := unused

theorem Active.stored (active : Active holding capacity s b window)
    (holds : holding b window → b.Holds window) :
    s.stored = s.enqueued.flatMap contentsOf ++ window := by
  simp [Session.stored, active.logger, contentsOf_eq (holds active.holding)]

theorem Active.log_eq (active : Active holding capacity s b window) (call : LogCall ω α)
    {b' : CircularSliceBuffer ω α}
    (pushed : (b.push (answering call.answer) () call.event).1 = b') :
    log s call =
      { logger := ⟨⟨capacity, true⟩, true, some (if b'.full then .new capacity else b')⟩
        enqueued := s.enqueued ++ if b'.full then [b'] else []
        accepted := if b.accepts (answering call.answer) () then s.accepted ++ [call.event]
          else s.accepted } := by
  have positive := active.short
  have kept : b'.capacity = capacity := by
    rw [← pushed, CircularSliceBuffer.capacity_push, active.sized]
  have accepts : s.accepts call = b.accepts (answering call.answer) () := by
    simp [Session.accepts, active.logger]
  have result : s.logger.push (answering call.answer) () call.event =
      (⟨⟨capacity, true⟩, true, some b'⟩, ()) := by
    simp [EventLogger.push, active.logger, pushed]
  rw [log, EventLogger.logEvent, result, accepts]
  cases full : b'.full with
  | false => simp [EventLogger.flushesNow, full]
  | true =>
      have some : b'.empty = false := by
        rw [CircularSliceBuffer.full, decide_eq_true_eq] at full
        rw [CircularSliceBuffer.empty, beq_eq_false_iff_ne]
        omega
      simp [EventLogger.flushesNow, EventLogger.flush, full, some]

/-- Logging an event keeps the session active, and stores what the push leaves
    in the buffer. -/
theorem Active.log (active : Active holding capacity s b window)
    (unused : holding (.new capacity) []) (call : LogCall ω α) {b' : CircularSliceBuffer ω α}
    {window' : List α} (pushed : (b.push (answering call.answer) () call.event).1 = b')
    (holding' : holding b' window') (holds : b'.Holds window') :
    (∃ next rest, Active holding capacity (log s call) next rest) ∧
      (EventLogging.log s call).stored = s.enqueued.flatMap contentsOf ++ window' := by
  have positive := active.short
  have contents := contentsOf_eq holds
  rw [active.log_eq call pushed]
  cases full : b'.full with
  | true =>
      have short : 0 < capacity := by omega
      refine ⟨⟨.new capacity, [], ⟨by simp, rfl, short, unused⟩⟩, ?_⟩
      have empty : contentsOf (.new capacity : CircularSliceBuffer ω α) = [] := rfl
      simp [Session.stored, contents, empty]
  | false =>
      have kept : b'.capacity = capacity := by
        rw [← pushed, CircularSliceBuffer.capacity_push, active.sized]
      rw [CircularSliceBuffer.full, decide_eq_false_iff_not] at full
      refine ⟨⟨b', window', ⟨by simp, kept, by omega, holding'⟩⟩, ?_⟩
      simp [Session.stored, contents]

/-- A buffer only turns an event away when it has no slice and is refused one. -/
theorem rejects_only_when_refused (active : Active holding capacity s b window)
    (holds : holding b window → b.Holds window) {call : LogCall ω α}
    (rejects : s.accepts call = false) : b.empty ∧ call.answer.isOk = false := by
  have positive : b.capacity ≠ 0 := by
    have short := active.short
    rw [active.sized]
    omega
  have lends := CircularSliceBuffer.answering_lends call.answer
  have turned : b.accepts (answering call.answer) () = false := by
    simpa [Session.accepts, active.logger] using rejects
  have prepared := b.prepareToPush_prepared (answering call.answer) ()
  have none : ¬ (b.prepareToPush (answering call.answer) ()).1.current.isSome := by
    rw [← CircularSliceBuffer.accepts_iff positive, turned]
    simp
  generalize b.prepareToPush (answering call.answer) () = result at prepared none
  cases holds active.holding with
  | unused slices position size acquired =>
      refine ⟨by simp [CircularSliceBuffer.empty, size], ?_⟩
      cases prepared with
      | inside inner =>
          simp [CircularSliceBuffer.advance, CircularSliceBuffer.current, slices, position] at inner
      | wrapped _ full => omega
      | refused _ _ _ _ answers => exact answering_error answers
      | lent => simp [CircularSliceBuffer.acquire, CircularSliceBuffer.current] at none
  | turning before ptr after turning =>
      have accepts := (holds active.holding).accepts () lends positive (by simp [turning.slices])
      simp [turned] at accepts

/-- Logging an event stores it behind the others, or it costs an event. -/
theorem Active.lengths (active : Active CircularSliceBuffer.Holds capacity s b window)
    (call : LogCall ω α) :
    (∃ next rest, Active CircularSliceBuffer.Holds capacity (EventLogging.log s call) next rest) ∧
      (EventLogging.log s call).stored.length + s.accepted.length ≤
        s.stored.length + (EventLogging.log s call).accepted.length ∧
      (¬ Granted b call.answer → (EventLogging.log s call).stored.length + s.accepted.length <
        s.stored.length + (EventLogging.log s call).accepted.length) := by
  have lends := CircularSliceBuffer.answering_lends call.answer
  have unused : CircularSliceBuffer.Holds (.new capacity : CircularSliceBuffer ω α) [] :=
    .unused rfl rfl rfl rfl
  have stored := active.stored (fun holds => holds)
  have accepted : (EventLogging.log s call).accepted =
      if b.accepts (answering call.answer) () then s.accepted ++ [call.event] else s.accepted := by
    rw [active.log_eq call rfl]
  rcases CircularSliceBuffer.push_holds () lends active.holding call.event with
    ⟨window', accepts, slide, holds⟩ | ⟨rejects, stays⟩
  · obtain ⟨next, stored'⟩ := active.log unused call rfl holds holds
    have size := holds.length
    have size' := active.holding.length
    refine ⟨next, ?_, ?_⟩
    · have grown := slide.length_le
      rw [stored, stored', accepted, if_pos accepts]
      simp only [List.length_append, List.length_singleton]
      omega
    · intro refused
      have kept := (push_of_refused active.holding refused call.event).2
      rw [stored, stored', accepted, if_pos accepts]
      simp only [List.length_append, List.length_singleton]
      omega
  · obtain ⟨next, stored'⟩ := active.log unused call stays active.holding active.holding
    refine ⟨next, ?_, ?_⟩
    · rw [stored, stored', accepted, rejects]
      simp
    · intro refused
      have accepts := (push_of_refused active.holding refused call.event).1
      simp [rejects] at accepts

end

/-- The pool does not refuse a slice to the session's buffer once that holds events. -/
def Grants (s : Session ω α) (call : LogCall ω α) : Prop :=
  ∀ b ∈ s.logger.buffer, Granted b call.answer

instance (b : CircularSliceBuffer ω α) (answer : Except BorrowError (FreshSlicePtr ω α)) :
    Decidable (Granted b answer) :=
  inferInstanceAs (Decidable (_ → _ → _))

instance (s : Session ω α) (call : LogCall ω α) : Decidable (Grants s call) :=
  inferInstanceAs (Decidable (∀ b ∈ s.logger.buffer, Granted b call.answer))

def step (s : Session ω α) (call : LogCall ω α) : Option (Session ω α) := some (log s call)

theorem step_filling {capacity : Nat} {s s' : Session ω α} {call : LogCall ω α}
    (filling : ∃ b window, Active Filling capacity s b window)
    (lossless : s.stored = s.accepted) (grants : Grants s call) (taken : step s call = some s') :
    (∃ b window, Active Filling capacity s' b window) ∧ s'.stored = s'.accepted := by
  obtain rfl : log s call = s' := Option.some.inj taken
  obtain ⟨b, window, active⟩ := filling
  have stored := active.stored Filling.holds
  have unused : Filling (.new capacity : CircularSliceBuffer ω α) [] := .unused rfl rfl rfl rfl
  have granted : Granted b call.answer := grants b (by simp [active.logger])
  have accepted : (log s call).accepted =
      if b.accepts (answering call.answer) () then s.accepted ++ [call.event] else s.accepted := by
    rw [active.log_eq call rfl]
  by_cases accepts : b.accepts (answering call.answer) ()
  · have filled := active.holding.push (by rw [active.sized]; exact active.short) granted
      call.event accepts
    obtain ⟨next, stored'⟩ := active.log unused call rfl filled filled.holds
    refine ⟨next, ?_⟩
    rw [stored', accepted, if_pos accepts, ← lossless, stored, List.append_assoc]
  · rcases CircularSliceBuffer.push_holds () (CircularSliceBuffer.answering_lends call.answer)
      active.holding.holds call.event with ⟨_, absurdly, _⟩ | ⟨rejects, stays⟩
    · exact absurd absurdly accepts
    · obtain ⟨next, stored'⟩ := active.log unused call stays active.holding active.holding.holds
      refine ⟨next, ?_⟩
      rw [stored', accepted, if_neg accepts, ← lossless, stored]

theorem run_filling {capacity : Nat} (positive : 0 < capacity) {calls : List (LogCall ω α)}
    {s : Session ω α} (grants : Meets step Grants (initial capacity) calls)
    (reached : exec step (initial capacity) calls = some s) : s.stored = s.accepted := by
  refine (invariant Grants
    (fun t => (∃ b window, Active Filling capacity t b window) ∧ t.stored = t.accepted)
    ⟨⟨_, _, .initial (.unused rfl rfl rfl rfl) positive⟩, rfl⟩ ?_ grants reached).2
  rintro t call u ⟨filling, lossless⟩ granted taken
  exact step_filling filling lossless granted taken

/-- Events that were lost stay lost. -/
theorem step_lengths {capacity : Nat} {s s' : Session ω α} {call : LogCall ω α}
    (holds : ∃ b window, Active CircularSliceBuffer.Holds capacity s b window)
    (taken : step s call = some s') :
    (∃ b window, Active CircularSliceBuffer.Holds capacity s' b window) ∧
      s'.stored.length + s.accepted.length ≤ s.stored.length + s'.accepted.length ∧
      (¬ Grants s call →
        s'.stored.length + s.accepted.length < s.stored.length + s'.accepted.length) := by
  obtain rfl : log s call = s' := Option.some.inj taken
  obtain ⟨b, window, active⟩ := holds
  obtain ⟨next, bounded, costs⟩ := active.lengths call
  refine ⟨next, bounded, ?_⟩
  intro refuses
  refine costs ?_
  intro granted
  refine refuses ?_
  intro other member
  obtain rfl : b = other := by simpa [active.logger] using member
  exact granted

theorem run_lengths {capacity : Nat} {calls : List (LogCall ω α)} {s t : Session ω α}
    (holds : ∃ b window, Active CircularSliceBuffer.Holds capacity s b window)
    (reached : exec step s calls = some t) :
    (∃ b window, Active CircularSliceBuffer.Holds capacity t b window) ∧
      t.stored.length + s.accepted.length ≤ s.stored.length + t.accepted.length := by
  refine invariant_always (fun t =>
    (∃ b window, Active CircularSliceBuffer.Holds capacity t b window) ∧
      t.stored.length + s.accepted.length ≤ s.stored.length + t.accepted.length)
    ⟨holds, Nat.le_refl _⟩ ?_ reached
  rintro u call v ⟨held, bounded⟩ taken
  obtain ⟨next, more, -⟩ := step_lengths held taken
  exact ⟨next, by omega⟩

theorem initially_active {capacity : Nat} (positive : 0 < capacity) :
    ∃ b window, Active CircularSliceBuffer.Holds capacity
      (initial capacity : Session ω α) b window :=
  ⟨_, _, .initial (.unused rfl rfl rfl rfl) positive⟩

/-- An event is only turned away when the pool refuses a slice. -/
def RejectsRefused (s : Session ω α) (call : LogCall ω α) : Prop :=
  s.accepts call = false → call.answer.isOk = false

/-- What logging everything means for a run: the buffers passed on and the current one
    hold the logged events in order, less those the pool had no slice for. -/
structure Lossless (capacity : Nat) (calls : List (LogCall ω α)) (s : Session ω α) : Prop where
  stored : s.stored = s.accepted
  rejected : Meets step RejectsRefused (initial capacity) calls

theorem run_rejectsRefused {capacity : Nat} (positive : 0 < capacity)
    (calls : List (LogCall ω α)) : Meets step RejectsRefused (initial capacity) calls := by
  intro before call after t _ reached rejects
  obtain ⟨⟨b, window, active⟩, -⟩ := run_lengths (initially_active positive) reached
  exact (rejects_only_when_refused active id rejects).2

/-- Nothing accepted is lost if and only if the pool never refuses a slice to a
    buffer that already holds events. -/
theorem lossless_iff (capacity : Nat) (positive : 0 < capacity)
    (calls : List (LogCall ω α)) (s : Session ω α)
    (completes : exec step (initial capacity) calls = some s) :
    Lossless capacity calls s ↔ Meets step Grants (initial capacity) calls := by
  constructor
  · intro lossless before call after t split reached
    by_contra refuses
    obtain ⟨held, earlier⟩ := run_lengths (initially_active positive) reached
    obtain ⟨next, -, costs⟩ := step_lengths held (show step t call = some (log t call) from rfl)
    have lost := costs refuses
    have rest : exec step (log t call) after = some s := by
      rw [split, exec_append, reached] at completes
      exact completes
    have later := (run_lengths next rest).2
    have none : (initial capacity : Session ω α).stored.length = 0 := rfl
    have same := congrArg List.length lossless.stored
    simp only [initial, List.length_nil] at earlier none
    omega
  · intro grants
    exact ⟨run_filling positive grants completes, run_rejectsRefused positive calls⟩

/-- The pool lends a slice for two events. -/
def lendTwo (event : Nat) : LogCall Unit Nat :=
  ⟨event, .ok ⟨⟨(), .owned (.new 2)⟩, Slice.fresh_owned (by decide)⟩⟩

def refuse (event : Nat) : LogCall Unit Nat := ⟨event, .error .noSlicesAvailable⟩

theorem lossless_iff_lendTwo :
    ∃ s, exec step (initial 4) [lendTwo 1, lendTwo 2, lendTwo 3] = some s ∧
      (Lossless 4 [lendTwo 1, lendTwo 2, lendTwo 3] s ↔
        Meets step Grants (initial 4) [lendTwo 1, lendTwo 2, lendTwo 3]) :=
  ⟨_, rfl, lossless_iff 4 (by decide) _ _ rfl⟩

/-- A logger for four events gets a slice for two; the third event overwrites
    the first one, and no buffer has been passed on. -/
theorem refused_slice_overwrites :
    ∃ s, exec step (initial 4) [lendTwo 1, refuse 2, refuse 3] = some s ∧
      s.enqueued.length = 0 ∧ s.accepted = [1, 2, 3] ∧ s.stored = [2, 3] ∧
      ¬ Lossless 4 [lendTwo 1, refuse 2, refuse 3] s := by
  refine ⟨_, rfl, rfl, rfl, rfl, ?_⟩
  intro lossless
  cases lossless.stored

end Spoor.EventLogging
