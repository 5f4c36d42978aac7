import Spoor.EventLogging.Lossless

/-! # What an event logger hands over

A logger hands its buffer to the flush queue when it is told to flush, when the
buffer is full in log-everything mode, and when its pool goes away.  Whatever the
pool answered until then, the buffer is a window over the events it accepted
since it was made or cleared.  It is given up where it is handed over, so no
event is handed over twice.
-/

namespace Spoor.EventLogging

open Buffer

open CircularSliceBuffer (answering WindowOf)

variable {α ω : Type}

/-- A call on a logger.  `setPool` says whether the pool is not null. -/
inductive LoggerCall (ω α : Type) where
  | setPool (attached : Bool)
  | logEvent (call : LogCall ω α)
  | flush
  | clear

/-- A session, with the events the buffer accepted since the latest flush that
    handed over a buffer, clear or change of the pool. -/
structure History (ω α : Type) extends Session ω α where
  recent : List α

namespace History

def start (options : Options) : History ω α := ⟨⟨.new options, [], []⟩, []⟩

/-- The recent events at the time a call may hand over the buffer. -/
def recentAt (s : History ω α) : LoggerCall ω α → List α
  | .logEvent call => if s.accepts call then s.recent ++ [call.event] else s.recent
  | _ => s.recent

/-- The buffer a call passes to `Enqueue`. -/
def handed (s : History ω α) : LoggerCall ω α → Option (CircularSliceBuffer ω α)
  | .setPool attached => (s.logger.setPool attached).2
  | .logEvent call => (s.logger.logEvent (answering call.answer) () call.event).2
  | .flush => s.logger.flush.2
  | .clear => none

def apply (s : History ω α) (call : LoggerCall ω α) : History ω α :=
  let enqueued := s.enqueued ++ (s.handed call).toList
  match call with
  | .setPool attached =>
      ⟨⟨(s.logger.setPool attached).1, enqueued, s.accepted⟩, []⟩
  | .logEvent logged =>
      ⟨log s.toSession logged,
        if (s.handed call).isSome then [] else s.recentAt call⟩
  | .flush =>
      ⟨⟨s.logger.flush.1, enqueued, s.accepted⟩,
        if (s.handed call).isSome then [] else s.recent⟩
  | .clear => ⟨⟨s.logger.clear.1, enqueued, s.accepted⟩, []⟩

def run (options : Options) (calls : List (LoggerCall ω α)) : History ω α :=
  calls.foldl apply (start options)

/-- The buffer is a window over the recent events, and these come after all
    events that were handed over. -/
structure Valid (s : History ω α) : Prop where
  present : s.logger.buffer.isSome = s.logger.attached
  window : ∀ b, s.logger.buffer = some b → b.WindowOf s.recent
  occupied : ∀ b ∈ s.enqueued, b.empty = false
  order : (s.enqueued.flatMap contentsOf ++ s.recent).Sublist s.accepted

variable {s : History ω α}

theorem Valid.start (options : Options) : (start options : History ω α).Valid where
  present := rfl
  window := by simp [History.start, EventLogger.new]
  occupied := by simp [History.start]
  order := by simp [History.start]

/-- Giving up the recent events. -/
theorem Valid.forget (valid : s.Valid) :
    (s.enqueued.flatMap contentsOf ++ []).Sublist s.accepted := by
  rw [List.append_nil]
  exact (List.sublist_append_left _ _).trans valid.order

/-- `Flush` hands over a buffer that holds events, and does nothing otherwise. -/
theorem flush_cases (l : EventLogger ω α) :
    (l.flush = (l, none) ∧ ∀ b, l.buffer = some b → b.empty = true) ∨
      ∃ b, l.buffer = some b ∧ b.empty = false ∧
        l.flush = ({ l with buffer := some (.new l.options.preferredCapacity) }, some b) := by
  unfold EventLogger.flush
  cases present : l.buffer with
  | none => exact .inl ⟨rfl, by simp⟩
  | some b =>
      cases occupied : b.empty with
      | true => exact .inl ⟨by simp [occupied], by simp [occupied]⟩
      | false => exact .inr ⟨b, rfl, occupied, by simp [occupied]⟩

/-- What a buffer that holds events shows of the recent ones. -/
theorem window_contents {b : CircularSliceBuffer ω α} {recent : List α}
    (window : b.WindowOf recent) (occupied : b.empty = false) :
    ∃ chunks, b.contiguousMemoryChunks = some chunks ∧ chunks.flatten ≠ [] ∧
      chunks.flatten <:+ recent := by
  obtain ⟨held, holds, latest⟩ := window.window
  obtain ⟨chunks, defined, contents⟩ := holds.chunks
  refine ⟨chunks, defined, ?_, contents ▸ latest⟩
  intro none
  have length := holds.length
  rw [← contents, none, List.length_nil] at length
  simp [CircularSliceBuffer.empty, ← length] at occupied

theorem contentsOf_suffix {b : CircularSliceBuffer ω α} {recent : List α}
    (window : b.WindowOf recent) : contentsOf b <:+ recent := by
  obtain ⟨held, holds, latest⟩ := window.window
  rw [contentsOf_eq holds]
  exact latest

theorem Valid.flush (valid : s.Valid) : (s.apply .flush).Valid := by
  rcases flush_cases s.logger with ⟨stays, -⟩ | ⟨b, present, occupied, flushes⟩
  · have same : s.apply .flush = s := by
      simp [apply, handed, stays]
    rw [same]
    exact valid
  · have latest := contentsOf_suffix (valid.window b present)
    simp only [apply, handed, flushes, Option.toList_some, Option.isSome_some, if_true]
    constructor
    case present => simpa [present] using valid.present
    case window =>
      intro other made
      obtain rfl := Option.some.inj made
      exact .new _
    case occupied =>
      intro other member
      rcases List.mem_append.mp member with earlier | last
      · exact valid.occupied other earlier
      · obtain rfl := List.mem_singleton.mp last
        exact occupied
    case order =>
      rw [List.append_nil, List.flatMap_append, List.flatMap_singleton]
      exact (latest.sublist.append_left _).trans valid.order

theorem Valid.setPool (valid : s.Valid) (attached : Bool) :
    (s.apply (.setPool attached)).Valid := by
  cases attached with
  | true =>
      simp only [apply, handed, EventLogger.setPool, if_true, Option.toList_none, List.append_nil]
      refine ⟨rfl, ?_, valid.occupied, valid.forget⟩
      intro b made
      obtain rfl := Option.some.inj made
      exact .new _
  | false =>
      have flushed := valid.flush
      exact ⟨rfl, by simp [apply, EventLogger.setPool], flushed.occupied, flushed.forget⟩

theorem Valid.clear (valid : s.Valid) : (s.apply .clear).Valid := by
  have same : s.logger.clear.1.attached = s.logger.attached ∧
      s.logger.clear.1.buffer = s.logger.buffer.map fun buffer => buffer.clear.1 := by
    unfold EventLogger.clear
    cases present : s.logger.buffer <;> simp [present]
  obtain ⟨attached, cleared⟩ := same
  simp only [apply, handed, Option.toList_none, List.append_nil]
  refine ⟨?_, ?_, valid.occupied, valid.forget⟩
  · rw [attached, cleared, Option.isSome_map]
    exact valid.present
  · intro b made
    rw [cleared] at made
    obtain ⟨earlier, -, rfl⟩ := Option.map_eq_some_iff.mp made
    exact .new _

/-- The first half of `LogEvent`. -/
def pushed (s : History ω α) (call : LogCall ω α) : History ω α :=
  ⟨⟨(s.logger.push (answering call.answer) () call.event).1, s.enqueued,
    if s.accepts call then s.accepted ++ [call.event] else s.accepted⟩,
    if s.accepts call then s.recent ++ [call.event] else s.recent⟩

theorem Valid.pushed (valid : s.Valid) (call : LogCall ω α) : (s.pushed call).Valid := by
  have present := valid.present
  cases buffer : s.logger.buffer with
  | none =>
      have rejects : s.accepts call = false := by simp [Session.accepts, buffer]
      have same : s.pushed call = s := by
        simp [History.pushed, EventLogger.push, buffer, rejects]
      rw [same]
      exact valid
  | some b =>
      have attached : s.logger.attached = true := by simpa [buffer] using present.symm
      have accepts : s.accepts call = b.accepts (answering call.answer) () := by
        simp [Session.accepts, buffer, attached]
      have moved : (s.logger.push (answering call.answer) () call.event).1 =
          { s.logger with buffer := some (b.push (answering call.answer) () call.event).1 } := by
        simp [EventLogger.push, buffer, attached]
      have window := CircularSliceBuffer.apply_windowOf (valid.window b buffer)
        (.push call.event call.answer)
      simp only [History.pushed, moved, accepts]
      constructor
      case present => simp [attached]
      case window =>
        intro other made
        obtain rfl := Option.some.inj made
        exact window
      case occupied => exact valid.occupied
      case order =>
        split
        · rw [← List.append_assoc]
          exact valid.order.append_right _
        · exact valid.order

/-- `LogEvent` is a push and then perhaps a flush. -/
theorem apply_logEvent (s : History ω α) (call : LogCall ω α) :
    s.apply (.logEvent call) =
      if (s.pushed call).logger.flushesNow then (s.pushed call).apply .flush
      else s.pushed call := by
  have halves : s.logger.logEvent (answering call.answer) () call.event =
      if (s.pushed call).logger.flushesNow then
        (((s.pushed call).logger.flush.1, ()), (s.pushed call).logger.flush.2)
      else (((s.pushed call).logger, ()), none) := rfl
  cases flushes : (s.pushed call).logger.flushesNow with
  | true =>
      simp only [flushes, if_true] at halves ⊢
      simp only [apply, handed, log, halves, recentAt]
      rfl
  | false =>
      simp only [flushes, Bool.false_eq_true, if_false] at halves ⊢
      simp [apply, handed, log, halves, recentAt, History.pushed]

theorem Valid.apply (valid : s.Valid) (call : LoggerCall ω α) : (s.apply call).Valid := by
  cases call with
  | setPool attached => exact valid.setPool attached
  | logEvent call =>
      rw [apply_logEvent]
      split
      · exact (valid.pushed call).flush
      · exact valid.pushed call
  | flush => exact valid.flush
  | clear => exact valid.clear

theorem Valid.run (options : Options) (calls : List (LoggerCall ω α)) :
    (run options calls : History ω α).Valid := by
  induction calls using List.reverseRecOn with
  | nil => exact .start options
  | append_singleton calls call ih =>
      have last : History.run options (calls ++ [call]) =
          (History.run options calls).apply call := by
        simp [History.run]
      rw [last]
      exact ih.apply call

theorem Valid.attached (valid : s.Valid) (hands : s.logger.flush.2.isSome) :
    s.logger.attached = true := by
  rcases flush_cases s.logger with ⟨stays, -⟩ | ⟨b, present, -, -⟩
  · simp [stays] at hands
  · simpa [present] using valid.present.symm

/-- What `Flush` hands over is a window over the recent events. -/
theorem Valid.flushed (valid : s.Valid) {b : CircularSliceBuffer ω α}
    (hands : s.logger.flush.2 = some b) :
    ∃ chunks, b.contiguousMemoryChunks = some chunks ∧ chunks.flatten ≠ [] ∧
      chunks.flatten <:+ s.recent := by
  rcases flush_cases s.logger with ⟨stays, -⟩ | ⟨other, present, occupied, flushes⟩
  · simp [stays] at hands
  · obtain rfl : other = b := by simpa [flushes] using hands
    exact window_contents (valid.window other present) occupied

theorem Valid.handed (valid : s.Valid) {call : LoggerCall ω α} {b : CircularSliceBuffer ω α}
    (hands : s.handed call = some b) :
    ∃ chunks, b.contiguousMemoryChunks = some chunks ∧ chunks.flatten ≠ [] ∧
      chunks.flatten <:+ s.recentAt call := by
  cases call with
  | setPool attached =>
      cases attached with
      | true => simp [History.handed, EventLogger.setPool] at hands
      | false => exact valid.flushed hands
  | logEvent call =>
      simp only [History.handed, EventLogger.logEvent] at hands
      split at hands
      · exact (valid.pushed call).flushed hands
      · cases hands
  | flush => exact valid.flushed hands
  | clear => cases hands

theorem enqueued_apply (s : History ω α) (call : LoggerCall ω α) :
    (s.apply call).enqueued = s.enqueued ++ (s.handed call).toList := by
  cases call <;> rfl

theorem contentsOf_of_empty {b : CircularSliceBuffer ω α} (none : b.empty = true) :
    contentsOf b = [] := by
  simp [contentsOf, CircularSliceBuffer.contiguousMemoryChunks, none]

/-- The flush in `SetPool` hands over everything the buffer holds. -/
theorem contents_detached (s : History ω α) :
    (s.handed (.setPool false)).toList.flatMap contentsOf =
      s.logger.buffer.toList.flatMap contentsOf := by
  have handed : s.handed (.setPool false) = s.logger.flush.2 := rfl
  rw [handed]
  rcases flush_cases s.logger with ⟨stays, none⟩ | ⟨b, present, -, flushes⟩
  · rw [stays]
    cases buffer : s.logger.buffer with
    | none => rfl
    | some b => simp [contentsOf_of_empty (none b buffer)]
  · rw [flushes, present]

theorem contentsOf_of_chunks {b : CircularSliceBuffer ω α} {chunks : List (List α)}
    (defined : b.contiguousMemoryChunks = some chunks) : contentsOf b = chunks.flatten := by
  rw [contentsOf, defined, Option.getD_some]

/-- An accepted event is the last one in the buffer before the flush. -/
theorem Valid.pushed_last (valid : s.Valid) {call : LogCall ω α} (accepts : s.accepts call = true) :
    ∃ b, (s.pushed call).logger.buffer = some b ∧ (contentsOf b).getLast? = some call.event := by
  cases buffer : s.logger.buffer with
  | none => simp [Session.accepts, buffer] at accepts
  | some b =>
      have attached : s.logger.attached = true := by
        simpa [buffer] using valid.present.symm
      obtain ⟨window, holds, -⟩ := (valid.window b buffer).window
      have taken : b.accepts (answering call.answer) () = true := by
        simpa [Session.accepts, buffer, attached] using accepts
      have lends := CircularSliceBuffer.answering_lends call.answer
      obtain ⟨chunks, defined, last⟩ := (holds.stores lends taken call.event).last
      refine ⟨(b.push (answering call.answer) () call.event).1, ?_, ?_⟩
      · simp [History.pushed, EventLogger.push, buffer, attached]
      · rw [contentsOf_of_chunks defined, last]

theorem Valid.logged_last (valid : s.Valid) {call : LogCall ω α} (accepts : s.accepts call = true) :
    ∃ b ∈ (s.apply (.logEvent call)).logger.buffer.toList ++ (s.handed (.logEvent call)).toList,
      (contentsOf b).getLast? = some call.event := by
  obtain ⟨b, held, last⟩ := valid.pushed_last accepts
  rw [apply_logEvent]
  split
  · rename_i flushes
    have handed : s.handed (.logEvent call) = (s.pushed call).logger.flush.2 := by
      simp only [History.handed, EventLogger.logEvent]
      exact congrArg Prod.snd (if_pos flushes)
    rcases flush_cases (s.pushed call).logger with ⟨-, empty⟩ | ⟨other, present, -, flushed⟩
    · simp [contentsOf_of_empty (empty b held)] at last
    · obtain rfl : other = b := Option.some.inj (present.symm.trans held)
      exact ⟨other, by simp [handed, flushed], last⟩
  · exact ⟨b, by simp [held], last⟩

/-- What holds of a logger between any two calls. -/
structure HandsOver (s : History ω α) : Prop where
  present : s.logger.buffer.isSome ↔ s.logger.attached = true
  flushAttached : s.logger.flush.2.isSome → s.logger.attached = true
  logAttached : ∀ call, (s.pushed call).logger.flush.2.isSome →
    (s.pushed call).logger.attached = true
  occupied : ∀ b ∈ s.enqueued, b.empty = false
  enqueues : ∀ call, (s.apply call).enqueued = s.enqueued ++ (s.handed call).toList
  suffix : ∀ call b, s.handed call = some b → ∃ chunks, b.contiguousMemoryChunks = some chunks ∧
    chunks.flatten ≠ [] ∧ chunks.flatten <:+ s.recentAt call
  once : (s.enqueued.flatMap contentsOf).Sublist s.accepted
  kept : ∀ call, s.accepts call = true → ∃ b ∈
    (s.apply (.logEvent call)).logger.buffer.toList ++ (s.handed (.logEvent call)).toList,
      (contentsOf b).getLast? = some call.event
  detached : (s.apply (.setPool false)).enqueued.flatMap contentsOf =
    s.enqueued.flatMap contentsOf ++ s.logger.buffer.toList.flatMap contentsOf

/-- After any calls and whatever its pools answer, a logger has a buffer exactly
    when it has a pool, and makes one only then.  Each buffer it hands over holds
    a suffix of the recent events, no event is handed over twice, an accepted event
    ends the buffer it is in after its call, and a logger that loses its pool hands
    over what is in its buffer. -/
theorem eventLogger_handsOver (options : Options) (calls : List (LoggerCall ω α)) :
    (run options calls).HandsOver := by
  have valid : (run options calls).Valid := .run options calls
  constructor
  case present => rw [valid.present]
  case flushAttached => exact valid.attached
  case logAttached => exact fun call hands => (valid.pushed call).attached hands
  case occupied => exact valid.occupied
  case enqueues => exact fun call => enqueued_apply _ call
  case suffix => exact fun call b hands => valid.handed hands
  case once => simpa using valid.forget
  case kept => exact fun call accepts => valid.logged_last accepts
  case detached => rw [enqueued_apply, List.flatMap_append, contents_detached]

/-- A logger for two events hands over a full buffer, and later what it holds when
    its pool goes away. -/
example :
    let logEvent (event : Nat) : LoggerCall Unit Nat :=
      .logEvent ⟨event, .ok ⟨⟨(), .owned (.new 2)⟩, Slice.fresh_owned (by decide)⟩⟩
    (run ⟨2, true⟩ [.setPool true, logEvent 7, logEvent 8, logEvent 9,
      .setPool false]).enqueued.map contentsOf = [[7, 8], [9]] := rfl

end History

end Spoor.EventLogging
