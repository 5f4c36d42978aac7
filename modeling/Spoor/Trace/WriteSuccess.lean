import Spoor.FlushQueue.FileNames
import Spoor.Trace.RoundTrip

/-! # What a successful write means

`Write` passes the header and the payload to the stream in two calls, neither of
which returns anything, and it does not ask the stream for its state afterwards.
Once the file is open, it reports success however many bytes got lost.  The
queue goes by that report: it lets a record go as soon as `Write` says `Ok`.

The second half of the module runs the flush queue with the writer and a disk.
-/

namespace Spoor.Trace

open Buffer FlushQueue.DiskFlushQueue Lib.ByteOrder Lib.Transition

variable {ω κ : Type}

/-- How many bytes at the end of its data each of the two calls of
    `FileWriter::Write` fails to get into the file. -/
structure Losses where
  header : Nat
  payload : Nat
  deriving DecidableEq

/-- What a call of `FileWriter::Write` gets into the file. -/
def persisted (data : List Byte) (lost : Nat) : List Byte := data.take (data.length - lost)

/-- The data of the two calls of `FileWriter::Write`. -/
def streamData (host : Order) (snappy : Snappy) (compressionStrategy : CompressionStrategy)
    (header : Header) (events : List Event) : List Byte × List Byte :=
  let data := encodeEvents host events
  let compressor := makeCompressor snappy compressionStrategy
  let (strategy, payload) :=
    match compressor.compress data with
    | .ok compressed =>
        if data.length ≤ compressed.length then (CompressionStrategy.none, data)
        else (compressor.strategy, compressed)
    | .error _ => (CompressionStrategy.none, data)
  (encodeHeader host { header with compressionStrategy := strategy.byte }, payload)

/-- A whole file: the complete header and the complete payload. -/
def wholeFile (host : Order) (snappy : Snappy) (compressionStrategy : CompressionStrategy)
    (header : Header) (events : List Event) : List Byte :=
  (streamData host snappy compressionStrategy header events).1 ++
    (streamData host snappy compressionStrategy header events).2

/-- `Write` through a stream that loses bytes. -/
def TraceFileWriter.writeThrough (host : Order) (snappy : Snappy) (writer : TraceFileWriter)
    (opens : Bool) (losses : Losses) (header : Header) (events : CircularSliceBuffer ω Event) :
    Option Written :=
  let writer := { writer with buffer := [] }
  if events.empty then some ⟨.ok (), writer, none⟩
  else
    let writer := { writer with createdDirectory := true }
    if !opens then some ⟨.error .failedToOpenFile, writer, none⟩
    else do
      let chunks ← events.contiguousMemoryChunks
      let writer := { writer with buffer := writer.buffer ++ chunks.flatten }
      let (headerData, payload) :=
        streamData host snappy writer.compressionStrategy header writer.buffer
      some ⟨.ok (), writer,
        some (persisted headerData losses.header ++ persisted payload losses.payload)⟩

@[simp] theorem persisted_zero (data : List Byte) : persisted data 0 = data := by
  simp [persisted]

@[simp] theorem length_persisted (data : List Byte) (lost : Nat) :
    (persisted data lost).length = data.length - lost := by
  simp [persisted]

/-- Through a stream that loses nothing, this is `write`. -/
theorem writeThrough_lossless (host : Order) (snappy : Snappy) (writer : TraceFileWriter)
    (opens : Bool) (header : Header) (events : CircularSliceBuffer ω Event) :
    writer.writeThrough host snappy opens ⟨0, 0⟩ header events =
      writer.write host snappy opens header events := by
  simp only [TraceFileWriter.writeThrough, persisted_zero]
  rfl

section

variable {host : Order} {snappy : Snappy} {writer : TraceFileWriter} {header : Header}
  {losses : Losses} {events : CircularSliceBuffer ω Event} {window : List Event}

/-- What `Write` does once the file is open. -/
theorem writeThrough_open (holds : events.Holds window) (occupied : events.empty = false) :
    writer.writeThrough host snappy true losses header events =
      some ⟨.ok (), { writer with buffer := window, createdDirectory := true },
        some (persisted (streamData host snappy writer.compressionStrategy header window).1
            losses.header ++
          persisted (streamData host snappy writer.compressionStrategy header window).2
            losses.payload)⟩ := by
  obtain ⟨chunks, defined, contents⟩ := holds.chunks
  simp only [TraceFileWriter.writeThrough, occupied, defined, contents, List.nil_append,
    Option.bind_eq_bind, Option.bind_some, Bool.not_true, Bool.false_eq_true, if_false]

theorem window_ne_nil (holds : events.Holds window) (occupied : events.empty = false) :
    window ≠ [] := by
  rintro rfl
  have size : events.size = 0 := by rw [← holds.length]; rfl
  simp [CircularSliceBuffer.empty, size] at occupied

theorem streamData_ne_nil (preamble : ∀ data, snappy.compress data ≠ [])
    (strategy : CompressionStrategy) (some : window ≠ []) :
    (streamData host snappy strategy header window).1 ≠ [] ∧
      (streamData host snappy strategy header window).2 ≠ [] := by
  have data : encodeEvents host window ≠ [] := by
    rw [← List.length_pos_iff, length_encodeEvents, eventSize]
    have := List.length_pos_iff.mpr some
    omega
  constructor
  · rw [← List.length_pos_iff]
    simp [streamData, headerSize]
  · cases strategy with
    | none => simpa [streamData, makeCompressor, noneCompressor] using data
    | snappy =>
        simp only [streamData, makeCompressor, snappyCompressor]
        split
        · exact data
        · exact preamble _

/-- Two pieces that are not empty come through whole exactly if nothing is lost. -/
theorem persisted_append_eq_iff {first second : List Byte} (some : first ≠ [])
    (some' : second ≠ []) (losses : Losses) :
    persisted first losses.header ++ persisted second losses.payload = first ++ second ↔
      losses = ⟨0, 0⟩ := by
  constructor
  · intro same
    have lengths := congrArg List.length same
    simp only [List.length_append, length_persisted] at lengths
    have := List.length_pos_iff.mpr some
    have := List.length_pos_iff.mpr some'
    obtain ⟨zero, zero'⟩ : losses.header = 0 ∧ losses.payload = 0 := by omega
    exact congrArg₂ Losses.mk zero zero'
  · rintro rfl
    simp

end

/-- If `Write` reports success for a buffer that is not empty, the file holds all of
    the header and all of the payload. -/
def SuccessMeansComplete (host : Order) (snappy : Snappy) (writer : TraceFileWriter) (opens : Bool)
    (losses : Losses) (header : Header) (events : CircularSliceBuffer ω Event)
    (window : List Event) : Prop :=
  ∀ written, writer.writeThrough host snappy opens losses header events = some written →
    written.result = .ok () → events.empty = false →
    written.file = some (wholeFile host snappy writer.compressionStrategy header window)

theorem successMeansComplete_iff {host : Order} {snappy : Snappy} {writer : TraceFileWriter}
    {opens : Bool} {losses : Losses} {header : Header} {events : CircularSliceBuffer ω Event}
    {window : List Event} (preamble : ∀ data, snappy.compress data ≠ [])
    (holds : events.Holds window) :
    SuccessMeansComplete host snappy writer opens losses header events window ↔
      events.empty = true ∨ opens = false ∨ losses = ⟨0, 0⟩ := by
  cases occupied : events.empty with
  | true => simp [SuccessMeansComplete, occupied]
  | false =>
      cases opens with
      | false => simp [SuccessMeansComplete, TraceFileWriter.writeThrough, occupied]
      | true =>
          obtain ⟨first, second⟩ := @streamData_ne_nil host snappy header window preamble
            writer.compressionStrategy (window_ne_nil holds occupied)
          rw [← persisted_append_eq_iff first second losses]
          simp [SuccessMeansComplete, writeThrough_open holds occupied, occupied, wholeFile]

/-- A buffer as the buffer classes leave it. -/
structure TraceBuffer (ω : Type) where
  buffer : CircularSliceBuffer ω Event
  holds : ∃ window, buffer.Holds window

/-- What one call of `Write` meets: whether the file can be opened, what the stream
    loses, and the clocks. -/
structure WriteCall where
  opens : Bool
  losses : Losses
  system : BitVec 64
  steady : BitVec 64

/-- The flush queue, its writer and the files by their names. -/
structure Storage (ω κ : Type) where
  queue : State (TraceBuffer ω) κ
  writer : TraceFileWriter
  disk : String → Option (List Byte)

/-- A step of the queue; `call` is about the step in which the worker calls `Write`,
    whose answer replaces the one in the action. -/
structure StorageStep (ω κ : Type) where
  action : Action (TraceBuffer ω) κ
  call : WriteCall

/-- The header `TraceFileHeader` builds for a record. -/
def recordHeader (host : Order) (o : Options) (record : FlushInfo (TraceBuffer ω))
    (call : WriteCall) : Header :=
  traceFileHeader host o
    ⟨record.buffer.buffer, record.flushTimestamp, record.threadId, record.id,
      record.remainingFlushAttempts⟩ call.system call.steady

def Storage.step (host : Order) (snappy : Snappy) (o : Options) (s : Storage ω κ)
    (label : StorageStep ω κ) : Option (Storage ω κ) :=
  match label.action, s.queue.worker with
  | .worker now _, .write record => do
      let written ← s.writer.writeThrough host snappy label.call.opens label.call.losses
        (recordHeader host o record label.call) record.buffer.buffer
      let queue ← FlushQueue.DiskFlushQueue.step o s.queue (.worker now written.result.isOk)
      some {
        queue := queue
        writer := written.writer
        disk := match written.file with
          | some file => Function.update s.disk (traceFilePath o record) (some file)
          | none => s.disk }
  | action, _ =>
      (FlushQueue.DiskFlushQueue.step o s.queue action).map fun queue => { s with queue := queue }

def Storage.initial (writer : TraceFileWriter) : Storage ω κ where
  queue := FlushQueue.DiskFlushQueue.initial
  writer := writer
  disk := fun _ => none

/-- A step that writes to an open file loses nothing. -/
def PersistsAll (s : Storage ω κ) (label : StorageStep ω κ) : Prop :=
  ∀ now ok record, label.action = .worker now ok → s.queue.worker = .write record →
    label.call.opens = true → label.call.losses = ⟨0, 0⟩

/-- The file of the record holds all of a header and all of the payload for it. -/
def Storage.Complete (host : Order) (snappy : Snappy) (o : Options) (s : Storage ω κ)
    (record : FlushInfo (TraceBuffer ω)) : Prop :=
  ∃ call window, record.buffer.buffer.Holds window ∧
    s.disk (traceFilePath o record) = some (wholeFile host snappy s.writer.compressionStrategy
      (recordHeader host o record call) window)

section

variable {host : Order} {snappy : Snappy} {o : Options} {s s' : Storage ω κ}
  {label : StorageStep ω κ}

/-- Every step of the storage is one of the queue.  It leaves the writer and the
    disk alone unless the worker writes. -/
theorem storage_step (taken : s.step host snappy o label = some s') :
    (∃ now ok record written, label.action = .worker now ok ∧ s.queue.worker = .write record ∧
      s.writer.writeThrough host snappy label.call.opens label.call.losses
        (recordHeader host o record label.call) record.buffer.buffer = some written ∧
      FlushQueue.DiskFlushQueue.step o s.queue (.worker now written.result.isOk) =
        some s'.queue ∧
      s'.writer = written.writer ∧
      ∀ file, written.file = some file → s'.disk (traceFilePath o record) = some file) ∨
    FlushQueue.DiskFlushQueue.step o s.queue label.action = some s'.queue ∧
      s'.writer = s.writer ∧ s'.disk = s.disk ∧
      ∀ now ok record, label.action = .worker now ok → s.queue.worker ≠ .write record := by
  rw [Storage.step] at taken
  split at taken
  · rename_i now ok record acts position
    simp only [Option.bind_eq_bind, Option.bind_eq_some_iff, Option.some.injEq] at taken
    obtain ⟨written, writes, queue, steps, rfl⟩ := taken
    refine .inl ⟨now, ok, record, written, acts, position, writes, steps, rfl, ?_⟩
    intro file some
    simp [some]
  · rename_i other
    obtain ⟨queue, steps, rfl⟩ := Option.map_eq_some_iff.mp taken
    refine .inr ⟨steps, rfl, rfl, ?_⟩
    intro now ok record acts position
    exact other now ok record acts position

/-- A successful write that loses nothing leaves the whole file. -/
theorem writeThrough_complete {writer : TraceFileWriter} {opens : Bool} {losses : Losses}
    {header : Header} {events : CircularSliceBuffer ω Event} {window : List Event}
    {written : Written} (holds : events.Holds window) (occupied : events.empty = false)
    (lossless : opens = true → losses = ⟨0, 0⟩)
    (writes : writer.writeThrough host snappy opens losses header events = some written)
    (succeeds : written.result.isOk = true) :
    written.writer.compressionStrategy = writer.compressionStrategy ∧
      written.file = some (wholeFile host snappy writer.compressionStrategy header window) := by
  cases opens with
  | false =>
      simp only [TraceFileWriter.writeThrough, occupied, Bool.false_eq_true, if_false,
        Bool.not_false, if_true, Option.some.injEq] at writes
      subst writes
      cases succeeds
  | true =>
      rw [writeThrough_open holds occupied, lossless rfl, Option.some.injEq] at writes
      subst writes
      simp [wholeFile]

/-- A record whose write was reported as successful has its whole file. -/
def Storage.Truthful (host : Order) (snappy : Snappy) (o : Options) (s : Storage ω κ) : Prop :=
  ∀ record, s.queue.worker = .settle record true → record.buffer.buffer.empty = false →
    s.Complete host snappy o record

theorem step_truthful (truthful : s.Truthful host snappy o) (persists : PersistsAll s label)
    (taken : s.step host snappy o label = some s') : s'.Truthful host snappy o := by
  intro record after occupied
  rcases storage_step taken with
    ⟨now, ok, written, result, acts, position, writes, steps, writer, files⟩ |
    ⟨steps, writer, disk, unwritten⟩
  · rcases step_settle steps after with before | ⟨now', written', acts', position', rfl⟩
    · simp [before] at position
    · obtain rfl : written = written' := by simpa [position] using position'
      have succeeds : result.result.isOk = true := ((Action.worker.injEq ..).mp acts').2
      obtain ⟨window, holds⟩ := written.buffer.holds
      obtain ⟨strategy, file⟩ := writeThrough_complete holds occupied
        (persists now ok written acts position) writes succeeds
      refine ⟨label.call, window, holds, ?_⟩
      rw [writer, strategy]
      exact files _ file
  · rcases step_settle steps after with before | ⟨now, written, acts, position, -⟩
    · obtain ⟨call, window, holds, file⟩ := truthful record before occupied
      exact ⟨call, window, holds, by rw [writer, disk]; exact file⟩
    · exact absurd position (unwritten now true written acts)

/-- A record that is settled as failed with attempts left goes back to the deque. -/
theorem step_retries {record : FlushInfo (TraceBuffer ω)}
    (settles : s.queue.worker = .settle record false) (left : 0 < record.remainingFlushAttempts)
    (taken : s.step host snappy o label = some s') :
    s'.queue.worker = s.queue.worker ∨ record ∈ s'.queue.guarded.queue := by
  rcases storage_step taken with ⟨_, _, _, _, -, position, -⟩ | ⟨steps, -⟩
  · simp [settles] at position
  · rcases step_worker steps with same | ⟨absent, -⟩ | ⟨finished, -⟩ | ⟨now, ok, -, moves⟩
    · exact .inl same
    · simp [settles] at absent
    · simp [settles] at finished
    · simp only [workerStep, settles, Bool.not_false, Bool.true_and, decide_eq_true_eq,
        if_pos left] at moves
      split at moves
      · rw [Option.some.injEq] at moves
        rw [← moves]
        exact .inr (by simp [Guarded.emplaceBack])
      · cases moves

end

/-- A record reported as written has its whole file; any other one is retried while
    it has attempts left. -/
def Storage.DropsOnlyComplete (host : Order) (snappy : Snappy) (o : Options)
    (s : Storage ω κ) : Prop :=
  ∀ record ok, s.queue.worker = .settle record ok → record.buffer.buffer.empty = false →
    s.Complete host snappy o record ∨ ok = false ∧ (0 < record.remainingFlushAttempts →
      ∀ label s', s.step host snappy o label = some s' →
        s'.queue.worker = s.queue.worker ∨ record ∈ s'.queue.guarded.queue)

/-- A single `Write` means what it reports exactly if there is nothing to write, the
    file does not open or nothing gets lost.  In every run in which nothing gets
    lost, the queue drops a record as written only if its file is whole, and
    retries any other one while it may. -/
theorem write_success_complete_iff (host : Order) (snappy : Snappy)
    (preamble : ∀ data, snappy.compress data ≠ []) :
    (∀ (writer : TraceFileWriter) (opens : Bool) (losses : Losses) (header : Header)
        (events : CircularSliceBuffer ω Event) (window : List Event), events.Holds window →
      (SuccessMeansComplete host snappy writer opens losses header events window ↔
        events.empty = true ∨ opens = false ∨ losses = ⟨0, 0⟩)) ∧
    ∀ (o : Options) (writer : TraceFileWriter) (labels : List (StorageStep ω κ))
        (s : Storage ω κ),
      Meets (Storage.step host snappy o) PersistsAll (Storage.initial writer) labels →
      exec (Storage.step host snappy o) (Storage.initial writer) labels = some s →
      s.DropsOnlyComplete host snappy o := by
  constructor
  · intro writer opens losses header events window holds
    exact successMeansComplete_iff preamble holds
  · intro o writer labels s persists reached record ok settles occupied
    have truthful : s.Truthful host snappy o :=
      invariant PersistsAll (Storage.Truthful host snappy o)
        (by simp [Storage.Truthful, Storage.initial, FlushQueue.DiskFlushQueue.initial])
        (fun _ _ _ known conforms taken => step_truthful known conforms taken) persists reached
    cases ok with
    | true => exact .inl (truthful record settles occupied)
    | false =>
        refine .inr ⟨rfl, ?_⟩
        intro left label s' taken
        exact step_retries settles left taken

theorem bufferOfOne_holds : bufferOfOne.1.Holds [distinctBytes] := by
  obtain ⟨⟨window, holds, latest⟩, -⟩ := CircularSliceBuffer.run_windowOf 2
    [.push distinctBytes (.ok ⟨⟨(), .owned (.new 2)⟩, Slice.fresh_owned (by decide)⟩)]
  have length : window.length = [distinctBytes].length := holds.length
  obtain rfl : window = [distinctBytes] := latest.eq_of_length length
  exact holds

/-- The buffer with one event, as a record's buffer. -/
def traceBufferOfOne : TraceBuffer Unit := ⟨bufferOfOne.1, [distinctBytes], bufferOfOne_holds⟩

/-- A record with one event is enqueued, and the worker writes it through a stream
    with these losses. -/
def writeOne (losses : Losses) : List (StorageStep Unit Unit) :=
  (runCall 0 ++ enqueueCall 0 traceBufferOfOne 1 ++ List.replicate 5 (Action.worker 1 true)).map
    fun action => ⟨action, true, losses, 4, 5⟩

theorem losses_writeOne (losses : Losses) :
    ∀ label ∈ writeOne losses, label.call.losses = losses := by
  intro label member
  obtain ⟨action, -, rfl⟩ := List.mem_map.mp member
  rfl

theorem persistsAll_writeOne :
    Meets (Storage.step .little literalSnappy logEverything) PersistsAll
      (Storage.initial ⟨.none, [], false⟩) (writeOne ⟨0, 0⟩) := by
  intro before label after t split _ now ok record _ _ _
  exact losses_writeOne ⟨0, 0⟩ label (by simp [split])

theorem write_success_complete_iff_writeOne :
    SuccessMeansComplete .little literalSnappy ⟨.none, [], false⟩ true ⟨0, 0⟩
        (recordHeader .little logEverything ⟨traceBufferOfOne, 1, 0, 0, 0⟩ ⟨true, ⟨0, 0⟩, 4, 5⟩)
        bufferOfOne.1 [distinctBytes] ∧
      ∃ s : Storage Unit Unit, exec (Storage.step .little literalSnappy logEverything)
          (Storage.initial ⟨.none, [], false⟩) (writeOne ⟨0, 0⟩) = some s ∧
        s.DropsOnlyComplete .little literalSnappy logEverything := by
  obtain ⟨single, runs⟩ := @write_success_complete_iff Unit Unit .little literalSnappy
    (fun data => List.cons_ne_nil _ _)
  refine ⟨(single _ _ _ _ _ _ bufferOfOne_holds).mpr (.inr (.inr rfl)), _, rfl, ?_⟩
  exact runs logEverything ⟨.none, [], false⟩ (writeOne ⟨0, 0⟩) _ persistsAll_writeOne rfl

theorem length_wholeFile_none (host : Order) (snappy : Snappy) (header : Header)
    (events : List Event) :
    (wholeFile host snappy .none header events).length =
      headerSize + events.length * eventSize := by
  simp [wholeFile, streamData, makeCompressor, noneCompressor]

theorem writeOne_loses_payload :
    ∃ (s : Storage Unit Unit) (file : List Byte),
      exec (Storage.step .little literalSnappy logEverything)
        (Storage.initial ⟨.none, [], false⟩) (writeOne ⟨0, 24⟩) = some s ∧
      s.queue.worker = .settle ⟨traceBufferOfOne, 1, 0, 0, 0⟩ true ∧
      s.writer.compressionStrategy = .none ∧
      s.disk (traceFilePath logEverything ⟨traceBufferOfOne, 1, 0, 0, 0⟩) = some file ∧
      file.length = headerSize :=
  ⟨_, _, rfl, rfl, rfl, rfl, by decide⟩

/-- The payload of a record does not get into the file, `Write` reports success,
    and the worker is about to drop the record as written. -/
theorem lost_payload_reported_written :
    ¬ SuccessMeansComplete .little literalSnappy ⟨.none, [], false⟩ true ⟨0, 24⟩
        (recordHeader .little logEverything ⟨traceBufferOfOne, 1, 0, 0, 0⟩ ⟨true, ⟨0, 24⟩, 4, 5⟩)
        bufferOfOne.1 [distinctBytes] ∧
      ∃ s : Storage Unit Unit, exec (Storage.step .little literalSnappy logEverything)
          (Storage.initial ⟨.none, [], false⟩) (writeOne ⟨0, 24⟩) = some s ∧
        ¬ s.DropsOnlyComplete .little literalSnappy logEverything := by
  constructor
  · rw [successMeansComplete_iff (fun data => List.cons_ne_nil _ _) bufferOfOne_holds]
    decide
  · obtain ⟨s, file, reached, settles, strategy, stored, length⟩ := writeOne_loses_payload
    refine ⟨s, reached, ?_⟩
    intro drops
    rcases drops _ true settles rfl with ⟨call, window, holds, whole⟩ | ⟨failed, -⟩
    · have events : window.length = 1 := holds.length
      rw [strategy] at whole
      have same := Option.some.inj (stored.symm.trans whole)
      have lengths := congrArg List.length same
      rw [length, length_wholeFile_none, events, headerSize, eventSize] at lengths
      omega
    · cases failed

end Spoor.Trace
