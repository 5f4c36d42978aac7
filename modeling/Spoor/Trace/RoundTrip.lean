import Spoor.Buffer.Contents
import Spoor.FlushQueue.DiskFlushQueue
import Spoor.Trace.TraceFile

/-! # What is written can be read

The header that the flush queue builds for a buffer and the file that the writer
makes of both can be read back on a machine of the same byte order.  The count
in the header is 32 bits wide and signed, which is what bounds the buffer.
-/

namespace Spoor.Trace

open Buffer FlushQueue.DiskFlushQueue Lib.ByteOrder

variable {ω : Type}

theorem ofByte_byte (strategy : CompressionStrategy) :
    CompressionStrategy.ofByte strategy.byte = some strategy := by
  cases strategy <;> rfl

/-- What a number of events that is not negative says about their size. -/
theorem eventsSize_of_nonnegative {count : BitVec 32} (nonnegative : count.msb = false) :
    eventsSize count = count.toNat * eventSize := by
  have low := count.isLt
  have wide : count.toNat % 2 ^ 64 = count.toNat := Nat.mod_eq_of_lt (by omega)
  rw [eventsSize, BitVec.signExtend_eq_setWidth_of_msb_false nonnegative, BitVec.toNat_mul,
    BitVec.toNat_setWidth, BitVec.toNat_ofNat, wide, eventSize]
  exact Nat.mod_eq_of_lt (by omega)

/-- A negative number is never right about the size of the events: sizes are
    multiples of three, and the modulus is not. -/
theorem eventsSize_ne_of_negative {count : BitVec 32} (negative : count.msb = true) (size : Nat) :
    size * eventSize ≠ eventsSize count := by
  obtain ⟨short, some, small, extended⟩ : ∃ short, 0 < short ∧ short ≤ 2 ^ 31 ∧
      (count.signExtend 64).toNat = 2 ^ 64 - short := by
    have low := count.isLt
    have high := BitVec.msb_eq_true_iff_two_mul_ge.mp negative
    refine ⟨2 ^ 32 - count.toNat, by omega, by omega, ?_⟩
    rw [BitVec.toNat_signExtend, negative, BitVec.toNat_setWidth, if_pos rfl]
    omega
  have split : (2 ^ 64 - short) * 24 = 2 ^ 64 - 24 * short + 2 ^ 64 * 23 := by omega
  have product : eventsSize count = 2 ^ 64 - 24 * short := by
    rw [eventsSize, BitVec.toNat_mul, extended, eventSize]
    change (2 ^ 64 - short) * 24 % 2 ^ 64 = _
    rw [split, Nat.add_mul_mod_self_left, Nat.mod_eq_of_lt (by omega)]
  rw [product, eventSize]
  omega

/-- The number in the header is right about the size of the events exactly if it
    is not negative. -/
theorem eventsSize_eq_iff (count : Nat) :
    count * eventSize = eventsSize (BitVec.ofNat 32 count) ↔ count < 2 ^ 31 := by
  have number : (BitVec.ofNat 32 count).toNat = count % 2 ^ 32 := BitVec.toNat_ofNat ..
  have whole := Nat.mod_le count (2 ^ 32)
  cases sign : (BitVec.ofNat 32 count).msb with
  | false =>
      rw [eventsSize_of_nonnegative sign, number, eventSize]
      rw [BitVec.msb_eq_false_iff_two_mul_lt, number] at sign
      omega
  | true =>
      have wrong := eventsSize_ne_of_negative sign count
      rw [BitVec.msb_eq_true_iff_two_mul_ge, number] at sign
      constructor
      · intro same
        exact absurd same wrong
      · intro countable
        omega

/-- A number of events that is not negative can be reserved for, in the compressor's
    buffer as well as in the reader's. -/
theorem reserves_of_nonnegative {count : BitVec 32} (nonnegative : count.msb = false)
    (strategy : CompressionStrategy) :
    strategy.reserves (eventsSize count) = true ∧
      (count.signExtend 64).toNat = count.toNat ∧
      ¬ eventsMaxSize < (count.signExtend 64).toNat := by
  have low := count.isLt
  have extended : (count.signExtend 64).toNat = count.toNat := by
    rw [BitVec.signExtend_eq_setWidth_of_msb_false nonnegative, BitVec.toNat_setWidth]
    exact Nat.mod_eq_of_lt (by omega)
  have most : eventsMaxSize = 384307168202282325 := by decide
  refine ⟨?_, extended, by omega⟩
  cases strategy with
  | none => rfl
  | snappy =>
      rw [CompressionStrategy.reserves, eventsSize_of_nonnegative nonnegative, eventSize,
        stringMaxSize, decide_eq_true_eq]
      omega

theorem readEvents_of_nonnegative {host : Order} {snappy : Snappy} {header : Header}
    {payload data : List Byte} {strategy : CompressionStrategy}
    (compressed : header.compressionStrategy = strategy.byte)
    (nonnegative : header.eventCount.msb = false)
    (uncompresses : (makeCompressor snappy strategy).uncompress payload = .ok data)
    (size : data.length = header.eventCount.toNat * eventSize) :
    readEvents host snappy header payload = some (.ok ⟨header,
      (decodeEvents host header.eventCount.toNat data).map
        fun event => eventToHostByteOrder host event header.endianness⟩) := by
  obtain ⟨reserves, -, room⟩ := reserves_of_nonnegative nonnegative strategy
  have exact : data.length = eventsSize header.eventCount := by
    rw [size, eventsSize_of_nonnegative nonnegative]
  simp only [readEvents, compressed, ofByte_byte, Option.bind_eq_bind, Option.bind_some, reserves,
    Bool.not_true, Bool.false_eq_true, if_false, uncompresses, exact, ne_eq, not_true_eq_false,
    room]

theorem length_decodeEvents (host : Order) (count : Nat) (data : List Byte) :
    (decodeEvents host count data).length = count := by
  induction count generalizing data with
  | zero => rfl
  | succ count ih => rw [decodeEvents, List.length_cons, ih]

/-- What `Read` returns when it succeeds: the header it found, with as many events
    as the header says. -/
theorem readEvents_ok {host : Order} {snappy : Snappy} {header : Header} {payload : List Byte}
    {trace : TraceFile} (succeeds : readEvents host snappy header payload = some (.ok trace)) :
    trace.header = header ∧ trace.events.length = header.eventCount.toNat := by
  rw [readEvents, Option.bind_eq_bind, Option.bind_eq_some_iff] at succeeds
  obtain ⟨strategy, -, succeeds⟩ := succeeds
  split at succeeds
  · cases succeeds
  · split at succeeds
    · simp at succeeds
    · split at succeeds
      · simp at succeeds
      · split at succeeds
        · cases succeeds
        · cases succeeds
          simp [length_decodeEvents]

theorem msb_ofNat_eq_false {count : Nat} (countable : count < 2 ^ 31) :
    (BitVec.ofNat 32 count).msb = false := by
  rw [BitVec.msb_eq_false_iff_two_mul_lt, BitVec.toNat_ofNat]
  omega

/-- A file with a header of this machine and a payload that uncompresses to the
    events can be read. -/
theorem read_own {host : Order} {snappy : Snappy} {header : Header} {payload : List Byte}
    {events : List Event} {strategy : CompressionStrategy}
    (magic : header.magicNumber = kMagicNumber) (version : header.version = kTraceFileVersion)
    (own : header.endianness = endianByte host)
    (compressed : header.compressionStrategy = strategy.byte)
    (uncompresses : (makeCompressor snappy strategy).uncompress payload =
      .ok (encodeEvents host events))
    (countable : events.length < 2 ^ 31)
    (count : header.eventCount = BitVec.ofNat 32 events.length) :
    read host snappy (some (encodeHeader host header ++ payload)) =
      some (.ok ⟨header, events⟩) := by
  have decoded : decodeHeader host (encodeHeader host header ++ payload) = header := by
    rw [decodeHeader_append, Header.mapWords_self]
  have kept : headerToHostByteOrder host header = header := by
    rw [headerToHostByteOrder, if_pos own]
  have long : ¬ (encodeHeader host header ++ payload).length < headerSize := by simp
  have rest : (encodeHeader host header ++ payload).drop headerSize = payload := by
    rw [← length_encodeHeader host header, List.drop_left]
  have number : header.eventCount.toNat = events.length := by
    rw [count, BitVec.toNat_ofNat]
    omega
  have same : ∀ event : Event, eventToHostByteOrder host event header.endianness = event := by
    intro event
    rw [eventToHostByteOrder, if_pos own]
  have back : (decodeEvents host header.eventCount.toNat (encodeEvents host events)).map
      (fun event => eventToHostByteOrder host event header.endianness) = events := by
    simp only [number, same, decodeEvents_encodeEvents, Event.mapWords_self, List.map_id']
  have checked : checkHeader host (encodeHeader host header ++ payload) = .ok header := by
    simp only [checkHeader, decoded, kept, magic, version, ne_eq, not_true_eq_false, if_false]
  have size : (encodeEvents host events).length = header.eventCount.toNat * eventSize := by
    rw [length_encodeEvents, number]
  simp only [read, if_neg long, checked, rest]
  rw [readEvents_of_nonnegative compressed (count ▸ msb_ofNat_eq_false countable) uncompresses
    size, back]

/-- `DiskFlushQueue::TraceFileHeader`; `system` and `steady` are what the clocks
    read, in nanoseconds. -/
def traceFileHeader (host : Order) (o : Options)
    (flushInfo : FlushInfo (CircularSliceBuffer ω Event)) (system steady : BitVec 64) :
    Header where
  magicNumber := kMagicNumber
  endianness := endianByte host
  compressionStrategy := CompressionStrategy.none.byte
  version := kTraceFileVersion
  sessionId := o.sessionId
  processId := o.processId
  threadId := flushInfo.threadId
  systemClockTimestamp := system
  steadyClockTimestamp := steady
  eventCount := BitVec.ofNat 32 flushInfo.buffer.size
  padding := #v[0, 0, 0, 0]

theorem uncompress_compress {snappy : Snappy} {strategy : CompressionStrategy}
    {data payload : List Byte}
    (lossless : snappy.uncompress (snappy.compress data) = some data)
    (compresses : (makeCompressor snappy strategy).compress data = .ok payload) :
    (makeCompressor snappy strategy).uncompress payload = .ok data := by
  cases strategy with
  | none =>
      obtain rfl : data = payload := by simpa [makeCompressor, noneCompressor] using compresses
      rfl
  | snappy =>
      obtain rfl : snappy.compress data = payload := by
        simpa [makeCompressor, snappyCompressor] using compresses
      simp [makeCompressor, snappyCompressor, lossless]

theorem strategy_makeCompressor (snappy : Snappy) (strategy : CompressionStrategy) :
    (makeCompressor snappy strategy).strategy = strategy := by
  cases strategy <;> rfl

/-- What `Write` puts into a file it can open: the header with the strategy of the
    payload, and the payload. -/
theorem write_eq (host : Order) (snappy : Snappy) (writer : TraceFileWriter) (header : Header)
    {events : CircularSliceBuffer ω Event} {window : List Event} (sized : events.size ≠ 0)
    (holds : events.Holds window) :
    ∃ strategy payload,
      (makeCompressor snappy strategy).compress (encodeEvents host window) = .ok payload ∧
      writer.write host snappy true header events =
        some ⟨.ok (), { writer with buffer := window, createdDirectory := true }, some
          (encodeHeader host { header with compressionStrategy := strategy.byte } ++ payload)⟩ := by
  obtain ⟨chunks, defined, contents⟩ := holds.chunks
  have occupied : events.empty = false := by simp [CircularSliceBuffer.empty, sized]
  simp only [TraceFileWriter.write, occupied, defined, contents, List.nil_append,
    Option.bind_eq_bind, Option.bind_some, Bool.not_true, Bool.false_eq_true, if_false]
  cases compresses : (makeCompressor snappy writer.compressionStrategy).compress
      (encodeEvents host window) with
  | error error => cases error
  | ok compressed =>
      by_cases larger : (encodeEvents host window).length ≤ compressed.length
      · refine ⟨.none, encodeEvents host window, rfl, ?_⟩
        simp only [larger, if_true]
      · refine ⟨writer.compressionStrategy, compressed, compresses, ?_⟩
        simp only [larger, if_false, strategy_makeCompressor]

/-- `Write` makes a file of the header and the buffer, and `Read` gets from it the
    header, with the strategy the payload was compressed by, and the contents. -/
def RoundTrips (host : Order) (snappy : Snappy) (writer : TraceFileWriter) (header : Header)
    (events : CircularSliceBuffer ω Event) (contents : List Event) : Prop :=
  ∃ writer' strategy payload file,
    (makeCompressor snappy strategy).compress (encodeEvents host contents) = .ok payload ∧
    file = encodeHeader host { header with compressionStrategy := strategy.byte } ++ payload ∧
    writer.write host snappy true header events = some ⟨.ok (), writer', some file⟩ ∧
    read host snappy (some file) =
      some (.ok ⟨{ header with compressionStrategy := strategy.byte }, contents⟩)

/-- A buffer that any pushes and clears leave behind, written with the header the
    queue builds for it, is read back as the latest items the buffer accepted. -/
theorem read_write (host : Order) (snappy : Snappy) (writer : TraceFileWriter) (o : Options)
    (flushInfo : FlushInfo (CircularSliceBuffer ω Event)) (capacity : Nat)
    (ops : List (CircularSliceBuffer.Op ω Event)) (accepted : List Event)
    (filled : CircularSliceBuffer.run capacity ops = (flushInfo.buffer, accepted))
    (sized : flushInfo.buffer.size ≠ 0) (countable : flushInfo.buffer.size ≤ 2 ^ 31 - 1)
    (system steady : BitVec 64) :
    let contents := accepted.drop (accepted.length - flushInfo.buffer.size)
    let data := encodeEvents host contents
    snappy.uncompress (snappy.compress data) = some data →
    RoundTrips host snappy writer (traceFileHeader host o flushInfo system steady)
      flushInfo.buffer contents := by
  intro contents data lossless
  obtain ⟨⟨window, holds, latest⟩, -⟩ := CircularSliceBuffer.run_windowOf capacity ops
  rw [filled] at holds latest
  have shown : window = contents := by
    rw [List.suffix_iff_eq_drop.mp latest, holds.length]
  have length : contents.length = flushInfo.buffer.size := by rw [← shown, holds.length]
  rw [shown] at holds
  obtain ⟨strategy, payload, compresses, written⟩ :=
    write_eq host snappy writer (traceFileHeader host o flushInfo system steady) sized holds
  refine ⟨_, strategy, payload, _, compresses, rfl, written, ?_⟩
  apply read_own rfl rfl rfl rfl (uncompress_compress lossless compresses)
  · omega
  · rw [length]
    rfl

/-- Snappy on at most 60 bytes that have nothing in common: their number and one
    literal. -/
def literalSnappy : Snappy where
  compress data := [BitVec.ofNat 8 data.length, BitVec.ofNat 8 (4 * (data.length - 1))] ++ data
  uncompress data := some (data.drop 2)

def distinctBytes : Event := ⟨0x0001020304050607, 0x08090a0b0c0d0e0f, 0x10111213, 0x14151617⟩

def bufferOfOne : CircularSliceBuffer Unit Event × List Event :=
  CircularSliceBuffer.run 2
    [.push distinctBytes (.ok ⟨⟨(), .owned (.new 2)⟩, Slice.fresh_owned (by decide)⟩)]

/-- Snappy on 48 bytes that have nothing in common and the same bytes again: the number of
    bytes, a literal and a copy. -/
def copySnappy : Snappy where
  compress data := [BitVec.ofNat 8 data.length, 188] ++ data.take 48 ++ [190, 48, 0]
  uncompress data := some ((data.drop 2).take 48 ++ (data.drop 2).take 48)

def laterBytes : Event := ⟨0x18191a1b1c1d1e1f, 0x2021222324252627, 0x28292a2b, 0x2c2d2e2f⟩

def bufferOfFour : CircularSliceBuffer Unit Event × List Event :=
  CircularSliceBuffer.run 4 ([distinctBytes, laterBytes, distinctBytes, laterBytes].map fun event =>
    .push event (.ok ⟨⟨(), .owned (.new 4)⟩, Slice.fresh_owned (by decide)⟩))

theorem read_write_bufferOfFour :
    bufferOfFour.1.size = 4 ∧ (copySnappy.compress (encodeEvents .little bufferOfFour.2)).length <
        (encodeEvents .little bufferOfFour.2).length ∧
      RoundTrips .little copySnappy ⟨.snappy, [], false⟩
        (traceFileHeader .little ⟨0, 1, 2, 1, true, fun _ => 3⟩ ⟨bufferOfFour.1, 0, 3, 0, 1⟩ 4 5)
        bufferOfFour.1 [distinctBytes, laterBytes, distinctBytes, laterBytes] :=
  ⟨rfl, by decide, read_write .little copySnappy ⟨.snappy, [], false⟩
    ⟨0, 1, 2, 1, true, fun _ => 3⟩ ⟨bufferOfFour.1, 0, 3, 0, 1⟩ 4 _ bufferOfFour.2 rfl (by decide)
    (by decide) 4 5 rfl⟩

end Spoor.Trace
