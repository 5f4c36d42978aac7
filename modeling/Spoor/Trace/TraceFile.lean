import Spoor.Buffer.CircularSliceBuffer
import Spoor.Trace.Trace

/-! # Writing and reading trace files

The writer flattens a buffer of events into one array, compresses it, and falls
back to the raw bytes when compression does not pay.  The reader takes a file
apart again and turns the words of a file from a machine of the other byte
order round.

`host` is the byte order of the machine.  Snappy is a library; its two functions
are parameters.
-/

namespace Spoor.Trace

open Buffer Lib.ByteOrder

variable {ω : Type}

/-- `snappy::Compress` and `snappy::Uncompress`. -/
structure Snappy where
  compress : List Byte → List Byte
  uncompress : List Byte → Option (List Byte)

inductive CompressError

inductive UncompressError where
  | corruptInput
  deriving DecidableEq

structure Compressor where
  strategy : CompressionStrategy
  compress : List Byte → Except CompressError (List Byte)
  uncompress : List Byte → Except UncompressError (List Byte)

def noneCompressor : Compressor where
  strategy := .none
  compress data := .ok data
  uncompress data := .ok data

def snappyCompressor (snappy : Snappy) : Compressor where
  strategy := .snappy
  compress data := .ok (snappy.compress data)
  uncompress data :=
    match snappy.uncompress data with
    | some data => .ok data
    | none => .error .corruptInput

def makeCompressor (snappy : Snappy) : CompressionStrategy → Compressor
  | .none => noneCompressor
  | .snappy => snappyCompressor snappy

/-- The strategy a stored byte stands for.  `MakeCompressor` returns nothing for
    any other byte. -/
def CompressionStrategy.ofByte (byte : Byte) : Option CompressionStrategy :=
  if byte = CompressionStrategy.none.byte then some .none
  else if byte = CompressionStrategy.snappy.byte then some .snappy
  else none

/-- `buffer` is what an earlier `Write` left in it. -/
structure TraceFileWriter where
  compressionStrategy : CompressionStrategy
  buffer : List Event
  createdDirectory : Bool

inductive WriteError where
  | failedToOpenFile
  deriving DecidableEq

/-- What `Write` leaves behind: its result, the writer and the contents of the
    file, if it wrote one. -/
structure Written where
  result : Except WriteError Unit
  writer : TraceFileWriter
  file : Option (List Byte)

/-- `Write`; `opens` says whether the file can be opened.  There is no answer
    where the buffer has no chunks to give. -/
def TraceFileWriter.write (host : Order) (snappy : Snappy) (writer : TraceFileWriter)
    (opens : Bool) (header : Header) (events : CircularSliceBuffer ω Event) : Option Written :=
  let writer := { writer with buffer := [] }
  if events.empty then some ⟨.ok (), writer, none⟩
  else
    let writer := { writer with createdDirectory := true }
    if !opens then some ⟨.error .failedToOpenFile, writer, none⟩
    else do
      let chunks ← events.contiguousMemoryChunks
      let writer := { writer with buffer := writer.buffer ++ chunks.flatten }
      let data := encodeEvents host writer.buffer
      let compressor := makeCompressor snappy writer.compressionStrategy
      let (strategy, payload) :=
        match compressor.compress data with
        | .ok compressed =>
            if data.length ≤ compressed.length then (CompressionStrategy.none, data)
            else (compressor.strategy, compressed)
        | .error _ => (CompressionStrategy.none, data)
      let header := { header with compressionStrategy := strategy.byte }
      some ⟨.ok (), writer, some (encodeHeader host header ++ payload)⟩

inductive ReadError where
  | failedToOpenFile
  | corruptData
  | unknownVersion
  deriving DecidableEq

/-- `absl::gbswap_32`. -/
def gbswap32 (x : BitVec 32) : BitVec 32 := swap 4 x

/-- `absl::gbswap_64`. -/
def gbswap64 (x : BitVec 64) : BitVec 64 := swap 8 x

/-- The strategy is not among the fields the source initialises. -/
def headerToHostByteOrder (host : Order) (header : Header) : Header :=
  if header.endianness = endianByte host then header
  else
    { magicNumber := header.magicNumber
      endianness := header.endianness
      compressionStrategy := 0
      version := gbswap32 header.version
      sessionId := gbswap64 header.sessionId
      processId := gbswap64 header.processId
      threadId := gbswap64 header.threadId
      systemClockTimestamp := gbswap64 header.systemClockTimestamp
      steadyClockTimestamp := gbswap64 header.steadyClockTimestamp
      eventCount := gbswap32 header.eventCount
      padding := header.padding }

def eventToHostByteOrder (host : Order) (event : Event) (dataEndianness : Byte) : Event :=
  if dataEndianness = endianByte host then event
  else
    { steadyClockTimestamp := gbswap64 event.steadyClockTimestamp
      payload1 := gbswap64 event.payload1
      type := (gbswap64 (event.type.setWidth 64)).setWidth 32
      payload2 := gbswap32 event.payload2 }

/-- `event_count * sizeof(Event)`: the count is converted to an unsigned 64-bit
    number first. -/
def eventsSize (eventCount : BitVec 32) : Nat :=
  (eventCount.signExtend 64 * BitVec.ofNat 64 eventSize).toNat

/-- No object is larger than its difference type can count, so `reserve` throws
    beyond this size. -/
def stringMaxSize : Nat := 2 ^ 63 - 1

/-- The largest size of a `std::vector<Event>`. -/
def eventsMaxSize : Nat := stringMaxSize / eventSize

/-- Whether the constructor of a compressor can reserve the capacity it is given.
    Only `SnappyCompressor` has a buffer. -/
def CompressionStrategy.reserves (initialCapacity : Nat) : CompressionStrategy → Bool
  | .none => true
  | .snappy => initialCapacity ≤ stringMaxSize

/-- What `ReadHeader` and `Read` do with the bytes of a header. -/
def checkHeader (host : Order) (buffer : List Byte) : Except ReadError Header :=
  let header := headerToHostByteOrder host (decodeHeader host buffer)
  if header.magicNumber ≠ kMagicNumber then .error .corruptData
  else if header.version ≠ kTraceFileVersion then .error .unknownVersion
  else .ok header

/-- `ReadHeader`, where the file gives these bytes when asked for the size of a
    header, or cannot be opened. -/
def readHeader (host : Order) : Option (List Byte) → Except ReadError Header
  | none => .error .failedToOpenFile
  | some buffer =>
      if buffer.length ≠ headerSize then .error .corruptData else checkHeader host buffer

/-- What `Read` does behind an accepted header.  There is no answer where
    `MakeCompressor` has none, and none where a reservation throws. -/
def readEvents (host : Order) (snappy : Snappy) (header : Header) (payload : List Byte) :
    Option (Except ReadError TraceFile) := do
  let strategy ← CompressionStrategy.ofByte header.compressionStrategy
  if !strategy.reserves (eventsSize header.eventCount) then none
  else
    match (makeCompressor snappy strategy).uncompress payload with
    | .error _ => some (.error .corruptData)
    | .ok data =>
        if data.length ≠ eventsSize header.eventCount then some (.error .corruptData)
        else if eventsMaxSize < (header.eventCount.signExtend 64).toNat then none
        else
          let events := (decodeEvents host header.eventCount.toNat data).map
            fun event => eventToHostByteOrder host event header.endianness
          some (.ok ⟨header, events⟩)

/-- `Read` of a file with these contents, or of one that cannot be opened. -/
def read (host : Order) (snappy : Snappy) : Option (List Byte) → Option (Except ReadError TraceFile)
  | none => some (.error .failedToOpenFile)
  | some buffer =>
      if buffer.length < headerSize then some (.error .corruptData)
      else
        match checkHeader host buffer with
        | .error error => some (.error error)
        | .ok header => readEvents host snappy header (buffer.drop headerSize)

end Spoor.Trace
