import Spoor.Lib.ByteOrder

/-! # Trace files

A trace file is a header followed by its events, both as they lie in the memory
of the machine that wrote them.  The layout depends on that machine's byte
order only: neither structure has hidden padding.
-/

namespace Spoor.Trace

open Lib.ByteOrder

/-- `enum class Endian`, as the byte that is stored for a machine's order. -/
def endianByte : Order → Byte
  | .little => 0
  | .big => 1

inductive CompressionStrategy where
  | none
  | snappy
  deriving DecidableEq

def CompressionStrategy.byte : CompressionStrategy → Byte
  | .none => 0
  | .snappy => 1

def kTraceFileVersion : BitVec 32 := 0

def kMagicNumber : Vector Byte 10 :=
  #v[0xc8, 0x53, 0x70, 0x6f, 0x6f, 0x72, 0x0d, 0x0a, 0x1a, 0x0a]

/-- The enumerations are kept as the bytes they are stored as, since a file can
    hold any byte in their place. -/
structure Header where
  magicNumber : Vector Byte 10
  endianness : Byte
  compressionStrategy : Byte
  version : BitVec 32
  sessionId : BitVec 64
  processId : BitVec 64
  threadId : BitVec 64
  systemClockTimestamp : BitVec 64
  steadyClockTimestamp : BitVec 64
  eventCount : BitVec 32
  padding : Vector Byte 4
  deriving DecidableEq

structure Event where
  steadyClockTimestamp : BitVec 64
  payload1 : BitVec 64
  type : BitVec 32
  payload2 : BitVec 32
  deriving DecidableEq

structure TraceFile where
  header : Header
  events : List Event
  deriving DecidableEq

/-- `sizeof(Header)`. -/
def headerSize : Nat := 64

/-- `sizeof(Event)`. -/
def eventSize : Nat := 24

/-- The bytes of a header in the memory of a machine with this byte order. -/
def encodeHeader (order : Order) (h : Header) : List Byte :=
  h.magicNumber.toList ++ [h.endianness, h.compressionStrategy] ++
    encode order 4 h.version ++ encode order 8 h.sessionId ++ encode order 8 h.processId ++
    encode order 8 h.threadId ++ encode order 8 h.systemClockTimestamp ++
    encode order 8 h.steadyClockTimestamp ++ encode order 4 h.eventCount ++ h.padding.toList

def encodeEvent (order : Order) (e : Event) : List Byte :=
  encode order 8 e.steadyClockTimestamp ++ encode order 8 e.payload1 ++ encode order 4 e.type ++
    encode order 4 e.payload2

def encodeEvents (order : Order) (events : List Event) : List Byte :=
  events.flatMap (encodeEvent order)

def slice (bytes : List Byte) (offset length : Nat) : List Byte :=
  (bytes.drop offset).take length

def byteAt (bytes : List Byte) (offset : Nat) : Byte := bytes.getD offset 0

def arrayAt (bytes : List Byte) (offset length : Nat) : Vector Byte length :=
  .ofFn fun i => byteAt (bytes.drop offset) i

/-- Reading memory as a header. -/
def decodeHeader (order : Order) (bytes : List Byte) : Header where
  magicNumber := arrayAt bytes 0 10
  endianness := byteAt bytes 10
  compressionStrategy := byteAt bytes 11
  version := decode order 32 (slice bytes 12 4)
  sessionId := decode order 64 (slice bytes 16 8)
  processId := decode order 64 (slice bytes 24 8)
  threadId := decode order 64 (slice bytes 32 8)
  systemClockTimestamp := decode order 64 (slice bytes 40 8)
  steadyClockTimestamp := decode order 64 (slice bytes 48 8)
  eventCount := decode order 32 (slice bytes 56 4)
  padding := arrayAt bytes 60 4

/-- Reading memory as an event. -/
def decodeEvent (order : Order) (bytes : List Byte) : Event where
  steadyClockTimestamp := decode order 64 (slice bytes 0 8)
  payload1 := decode order 64 (slice bytes 8 8)
  type := decode order 32 (slice bytes 16 4)
  payload2 := decode order 32 (slice bytes 20 4)

/-- Reading memory as an array of events. -/
def decodeEvents (order : Order) : Nat → List Byte → List Event
  | 0, _ => []
  | n + 1, bytes => decodeEvent order bytes :: decodeEvents order n (bytes.drop eventSize)

theorem slice_skip {front rest : List Byte} {offset length : Nat} (beyond : front.length ≤ offset) :
    slice (front ++ rest) offset length = slice rest (offset - front.length) length := by
  rw [slice, slice, List.drop_append, List.drop_of_length_le beyond, List.nil_append]

theorem slice_front {front rest : List Byte} {length : Nat} (exactly : front.length = length) :
    slice (front ++ rest) 0 length = front := by
  rw [slice, List.drop_zero, ← exactly, List.take_left]

theorem byteAt_skip {front rest : List Byte} {offset : Nat} (beyond : front.length ≤ offset) :
    byteAt (front ++ rest) offset = byteAt rest (offset - front.length) := by
  simp [byteAt, List.getD, List.getElem?_append_right beyond]

theorem slice_cons {first : Byte} {rest : List Byte} {offset length : Nat} (beyond : 0 < offset) :
    slice (first :: rest) offset length = slice rest (offset - 1) length := by
  rw [← List.singleton_append]
  exact slice_skip beyond

theorem byteAt_cons {first : Byte} {rest : List Byte} {offset : Nat} (beyond : 0 < offset) :
    byteAt (first :: rest) offset = byteAt rest (offset - 1) := by
  rw [← List.singleton_append]
  exact byteAt_skip beyond

theorem byteAt_zero (first : Byte) (rest : List Byte) : byteAt (first :: rest) 0 = first := rfl

theorem arrayAt_skip {front rest : List Byte} {offset length : Nat}
    (beyond : front.length ≤ offset) :
    arrayAt (front ++ rest) offset length = arrayAt rest (offset - front.length) length := by
  rw [arrayAt, arrayAt, List.drop_append, List.drop_of_length_le beyond, List.nil_append]

theorem arrayAt_cons {first : Byte} {rest : List Byte} {offset length : Nat}
    (beyond : 0 < offset) :
    arrayAt (first :: rest) offset length = arrayAt rest (offset - 1) length := by
  rw [← List.singleton_append]
  exact arrayAt_skip beyond

theorem arrayAt_front {n : Nat} (v : Vector Byte n) (rest : List Byte) :
    arrayAt (v.toList ++ rest) 0 n = v := by
  apply Vector.ext
  intro i inside
  simp [arrayAt, byteAt, List.getD, List.getElem?_append]

/-- The event with every word replaced. -/
def Event.mapWords (e : Event) (f32 : BitVec 32 → BitVec 32) (f64 : BitVec 64 → BitVec 64) :
    Event where
  steadyClockTimestamp := f64 e.steadyClockTimestamp
  payload1 := f64 e.payload1
  type := f32 e.type
  payload2 := f32 e.payload2

theorem decodeEvent_append (host order : Order) (e : Event) (rest : List Byte) :
    decodeEvent host (encodeEvent order e ++ rest) =
      e.mapWords (fun x => decode host 32 (encode order 4 x))
        (fun x => decode host 64 (encode order 8 x)) := by
  simp only [decodeEvent, encodeEvent, List.append_assoc, Event.mapWords]
  simp (disch := simp) [slice_skip, slice_front]

/-- The header with every word replaced; bytes stay as they are. -/
def Header.mapWords (h : Header) (f32 : BitVec 32 → BitVec 32) (f64 : BitVec 64 → BitVec 64) :
    Header :=
  { h with
    version := f32 h.version
    sessionId := f64 h.sessionId
    processId := f64 h.processId
    threadId := f64 h.threadId
    systemClockTimestamp := f64 h.systemClockTimestamp
    steadyClockTimestamp := f64 h.steadyClockTimestamp
    eventCount := f32 h.eventCount }

theorem decodeHeader_append (host order : Order) (h : Header) (rest : List Byte) :
    decodeHeader host (encodeHeader order h ++ rest) =
      h.mapWords (fun x => decode host 32 (encode order 4 x))
        (fun x => decode host 64 (encode order 8 x)) := by
  simp only [decodeHeader, encodeHeader, List.append_assoc, Header.mapWords]
  simp (disch := simp) [slice_skip, slice_front, slice_cons, byteAt_skip, byteAt_cons, byteAt_zero,
    arrayAt_skip, arrayAt_cons, arrayAt_front]

@[simp] theorem length_encodeHeader (order : Order) (h : Header) :
    (encodeHeader order h).length = headerSize := by
  simp [encodeHeader, headerSize]

@[simp] theorem length_encodeEvent (order : Order) (e : Event) :
    (encodeEvent order e).length = eventSize := by
  simp [encodeEvent, eventSize]

@[simp] theorem length_encodeEvents (order : Order) (events : List Event) :
    (encodeEvents order events).length = events.length * eventSize := by
  induction events with
  | nil => simp [encodeEvents]
  | cons e rest ih =>
      simp only [encodeEvents, List.flatMap_cons, List.length_append, length_encodeEvent,
        List.length_cons, Nat.succ_mul] at ih ⊢
      omega

/-- Reading back events that a machine of some byte order wrote. -/
theorem decodeEvents_encodeEvents (host order : Order) (events : List Event) :
    decodeEvents host events.length (encodeEvents order events) =
      events.map fun e => e.mapWords (fun x => decode host 32 (encode order 4 x))
        (fun x => decode host 64 (encode order 8 x)) := by
  induction events with
  | nil => rfl
  | cons e rest ih =>
      have tail : (encodeEvent order e ++ encodeEvents order rest).drop eventSize =
          encodeEvents order rest := by
        rw [← length_encodeEvent order e, List.drop_left]
      rw [List.length_cons, decodeEvents, encodeEvents, List.flatMap_cons, ← encodeEvents,
        decodeEvent_append, tail, ih, List.map_cons]

theorem Event.mapWords_self (order : Order) (e : Event) :
    e.mapWords (fun x => decode order 32 (encode order 4 x))
      (fun x => decode order 64 (encode order 8 x)) = e := by
  simp only [Event.mapWords, decode_encode (w := 32) (n := 4) rfl,
    decode_encode (w := 64) (n := 8) rfl]

theorem Header.mapWords_self (order : Order) (h : Header) :
    h.mapWords (fun x => decode order 32 (encode order 4 x))
      (fun x => decode order 64 (encode order 8 x)) = h := by
  simp only [Header.mapWords, decode_encode (w := 32) (n := 4) rfl,
    decode_encode (w := 64) (n := 8) rfl]

end Spoor.Trace
