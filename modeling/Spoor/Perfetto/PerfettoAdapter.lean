import Mathlib.Algebra.Order.Ring.Int
import Mathlib.Data.Finset.Basic
import Spoor.Lib.Path
import Spoor.Trace.Trace

/-! # Traces for Perfetto

The adapter turns trace files into the packets of one Perfetto trace: a head packet
with the names of the functions that were called, a packet for each track, and for
each file a snapshot of its clocks and a packet for each event.

The messages have the fields that the adapter sets; a field without a value was not
set.  Texts hold one character for each byte.  `trackUuid` is the hash that makes
the id of a track from a process id and a thread id.
-/

namespace Spoor.Perfetto

open Trace

abbrev FunctionId := BitVec 64

/-! ## Symbols -/

/-- What the adapter reads of a function in the symbols file. -/
structure SpoorFunctionInfo where
  linkageName : Option String
  demangledName : Option String
  fileName : Option String
  directory : Option String
  line : Option Int
  deriving Repr, DecidableEq

/-- A map, in the order of its iteration. -/
structure SymbolsTable where
  entries : List (FunctionId × List SpoorFunctionInfo)
  distinct : (entries.map Prod.fst).Nodup

def SymbolsTable.keys (table : SymbolsTable) : List FunctionId := table.entries.map Prod.fst

/-! ## Messages -/

inductive BuiltinClock where
  | realtime
  | monotonic
  deriving Repr, DecidableEq

inductive SequenceFlags where
  | incrementalStateCleared
  | needsIncrementalState
  deriving Repr, DecidableEq

inductive TrackEventType where
  | sliceBegin
  | sliceEnd
  deriving Repr, DecidableEq

structure EventName where
  iid : BitVec 64
  name : String
  deriving Repr, DecidableEq

structure SourceLocation where
  iid : BitVec 64
  fileName : String
  functionName : String
  lineNumber : Option (BitVec 32)
  deriving Repr, DecidableEq

structure InternedData where
  eventNames : List EventName
  sourceLocations : List SourceLocation
  deriving Repr, DecidableEq

structure TrackEvent where
  trackUuid : BitVec 64
  type : Option TrackEventType
  nameIid : Option (BitVec 64)
  sourceLocationIid : Option (BitVec 64)
  deriving Repr, DecidableEq

structure Clock where
  clockId : BuiltinClock
  timestamp : BitVec 64
  deriving Repr, DecidableEq

structure ThreadDescriptor where
  pid : BitVec 32
  tid : BitVec 32
  deriving Repr, DecidableEq

/-- The part of a packet that is one of several messages. -/
inductive PacketData where
  | traceConfig (primaryTraceClock : BuiltinClock)
  | trackEvent (event : TrackEvent)
  | clockSnapshot (clocks : List Clock) (primaryTraceClock : BuiltinClock)
  | trackDescriptor (uuid : BitVec 64) (thread : ThreadDescriptor)
  deriving Repr, DecidableEq

structure TracePacket where
  trustedPacketSequenceId : Option (BitVec 32) := none
  previousPacketDropped : Option Bool := none
  sequenceFlags : Option SequenceFlags := none
  timestamp : Option (BitVec 64) := none
  timestampClockId : Option BuiltinClock := none
  internedData : Option InternedData := none
  data : PacketData
  deriving Repr, DecidableEq

structure PerfettoTrace where
  packet : List TracePacket
  deriving Repr, DecidableEq

def kTrustedPacketSequenceId : BitVec 32 := 1

def kPrimaryTraceClock : BuiltinClock := .realtime

/-! ## Names -/

def kSeparator : String := "; "

def kUnknown : String := "unknown"

def kMaxNameLength : Nat := 1024

def ellipsis : String := "..."

def truncate (text : String) : String :=
  if text.length ≤ kMaxNameLength then text
  else String.ofList (text.toList.take (kMaxNameLength - ellipsis.length)) ++ ellipsis

/-- A word in the format `%#016x`: zero has no leading `0x`. -/
def formatId (word : BitVec 64) : String :=
  let lead := if word = 0 then [] else ['0', 'x']
  let digits := Nat.toDigits 16 word.toNat
  String.ofList (lead ++ List.replicate (16 - lead.length - digits.length) '0' ++ digits)

/-- `kConflictFormat`. -/
def formatConflict (count : Nat) (functionId : FunctionId) (joined : String) : String :=
  toString count ++ "-way conflict for function ID " ++ formatId functionId ++ ": " ++ joined

/-- The text for several infos, or for one, before it is truncated. -/
def formatInfos (functionId : FunctionId) (functionInfos : List SpoorFunctionInfo)
    (format : SpoorFunctionInfo → String) : String :=
  let joined := kSeparator.intercalate (functionInfos.map format)
  if functionInfos.length < 2 then joined
  else formatConflict functionInfos.length functionId joined

def functionNameOf (functionId : FunctionId) (info : SpoorFunctionInfo) : String :=
  match info.demangledName, info.linkageName with
  | some demangledName, _ => demangledName
  | none, some linkageName => linkageName
  | none, none => formatId functionId

def makeFunctionName (functionId : FunctionId) (functionInfos : List SpoorFunctionInfo) : String :=
  truncate (formatInfos functionId functionInfos (functionNameOf functionId))

/-- `operator/=` of paths. -/
def appendPath (path other : String) : String :=
  String.ofList (Lib.Path.join path.toList other.toList)

def fileNameOf (appendLine : Bool) (info : SpoorFunctionInfo) : String :=
  let directory := info.directory.getD ""
  let path :=
    match info.fileName, info.line with
    | some fileName, some line =>
        if appendLine then appendPath directory fileName ++ ":" ++ toString line
        else appendPath directory fileName
    | some fileName, none => appendPath directory fileName
    | none, _ => directory
  if path = "" then kUnknown else path

def makeFileName (functionId : FunctionId) (functionInfos : List SpoorFunctionInfo) : String :=
  truncate (formatInfos functionId functionInfos (fileNameOf (functionInfos.length ≠ 1)))

def makeEventName (functionId : FunctionId) (functionInfos : List SpoorFunctionInfo) : EventName :=
  ⟨functionId, makeFunctionName functionId functionInfos⟩

def makeSourceLocation (functionId : FunctionId) (functionInfos : List SpoorFunctionInfo) :
    SourceLocation where
  iid := functionId
  fileName := makeFileName functionId functionInfos
  functionName := makeFunctionName functionId functionInfos
  lineNumber :=
    match functionInfos with
    | [info] => info.line.map (BitVec.ofInt 32)
    | _ => none

/-! ## Packets -/

/-- `Event::Type::kFunctionEntry`. -/
def kFunctionEntry : BitVec 32 := 1

/-- `Event::Type::kFunctionExit`. -/
def kFunctionExit : BitVec 32 := 2

section Packets

variable (trackUuid : BitVec 64 → BitVec 64 → BitVec 64)

def makePerfettoTrackEventTracePacket (header : Header) (event : Event) : TracePacket where
  trustedPacketSequenceId := some kTrustedPacketSequenceId
  timestamp := some event.steadyClockTimestamp
  timestampClockId := some .monotonic
  sequenceFlags := some .needsIncrementalState
  data :=
    let uuid := trackUuid header.processId header.threadId
    if event.type = kFunctionEntry then
      .trackEvent ⟨uuid, some .sliceBegin, some event.payload1, some event.payload1⟩
    else if event.type = kFunctionExit then .trackEvent ⟨uuid, some .sliceEnd, none, none⟩
    else .trackEvent ⟨uuid, none, none, none⟩

def makePerfettoClockSnapshotTracePacket (header : Header) : TracePacket where
  trustedPacketSequenceId := some kTrustedPacketSequenceId
  data := .clockSnapshot
    [⟨.monotonic, header.steadyClockTimestamp⟩, ⟨.realtime, header.systemClockTimestamp⟩]
    kPrimaryTraceClock

/-- One round of the loop over the files.  The set of ids is tested and left as it
    is. -/
def addTrackDescriptor (made : Finset (BitVec 64) × List TracePacket) (file : TraceFile) :
    Finset (BitVec 64) × List TracePacket :=
  let uuid := trackUuid file.header.processId file.header.threadId
  if uuid ∈ made.1 then made
  else
    let thread := ⟨file.header.processId.setWidth 32, file.header.threadId.setWidth 32⟩
    (made.1, made.2 ++ [{ data := .trackDescriptor uuid thread }])

def makePerfettoTrackDescriptorPackets (files : List TraceFile) : List TracePacket :=
  (files.foldl (addTrackDescriptor trackUuid) (∅, [])).2

/-! ## The trace -/

/-- The sum of a count and a size is an unsigned 64-bit number, which is converted
    to a signed 32-bit one. -/
def addCount (count : Int) (size : Nat) : Int := ((count + size) % 2 ^ 64).bmod (2 ^ 32)

/-- `event_count`.  The accumulator has the type of the literal `0`.  In which order
    `std::transform_reduce` adds is left open; here it is the order of the files. -/
def eventCount (files : List TraceFile) : Int :=
  files.foldl (fun count file => addCount count file.events.length) 0

def addCalled (ids : Finset FunctionId) (event : Event) : Finset FunctionId :=
  if event.type = kFunctionEntry ∨ event.type = kFunctionExit then insert event.payload1 ids
  else ids

def calledFunctionIds (files : List TraceFile) : Finset FunctionId :=
  files.foldl (fun ids file => file.events.foldl addCalled ids) ∅

/-- One round of the loop over the symbols table. -/
def addInterned (called : Finset FunctionId) (interned : InternedData)
    (entry : FunctionId × List SpoorFunctionInfo) : InternedData :=
  if entry.1 ∉ called then interned
  else
    { eventNames := interned.eventNames ++ [makeEventName entry.1 entry.2]
      sourceLocations := interned.sourceLocations ++ [makeSourceLocation entry.1 entry.2] }

def makeInternedData (files : List TraceFile) (table : SymbolsTable) : InternedData :=
  table.entries.foldl (addInterned (calledFunctionIds files)) ⟨[], []⟩

def makeHeadPacket (files : List TraceFile) (table : SymbolsTable) : TracePacket where
  trustedPacketSequenceId := some kTrustedPacketSequenceId
  previousPacketDropped := some true
  sequenceFlags := some .incrementalStateCleared
  internedData := some (makeInternedData files table)
  data := .traceConfig kPrimaryTraceClock

/-- The number of packets that room is made for. -/
def reservedPackets (files : List TraceFile) : Int :=
  ((1 + (makePerfettoTrackDescriptorPackets trackUuid files).length + files.length +
    eventCount files) % 2 ^ 64).bmod (2 ^ 32)

/-- One round of the last loop over the files. -/
def addFile (packets : List TracePacket) (file : TraceFile) : List TracePacket :=
  packets ++ [makePerfettoClockSnapshotTracePacket file.header] ++
    file.events.map (makePerfettoTrackEventTracePacket trackUuid file.header)

def spoorTraceToPerfettoTrace (files : List TraceFile) (table : SymbolsTable) : PerfettoTrace :=
  if eventCount files < 1 then ⟨[]⟩
  else
    let packets := [makeHeadPacket files table] ++
      makePerfettoTrackDescriptorPackets trackUuid files
    ⟨files.foldl (addFile trackUuid) packets⟩

end Packets

end Spoor.Perfetto
