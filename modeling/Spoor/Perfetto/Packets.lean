import Mathlib.Algebra.Order.Ring.Int
import Mathlib.Data.List.Forall2
import Mathlib.Data.List.Nodup
import Spoor.Perfetto.PerfettoAdapter

/-! # The packets of a Perfetto trace

Which packets a trace has, and in which order.  The packets stand in one list, so
the position of each clock snapshot decides which events it is about.  The number
of events is kept in a signed 32-bit number: beyond its range the trace can come out
empty.
-/

namespace Spoor.Perfetto

open Trace

variable {trackUuid : BitVec 64 → BitVec 64 → BitVec 64}

/-! ## The number of events -/

def totalEvents (files : List TraceFile) : Nat := (files.map fun file => file.events.length).sum

theorem totalEvents_cons (file : TraceFile) (files : List TraceFile) :
    totalEvents (file :: files) = file.events.length + totalEvents files := by
  simp [totalEvents]

theorem totalEvents_eq_zero {files : List TraceFile} :
    totalEvents files = 0 ↔ ∀ file ∈ files, file.events = [] := by
  induction files with
  | nil => simp [totalEvents]
  | cons file files ih => simp [totalEvents_cons, ih]

/-- The image of an unsigned 64-bit number in a signed 32-bit one is that of the
    unbounded number. -/
theorem bmod_of_emod (value : Int) : (value % 2 ^ 64).bmod (2 ^ 32) = value.bmod (2 ^ 32) := by
  have split : value % 2 ^ 64 = value - (2 ^ 32 : Nat) * (2 ^ 32 * (value / 2 ^ 64)) := by omega
  rw [split, Int.sub_mul_bmod_self_left]

theorem addCount_bmod (count : Int) (size : Nat) :
    addCount (count.bmod (2 ^ 32)) size = (count + size).bmod (2 ^ 32) := by
  rw [addCount, bmod_of_emod, Int.bmod_add_bmod]

/-- The accumulated count is the total, taken to a signed 32-bit number. -/
theorem eventCount_eq (files : List TraceFile) :
    eventCount files = (totalEvents files : Int).bmod (2 ^ 32) := by
  have loop : ∀ (files : List TraceFile) (count : Int),
      files.foldl (fun count file => addCount count file.events.length) (count.bmod (2 ^ 32)) =
        (count + totalEvents files).bmod (2 ^ 32) := by
    intro files
    induction files with
    | nil => simp [totalEvents]
    | cons file files ih =>
        intro count
        rw [List.foldl_cons, addCount_bmod, ih, totalEvents_cons, Nat.cast_add, Int.add_assoc]
  simpa [eventCount] using loop files 0

theorem eventCount_of_lt {files : List TraceFile} (bounded : totalEvents files < 2 ^ 31) :
    eventCount files = totalEvents files := by
  rw [eventCount_eq]
  exact Int.bmod_eq_of_le (by omega) (by omega)

/-! ## The packets and their order -/

/-- The packets of one file. -/
def filePackets (trackUuid : BitVec 64 → BitVec 64 → BitVec 64) (file : TraceFile) :
    List TracePacket :=
  makePerfettoClockSnapshotTracePacket file.header ::
    file.events.map (makePerfettoTrackEventTracePacket trackUuid file.header)

theorem foldl_addFile (files : List TraceFile) (packets : List TracePacket) :
    files.foldl (addFile trackUuid) packets = packets ++ files.flatMap (filePackets trackUuid) := by
  induction files generalizing packets with
  | nil => simp
  | cons file files ih => simp [ih, addFile, filePackets]

theorem packet_of_count {files : List TraceFile} (table : SymbolsTable)
    (counted : 1 ≤ eventCount files) :
    (spoorTraceToPerfettoTrace trackUuid files table).packet =
      makeHeadPacket files table :: (makePerfettoTrackDescriptorPackets trackUuid files ++
        files.flatMap (filePackets trackUuid)) := by
  rw [spoorTraceToPerfettoTrace, if_neg (Int.not_lt.mpr counted)]
  simp [foldl_addFile]

theorem packet_eq_nil {files : List TraceFile} {table : SymbolsTable} :
    (spoorTraceToPerfettoTrace trackUuid files table).packet = [] ↔ eventCount files < 1 := by
  by_cases counted : eventCount files < 1
  · simp [spoorTraceToPerfettoTrace, counted]
  · simp [packet_of_count table (Int.not_lt.mp counted), counted]

/-- The track of a file. -/
def trackOf (trackUuid : BitVec 64 → BitVec 64 → BitVec 64) (file : TraceFile) : BitVec 64 :=
  trackUuid file.header.processId file.header.threadId

/-- The packet that describes the track of a file. -/
def describeTrack (trackUuid : BitVec 64 → BitVec 64 → BitVec 64) (file : TraceFile) :
    TracePacket where
  data := .trackDescriptor (trackOf trackUuid file)
    ⟨file.header.processId.setWidth 32, file.header.threadId.setWidth 32⟩

/-- The set of ids stays empty, so every file gets a packet. -/
theorem makePerfettoTrackDescriptorPackets_eq (files : List TraceFile) :
    makePerfettoTrackDescriptorPackets trackUuid files = files.map (describeTrack trackUuid) := by
  have loop : ∀ (files : List TraceFile) (packets : List TracePacket),
      files.foldl (addTrackDescriptor trackUuid) (∅, packets) =
        (∅, packets ++ files.map (describeTrack trackUuid)) := by
    intro files
    induction files with
    | nil => simp
    | cons file files ih =>
        intro packets
        have round : addTrackDescriptor trackUuid (∅, packets) file =
            (∅, packets ++ [describeTrack trackUuid file]) := by
          simp [addTrackDescriptor, describeTrack, trackOf]
        rw [List.foldl_cons, round, ih, List.append_assoc, List.singleton_append, List.map_cons]
  simp [makePerfettoTrackDescriptorPackets, loop]

/-! ## Every event is preserved -/

/-- The slice of an event on the track of a header. -/
structure SliceOf (trackUuid : BitVec 64 → BitVec 64 → BitVec 64) (header : Header)
    (event : Event) (slice : TrackEvent) : Prop where
  track : slice.trackUuid = trackUuid header.processId header.threadId
  entry : event.type = 1 → slice.type = some .sliceBegin ∧ slice.nameIid = some event.payload1 ∧
    slice.sourceLocationIid = some event.payload1
  exit : event.type = 2 → slice.type = some .sliceEnd
  other : event.type ≠ 1 → event.type ≠ 2 → slice.type = none

structure CarriesEvent (trackUuid : BitVec 64 → BitVec 64 → BitVec 64) (header : Header)
    (event : Event) (packet : TracePacket) : Prop where
  timestamp : packet.timestamp = some event.steadyClockTimestamp
  clock : packet.timestampClockId = some .monotonic
  slice : ∃ slice, packet.data = .trackEvent slice ∧ SliceOf trackUuid header event slice

/-- The packet relates the two clocks of a header. -/
def CarriesClocks (header : Header) (packet : TracePacket) : Prop :=
  packet.data = .clockSnapshot [⟨.monotonic, header.steadyClockTimestamp⟩,
    ⟨.realtime, header.systemClockTimestamp⟩] .realtime

/-- The packets of a file: a snapshot of its clocks, and its events in order. -/
def CarriesFile (trackUuid : BitVec 64 → BitVec 64 → BitVec 64) (file : TraceFile)
    (packets : List TracePacket) : Prop :=
  ∃ snapshot events, packets = snapshot :: events ∧ CarriesClocks file.header snapshot ∧
    List.Forall₂ (CarriesEvent trackUuid file.header) file.events events

theorem carriesEvent_make (header : Header) (event : Event) :
    CarriesEvent trackUuid header event
      (makePerfettoTrackEventTracePacket trackUuid header event) := by
  refine ⟨rfl, rfl, ?_⟩
  simp only [makePerfettoTrackEventTracePacket]
  by_cases entry : event.type = kFunctionEntry
  · rw [if_pos entry]
    refine ⟨_, rfl, rfl, fun _ => ⟨rfl, rfl, rfl⟩, ?_, fun other => (other entry).elim⟩
    simp [entry, kFunctionEntry]
  · rw [if_neg entry]
    by_cases exit : event.type = kFunctionExit
    · rw [if_pos exit]
      exact ⟨_, rfl, rfl, fun entry' => (entry entry').elim, fun _ => rfl,
        fun _ other => (other exit).elim⟩
    · rw [if_neg exit]
      exact ⟨_, rfl, rfl, fun entry' => (entry entry').elim, fun exit' => (exit exit').elim,
        fun _ _ => rfl⟩

theorem carriesFile_filePackets (file : TraceFile) :
    CarriesFile trackUuid file (filePackets trackUuid file) := by
  refine ⟨_, _, rfl, rfl, ?_⟩
  rw [List.forall₂_map_right_iff, List.forall₂_same]
  exact fun event _ => carriesEvent_make file.header event

/-- A trace with a number of events that can be counted has one head packet, the
    descriptors of the tracks, and then the packets of each file in order. -/
theorem trace_carries_files (files : List TraceFile) (table : SymbolsTable)
    (present : 1 ≤ totalEvents files) (bounded : totalEvents files ≤ 2 ^ 31 - 1) :
    ∃ head descriptors groups,
      (spoorTraceToPerfettoTrace trackUuid files table).packet =
        head :: (descriptors ++ groups.flatten) ∧
      head.data = .traceConfig .realtime ∧ head.internedData.isSome = true ∧
      (descriptors = makePerfettoTrackDescriptorPackets trackUuid files ∧
        (∀ packet ∈ descriptors, ∃ uuid thread, packet.data = .trackDescriptor uuid thread) ∧
        ∀ file ∈ files, ∃ packet ∈ descriptors, ∃ thread, packet.data =
          .trackDescriptor (trackUuid file.header.processId file.header.threadId) thread) ∧
      List.Forall₂ (CarriesFile trackUuid) files groups := by
  have counted : 1 ≤ eventCount files := by
    rw [eventCount_of_lt (by omega)]
    omega
  refine ⟨_, _, files.map (filePackets trackUuid), packet_of_count table counted, rfl, rfl,
    ⟨rfl, ?_, ?_⟩, ?_⟩
  · intro packet listed
    rw [makePerfettoTrackDescriptorPackets_eq] at listed
    obtain ⟨file, -, rfl⟩ := List.mem_map.mp listed
    exact ⟨_, _, rfl⟩
  · intro file listed
    rw [makePerfettoTrackDescriptorPackets_eq]
    exact ⟨describeTrack trackUuid file, List.mem_map_of_mem listed, _, rfl⟩
  · rw [List.forall₂_map_right_iff, List.forall₂_same]
    exact fun file _ => carriesFile_filePackets file

/-- A file of process 2 and thread 10 with these events. -/
def fileWith (events : List Event) : TraceFile where
  header := {
    magicNumber := kMagicNumber
    endianness := 0
    compressionStrategy := 0
    version := kTraceFileVersion
    sessionId := 1
    processId := 2
    threadId := 10
    systemClockTimestamp := 5
    steadyClockTimestamp := 7
    eventCount := BitVec.ofNat 32 events.length
    padding := Vector.replicate 4 0 }
  events := events

/-- The entry of the function with id 0. -/
def entryEvent : Event := ⟨8, 0, 1, 0⟩

theorem trace_carries_entryEvent :
    ∃ head descriptors groups,
      (spoorTraceToPerfettoTrace (· + ·) [fileWith [entryEvent], fileWith []]
        ⟨[], by simp⟩).packet = head :: (descriptors ++ groups.flatten) ∧
      head.data = .traceConfig .realtime ∧ head.internedData.isSome = true ∧
      (descriptors =
          makePerfettoTrackDescriptorPackets (· + ·) [fileWith [entryEvent], fileWith []] ∧
        (∀ packet ∈ descriptors, ∃ uuid thread, packet.data = .trackDescriptor uuid thread) ∧
        ∀ file ∈ [fileWith [entryEvent], fileWith []], ∃ packet ∈ descriptors, ∃ thread,
          packet.data =
            .trackDescriptor (file.header.processId + file.header.threadId) thread) ∧
      List.Forall₂ (CarriesFile (· + ·)) [fileWith [entryEvent], fileWith []] groups :=
  trace_carries_files _ _ (by decide) (by decide)

/-! ## Track descriptors -/

def TracePacket.descriptorUuid (packet : TracePacket) : Option (BitVec 64) :=
  match packet.data with
  | .trackDescriptor uuid _ => some uuid
  | _ => none

/-- The packets describe each track of the list once, in the order in which the
    tracks first occur. -/
def DescribesEachOnce (tracks : List (BitVec 64)) (packets : List TracePacket) : Prop :=
  ∃ described : List (BitVec 64), packets.map TracePacket.descriptorUuid = described.map some ∧
    described.Nodup ∧ (∀ uuid, uuid ∈ described ↔ uuid ∈ tracks) ∧
    described.Pairwise fun earlier later => tracks.idxOf earlier < tracks.idxOf later

theorem pairwise_idxOf {tracks : List (BitVec 64)} (distinct : tracks.Nodup) :
    tracks.Pairwise fun earlier later => tracks.idxOf earlier < tracks.idxOf later := by
  rw [List.pairwise_iff_getElem]
  intro i j first second before
  rwa [distinct.idxOf_getElem i first, distinct.idxOf_getElem j second]

/-- Each track is described once exactly when no two files share one. -/
theorem describesEachOnce_iff (files : List TraceFile) :
    DescribesEachOnce (files.map (trackOf trackUuid))
        (makePerfettoTrackDescriptorPackets trackUuid files) ↔
      (files.map (trackOf trackUuid)).Nodup := by
  have uuids : (makePerfettoTrackDescriptorPackets trackUuid files).map
      TracePacket.descriptorUuid = (files.map (trackOf trackUuid)).map some := by
    rw [makePerfettoTrackDescriptorPackets_eq, List.map_map, List.map_map]
    rfl
  constructor
  · rintro ⟨described, same, distinct, -, -⟩
    rw [uuids] at same
    rwa [List.map_injective_iff.mpr (Option.some_injective _) same]
  · intro distinct
    exact ⟨_, uuids, distinct, fun _ => Iff.rfl, pairwise_idxOf distinct⟩

/-- A thread with two files has its track described twice. -/
theorem describesEachOnce_two_files :
    ¬DescribesEachOnce ([fileWith [entryEvent], fileWith [entryEvent]].map (trackOf (· + ·)))
      (makePerfettoTrackDescriptorPackets (· + ·)
        [fileWith [entryEvent], fileWith [entryEvent]]) := by
  rintro ⟨described, same, distinct, -, -⟩
  have twice : [some (12 : BitVec 64), some 12] = described.map some := same
  obtain rfl : [12, 12] = described := List.map_injective_iff.mpr (Option.some_injective _) twice
  exact absurd distinct (by decide)

/-! ## What the count decides -/

theorem length_flatMap_filePackets (files : List TraceFile) :
    (files.flatMap (filePackets trackUuid)).length = files.length + totalEvents files := by
  induction files with
  | nil => simp [totalEvents]
  | cons file files ih =>
      simp only [List.flatMap_cons, List.length_append, ih, totalEvents_cons, filePackets,
        List.length_cons, List.length_map]
      omega

theorem length_packet {files : List TraceFile} (table : SymbolsTable)
    (counted : 1 ≤ eventCount files) :
    (spoorTraceToPerfettoTrace trackUuid files table).packet.length =
      1 + 2 * files.length + totalEvents files := by
  rw [packet_of_count table counted, List.length_cons, List.length_append,
    length_flatMap_filePackets, makePerfettoTrackDescriptorPackets_eq, List.length_map]
  omega

theorem reservedPackets_eq (files : List TraceFile) :
    reservedPackets trackUuid files =
      ((1 + 2 * files.length + totalEvents files : Nat) : Int).bmod (2 ^ 32) := by
  rw [reservedPackets, bmod_of_emod, eventCount_eq, Int.add_bmod_bmod,
    makePerfettoTrackDescriptorPackets_eq, List.length_map]
  congr 1
  push_cast
  omega

/-- The count decides rightly: only a trace without events comes out empty, the
    count is the number of events, and room is made for as many packets as come. -/
structure CountsRightly (trackUuid : BitVec 64 → BitVec 64 → BitVec 64) (files : List TraceFile)
    (table : SymbolsTable) : Prop where
  empty : spoorTraceToPerfettoTrace trackUuid files table = ⟨[]⟩ ↔
    ∀ file ∈ files, file.events = []
  count : eventCount files = totalEvents files
  reserved : spoorTraceToPerfettoTrace trackUuid files table ≠ ⟨[]⟩ →
    reservedPackets trackUuid files =
      (spoorTraceToPerfettoTrace trackUuid files table).packet.length

theorem trace_eq_nil {files : List TraceFile} {table : SymbolsTable} :
    spoorTraceToPerfettoTrace trackUuid files table = ⟨[]⟩ ↔ eventCount files < 1 := by
  rw [← @packet_eq_nil trackUuid files table]
  cases spoorTraceToPerfettoTrace trackUuid files table
  simp

theorem countsRightly_iff (files : List TraceFile) (table : SymbolsTable) :
    CountsRightly trackUuid files table ↔
      totalEvents files = 0 ∨ 1 + 2 * files.length + totalEvents files < 2 ^ 31 := by
  constructor
  · intro rightly
    by_cases absent : totalEvents files = 0
    · exact .inl absent
    · have counted : 1 ≤ eventCount files := by
        rw [rightly.count]
        omega
      have room := rightly.reserved (by rw [Ne, trace_eq_nil]; omega)
      rw [length_packet table counted, reservedPackets_eq] at room
      have above := @Int.bmod_lt (1 + 2 * files.length + totalEvents files : Nat) (2 ^ 32)
        (by decide)
      exact .inr (by omega)
  · intro small
    have count : eventCount files = totalEvents files := eventCount_of_lt (by omega)
    constructor
    · rw [trace_eq_nil, count, ← totalEvents_eq_zero]
      omega
    · exact count
    · intro made
      rw [Ne, trace_eq_nil, Int.not_lt] at made
      rw [length_packet table made, reservedPackets_eq]
      exact Int.bmod_eq_of_le (by omega) (by omega)

/-- One event more than a signed 32-bit number can count. -/
def manyEvents : List Event := List.replicate (2 ^ 31) entryEvent

theorem totalEvents_manyEvents : totalEvents [fileWith manyEvents] = 2 ^ 31 := by
  have length : (fileWith manyEvents).events.length = 2 ^ 31 := by
    rw [fileWith, manyEvents, List.length_replicate]
  rw [totalEvents_cons, length, totalEvents, List.map_nil, List.sum_nil, Nat.add_zero]

theorem eventCount_manyEvents : eventCount [fileWith manyEvents] = -2 ^ 31 := by
  rw [eventCount_eq, totalEvents_manyEvents]
  decide

/-- The trace of so many events is empty. -/
theorem trace_manyEvents :
    spoorTraceToPerfettoTrace (· + ·) [fileWith manyEvents] ⟨[], by simp⟩ = ⟨[]⟩ ∧
      (∃ file ∈ [fileWith manyEvents], file.events ≠ []) ∧
      eventCount [fileWith manyEvents] ≠ totalEvents [fileWith manyEvents] := by
  refine ⟨trace_eq_nil.mpr (by rw [eventCount_manyEvents]; decide), ?_, ?_⟩
  · by_contra empty
    have absent := totalEvents_eq_zero.mpr fun file listed => by
      by_contra present
      exact empty ⟨file, listed, present⟩
    rw [totalEvents_manyEvents] at absent
    omega
  · rw [eventCount_manyEvents, totalEvents_manyEvents]
    decide

end Spoor.Perfetto
