import Mathlib.Data.List.Nodup
import Spoor.Perfetto.Packets

/-! # The interned data of a Perfetto trace

Slices name their function by an id, and the head packet says once what the names
and source locations of the ids are.  It does so for the functions in the symbols
table that occur in some event.  Texts are cut to a length that Perfetto accepts.
-/

namespace Spoor.Perfetto

open Trace

variable {trackUuid : BitVec 64 → BitVec 64 → BitVec 64}

/-! ## Which functions were called -/

/-- The function is entered or left by some event of the files. -/
def Called (files : List TraceFile) (id : FunctionId) : Prop :=
  ∃ file ∈ files, ∃ event ∈ file.events, (event.type = 1 ∨ event.type = 2) ∧ event.payload1 = id

theorem mem_foldl_addCalled (events : List Event) (ids : Finset FunctionId) (id : FunctionId) :
    id ∈ events.foldl addCalled ids ↔
      id ∈ ids ∨ ∃ event ∈ events, (event.type = 1 ∨ event.type = 2) ∧ event.payload1 = id := by
  induction events generalizing ids with
  | nil => simp
  | cons event events ih =>
      rw [List.foldl_cons, ih, addCalled, kFunctionEntry, kFunctionExit]
      split
      case isTrue called =>
        simp only [Finset.mem_insert, List.exists_mem_cons_iff, called, true_and]
        grind
      case isFalse other =>
        simp only [List.exists_mem_cons_iff, other, false_and, false_or]

theorem mem_calledFunctionIds {files : List TraceFile} {id : FunctionId} :
    id ∈ calledFunctionIds files ↔ Called files id := by
  have loop : ∀ (files : List TraceFile) (ids : Finset FunctionId),
      id ∈ files.foldl (fun ids file => file.events.foldl addCalled ids) ids ↔
        id ∈ ids ∨ Called files id := by
    intro files
    induction files with
    | nil => simp [Called]
    | cons file files ih =>
        intro ids
        rw [List.foldl_cons, ih, mem_foldl_addCalled, or_assoc]
        simp only [Called, List.exists_mem_cons_iff]
  rw [calledFunctionIds, loop]
  simp

/-! ## The names and locations in the head packet -/

/-- The entries of the table that are called, in its order. -/
def calledEntries (files : List TraceFile) (table : SymbolsTable) :
    List (FunctionId × List SpoorFunctionInfo) :=
  table.entries.filter fun entry => entry.1 ∈ calledFunctionIds files

theorem makeInternedData_eq (files : List TraceFile) (table : SymbolsTable) :
    makeInternedData files table = {
      eventNames := (calledEntries files table).map fun entry => makeEventName entry.1 entry.2
      sourceLocations :=
        (calledEntries files table).map fun entry => makeSourceLocation entry.1 entry.2 } := by
  have loop : ∀ (called : Finset FunctionId) (entries : List (FunctionId × List SpoorFunctionInfo))
      (interned : InternedData), entries.foldl (addInterned called) interned = {
        eventNames := interned.eventNames ++
          (entries.filter fun entry => entry.1 ∈ called).map fun entry =>
            makeEventName entry.1 entry.2
        sourceLocations := interned.sourceLocations ++
          (entries.filter fun entry => entry.1 ∈ called).map fun entry =>
            makeSourceLocation entry.1 entry.2 } := by
    intro called entries
    induction entries with
    | nil => simp
    | cons entry entries ih =>
        intro interned
        rw [List.foldl_cons, ih, addInterned]
        by_cases inside : entry.1 ∈ called <;> simp [inside]
  rw [makeInternedData, loop, calledEntries]
  simp

theorem mem_calledEntries {files : List TraceFile} {table : SymbolsTable} {id : FunctionId} :
    id ∈ (calledEntries files table).map Prod.fst ↔ id ∈ table.keys ∧ Called files id := by
  simp only [calledEntries, SymbolsTable.keys, List.mem_map, List.mem_filter, decide_eq_true_eq,
    ← mem_calledFunctionIds]
  grind

theorem calledEntries_nodup (files : List TraceFile) (table : SymbolsTable) :
    ((calledEntries files table).map Prod.fst).Nodup :=
  (List.filter_sublist.map Prod.fst).nodup table.distinct

/-! ## Texts of a bounded length -/

/-- The text is short enough, and it is the whole one if that is. -/
structure Abbreviates (whole text : String) : Prop where
  short : text.length ≤ 1024
  equal : whole.length ≤ 1024 → text = whole

theorem truncate_abbreviates (text : String) : Abbreviates text (truncate text) := by
  constructor
  · rw [truncate]
    split
    case isTrue short => exact short
    case isFalse long =>
      have dots : ellipsis.length = 3 := by decide
      rw [String.length_append, String.length_ofList, List.length_take, dots, kMaxNameLength]
      omega
  · intro short
    exact if_pos short

/-- The text of a function name that is not truncated. -/
def wholeFunctionName (functionId : FunctionId) (functionInfos : List SpoorFunctionInfo) : String :=
  formatInfos functionId functionInfos (functionNameOf functionId)

/-- The text of a file name that is not truncated. -/
def wholeFileName (functionId : FunctionId) (functionInfos : List SpoorFunctionInfo) : String :=
  formatInfos functionId functionInfos (fileNameOf (functionInfos.length ≠ 1))

/-! ## The head packet -/

/-- There is one name and one location for each function of the table that is
    called, none for another, and their texts are abbreviated. -/
structure InternsCalled (files : List TraceFile) (table : SymbolsTable) (interned : InternedData) :
    Prop where
  namesOnce : (interned.eventNames.map EventName.iid).Nodup
  names : ∀ id, id ∈ interned.eventNames.map EventName.iid ↔ id ∈ table.keys ∧ Called files id
  locationsOnce : (interned.sourceLocations.map SourceLocation.iid).Nodup
  locations : ∀ id, id ∈ interned.sourceLocations.map SourceLocation.iid ↔
    id ∈ table.keys ∧ Called files id
  nameTexts : ∀ name ∈ interned.eventNames, ∃ infos, (name.iid, infos) ∈ table.entries ∧
    Abbreviates (wholeFunctionName name.iid infos) name.name
  locationTexts : ∀ location ∈ interned.sourceLocations, ∃ infos,
    (location.iid, infos) ∈ table.entries ∧
      Abbreviates (wholeFunctionName location.iid infos) location.functionName ∧
      Abbreviates (wholeFileName location.iid infos) location.fileName

/-- The slices that begin on the packets name functions of the table only with ids
    that are interned. -/
def Resolves (table : SymbolsTable) (interned : InternedData) (packets : List TracePacket) : Prop :=
  ∀ packet ∈ packets, ∀ slice, packet.data = .trackEvent slice → slice.type = some .sliceBegin →
    ∃ id, slice.nameIid = some id ∧ slice.sourceLocationIid = some id ∧
      (id ∈ table.keys → id ∈ interned.eventNames.map EventName.iid ∧
        id ∈ interned.sourceLocations.map SourceLocation.iid)

theorem makeInternedData_internsCalled (files : List TraceFile) (table : SymbolsTable) :
    InternsCalled files table (makeInternedData files table) := by
  have names : (makeInternedData files table).eventNames.map EventName.iid =
      (calledEntries files table).map Prod.fst := by
    rw [makeInternedData_eq, List.map_map]
    rfl
  have locations : (makeInternedData files table).sourceLocations.map SourceLocation.iid =
      (calledEntries files table).map Prod.fst := by
    rw [makeInternedData_eq, List.map_map]
    rfl
  constructor
  · rw [names]
    exact calledEntries_nodup files table
  · intro id
    rw [names, mem_calledEntries]
  · rw [locations]
    exact calledEntries_nodup files table
  · intro id
    rw [locations, mem_calledEntries]
  · intro name listed
    rw [makeInternedData_eq] at listed
    obtain ⟨entry, inTable, rfl⟩ := List.mem_map.mp listed
    exact ⟨entry.2, List.mem_of_mem_filter inTable, truncate_abbreviates _⟩
  · intro location listed
    rw [makeInternedData_eq] at listed
    obtain ⟨entry, inTable, rfl⟩ := List.mem_map.mp listed
    exact ⟨entry.2, List.mem_of_mem_filter inTable, truncate_abbreviates _, truncate_abbreviates _⟩

/-- Two functions under one id. -/
def conflictTable : SymbolsTable where
  entries := [(0, [⟨some "main", some "main()", some "main.c", some "/src", some 3⟩,
    ⟨some "helper", none, none, none, some 5⟩])]
  distinct := by simp

example : makeInternedData [fileWith [entryEvent]] conflictTable = {
    eventNames := [⟨0,
      "2-way conflict for function ID 0000000000000000: main(); helper"⟩]
    sourceLocations := [⟨0,
      "2-way conflict for function ID 0000000000000000: /src/main.c:3; unknown",
      "2-way conflict for function ID 0000000000000000: main(); helper", none⟩] } := by
  decide +kernel

/-- A slice that begins comes from the entry of a function. -/
theorem sliceBegin_called {files : List TraceFile} {packet : TracePacket} {slice : TrackEvent}
    (listed : packet ∈ files.flatMap (filePackets trackUuid))
    (carries : packet.data = .trackEvent slice) (begins : slice.type = some .sliceBegin) :
    ∃ id, slice.nameIid = some id ∧ slice.sourceLocationIid = some id ∧ Called files id := by
  obtain ⟨file, inFiles, inFile⟩ := List.mem_flatMap.mp listed
  rcases List.mem_cons.mp inFile with rfl | made
  · simp [makePerfettoClockSnapshotTracePacket] at carries
  · obtain ⟨event, inEvents, rfl⟩ := List.mem_map.mp made
    obtain ⟨-, -, own, same, sliceOf⟩ := @carriesEvent_make trackUuid file.header event
    obtain rfl : slice = own := PacketData.trackEvent.inj (carries.symm.trans same)
    by_cases entry : event.type = 1
    · obtain ⟨-, name, location⟩ := sliceOf.entry entry
      exact ⟨event.payload1, name, location, file, inFiles, event, inEvents, .inl entry, rfl⟩
    · by_cases exit : event.type = 2
      · simp [sliceOf.exit exit] at begins
      · simp [sliceOf.other entry exit] at begins

theorem packets_resolve {files : List TraceFile} {table : SymbolsTable}
    (counted : 1 ≤ eventCount files) :
    Resolves table (makeInternedData files table)
      (spoorTraceToPerfettoTrace trackUuid files table).packet := by
  intro packet listed slice carries begins
  have interns := makeInternedData_internsCalled files table
  rw [packet_of_count table counted, List.mem_cons, List.mem_append,
    makePerfettoTrackDescriptorPackets_eq] at listed
  rcases listed with rfl | described | inFiles
  · simp [makeHeadPacket] at carries
  · obtain ⟨file, -, rfl⟩ := List.mem_map.mp described
    simp [describeTrack] at carries
  · obtain ⟨id, name, location, called⟩ := sliceBegin_called inFiles carries begins
    refine ⟨id, name, location, ?_⟩
    intro known
    exact ⟨(interns.names id).mpr ⟨known, called⟩, (interns.locations id).mpr ⟨known, called⟩⟩

/-- The trace has a head packet with the interned data of the functions that are
    called exactly when the number of events, taken to a signed 32-bit number, is
    positive. -/
theorem head_internsCalled_iff (files : List TraceFile) (table : SymbolsTable) :
    (∃ head rest interned,
      (spoorTraceToPerfettoTrace trackUuid files table).packet = head :: rest ∧
      head.internedData = some interned ∧ InternsCalled files table interned ∧
      Resolves table interned (spoorTraceToPerfettoTrace trackUuid files table).packet) ↔
      1 ≤ (totalEvents files : Int).bmod (2 ^ 32) := by
  rw [← eventCount_eq]
  constructor
  · rintro ⟨head, rest, interned, packets, -⟩
    by_contra few
    rw [(@packet_eq_nil trackUuid files table).mpr (Int.not_le.mp few)] at packets
    contradiction
  · intro counted
    exact ⟨_, _, _, packet_of_count table counted, rfl, makeInternedData_internsCalled files table,
      packets_resolve counted⟩

/-- The trace of too many events has no head packet for the function they enter. -/
theorem trace_manyEvents_no_head :
    (∃ event ∈ (fileWith manyEvents).events, event.type = 1 ∧
      event.payload1 ∈ conflictTable.keys) ∧
    ¬∃ head rest, (spoorTraceToPerfettoTrace (· + ·) [fileWith manyEvents] conflictTable).packet =
      head :: rest := by
  constructor
  · refine ⟨entryEvent, ?_, by decide, by decide⟩
    exact List.mem_replicate.mpr ⟨by decide, rfl⟩
  · rintro ⟨head, rest, packets⟩
    have few : eventCount [fileWith manyEvents] < 1 := by
      rw [eventCount_manyEvents]
      decide
    rw [packet_eq_nil.mpr few] at packets
    contradiction

end Spoor.Perfetto
