import Spoor.Lib.Nesting
import Spoor.Lib.Transition
import Spoor.Perfetto.InternedData

/-! # What a viewer shows of a trace

A viewer takes the packets in their order.  It keeps the names that were interned and,
on a track, the slices that are open.  The packet of an end does not say which slice
ends: it is the innermost open one.  So a track shows the calls of its thread only if
the entries and exits on it nest.
-/

namespace Spoor.Perfetto

open Lib.Nesting Lib.Transition Trace

/-! ## The viewer -/

/-- The interned names, and the names of the open slices of one track, the innermost
    first. -/
structure View where
  names : List EventName
  opened : List String
  deriving Repr, DecidableEq

/-- The name that was interned with an id. -/
def nameOf? (names : List EventName) (iid : BitVec 64) : Option String :=
  (names.find? fun name => name.iid = iid).map EventName.name

def View.intern (view : View) (packet : TracePacket) : View :=
  let kept := if packet.sequenceFlags = some .incrementalStateCleared then [] else view.names
  { view with names := kept ++ (packet.internedData.map InternedData.eventNames).getD [] }

/-- A slice without a name cannot be shown, and an end without a slice neither. -/
def View.move (view : View) (track : BitVec 64) (event : TrackEvent) : Option View :=
  if event.trackUuid ≠ track then some view
  else
    match event.type with
    | some .sliceBegin => do
        let iid ← event.nameIid
        let name ← nameOf? view.names iid
        return { view with opened := name :: view.opened }
    | some .sliceEnd =>
        match view.opened with
        | [] => none
        | _ :: outer => some { view with opened := outer }
    | none => some view

def watch (track : BitVec 64) (view : View) (packet : TracePacket) : Option View :=
  match packet.data with
  | .trackEvent event => (view.intern packet).move track event
  | _ => some (view.intern packet)

/-! ## The brackets of a track -/

def eventBracket? (event : Event) : Option (Bracket FunctionId) :=
  if event.type = kFunctionEntry then some (.enter event.payload1)
  else if event.type = kFunctionExit then some (.exit event.payload1)
  else none

section Track

variable {trackUuid : BitVec 64 → BitVec 64 → BitVec 64} {track : BitVec 64}

/-- The entries and exits of a file if it belongs to the track. -/
def fileBrackets (trackUuid : BitVec 64 → BitVec 64 → BitVec 64) (track : BitVec 64)
    (file : TraceFile) : List (Bracket FunctionId) :=
  if trackOf trackUuid file = track then file.events.filterMap eventBracket? else []

/-- The entries and exits on a track, in the order of the files. -/
def bracketsOn (trackUuid : BitVec 64 → BitVec 64 → BitVec 64) (track : BitVec 64)
    (files : List TraceFile) : List (Bracket FunctionId) :=
  files.flatMap (fileBrackets trackUuid track)

variable {names : List EventName} {text : FunctionId → String}

/-- A packet that neither clears nor interns names leaves them. -/
theorem View.intern_plain (view : View) {packet : TracePacket}
    (keeps : packet.sequenceFlags ≠ some .incrementalStateCleared)
    (interns : packet.internedData = none) : view.intern packet = view := by
  simp [View.intern, keeps, interns]

/-- The packet of an event on the track moves the open slices as its bracket does. -/
theorem watch_event {header : Header} (event : Event) {opened opened' : List FunctionId}
    (here : trackUuid header.processId header.threadId = track)
    (known : ∀ id, eventBracket? event = some (.enter id) → nameOf? names id = some (text id))
    (replayed : replay opened (eventBracket? event).toList = some opened') :
    watch track ⟨names, opened.map text⟩
        (makePerfettoTrackEventTracePacket trackUuid header event) =
      some ⟨names, opened'.map text⟩ := by
  have plain : ∀ view : View, view.intern
      (makePerfettoTrackEventTracePacket trackUuid header event) = view := fun view =>
    view.intern_plain (by simp [makePerfettoTrackEventTracePacket]) rfl
  by_cases entry : event.type = kFunctionEntry
  · have bracket : eventBracket? event = some (.enter event.payload1) := if_pos entry
    rw [bracket] at replayed
    obtain rfl : event.payload1 :: opened = opened' := by simpa using replayed
    have data : (makePerfettoTrackEventTracePacket trackUuid header event).data = .trackEvent
        ⟨track, some .sliceBegin, some event.payload1, some event.payload1⟩ := by
      simp [makePerfettoTrackEventTracePacket, entry, here]
    simp [watch, data, plain, View.move, known _ bracket]
  · by_cases exit : event.type = kFunctionExit
    · have bracket : eventBracket? event = some (.exit event.payload1) := by
        rw [eventBracket?, if_neg entry, if_pos exit]
      rw [bracket] at replayed
      obtain ⟨outer, rfl, rest⟩ := replay_exit_eq_some replayed
      obtain rfl : outer = opened' := by simpa using rest
      have data : (makePerfettoTrackEventTracePacket trackUuid header event).data = .trackEvent
          ⟨track, some .sliceEnd, none, none⟩ := by
        simp only [makePerfettoTrackEventTracePacket, if_neg entry, if_pos exit, here]
      simp [watch, data, plain, View.move]
    · have bracket : eventBracket? event = none := by
        rw [eventBracket?, if_neg entry, if_neg exit]
      rw [bracket] at replayed
      obtain rfl : opened = opened' := by simpa using replayed
      have data : (makePerfettoTrackEventTracePacket trackUuid header event).data = .trackEvent
          ⟨track, none, none, none⟩ := by
        simp [makePerfettoTrackEventTracePacket, entry, exit, here]
      simp [watch, data, plain, View.move]

/-- An event on another track moves nothing. -/
theorem watch_elsewhere {header : Header} (event : Event) (view : View)
    (elsewhere : trackUuid header.processId header.threadId ≠ track) :
    watch track view (makePerfettoTrackEventTracePacket trackUuid header event) = some view := by
  have plain : view.intern (makePerfettoTrackEventTracePacket trackUuid header event) = view :=
    view.intern_plain (by simp [makePerfettoTrackEventTracePacket]) rfl
  obtain ⟨slice, data, uuid⟩ : ∃ slice,
      (makePerfettoTrackEventTracePacket trackUuid header event).data = .trackEvent slice ∧
        slice.trackUuid = trackUuid header.processId header.threadId := by
    obtain ⟨-, -, slice, data, sliceOf⟩ := @carriesEvent_make trackUuid header event
    exact ⟨slice, data, sliceOf.track⟩
  simp [watch, data, plain, View.move, uuid, elsewhere]

theorem exec_watch_events {header : Header}
    (here : trackUuid header.processId header.threadId = track) {events : List Event}
    {opened opened' : List FunctionId}
    (known : ∀ id, .enter id ∈ events.filterMap eventBracket? → nameOf? names id = some (text id))
    (replayed : replay opened (events.filterMap eventBracket?) = some opened') :
    exec (watch track) ⟨names, opened.map text⟩
        (events.map (makePerfettoTrackEventTracePacket trackUuid header)) =
      some ⟨names, opened'.map text⟩ := by
  induction events generalizing opened with
  | nil =>
      obtain rfl : opened = opened' := by simpa using replayed
      rfl
  | cons event events ih =>
      have split : (event :: events).filterMap eventBracket? =
          (eventBracket? event).toList ++ events.filterMap eventBracket? := by
        cases bracket : eventBracket? event <;> simp [bracket]
      rw [split] at known replayed
      obtain ⟨between, first, rest⟩ := Option.bind_eq_some_iff.mp
        ((replay_append _ _ _).symm.trans replayed)
      have shown : watch track ⟨names, opened.map text⟩
          (makePerfettoTrackEventTracePacket trackUuid header event) =
          some ⟨names, between.map text⟩ :=
        watch_event event here (fun id bracket => known id (by simp [bracket])) first
      rw [List.map_cons, exec_cons, shown, Option.bind_some]
      exact ih (fun id member => known id (List.mem_append_right _ member)) rest

theorem exec_watch_file {file : TraceFile} {opened opened' : List FunctionId}
    (known : ∀ id, .enter id ∈ fileBrackets trackUuid track file →
      nameOf? names id = some (text id))
    (replayed : replay opened (fileBrackets trackUuid track file) = some opened') :
    exec (watch track) ⟨names, opened.map text⟩ (filePackets trackUuid file) =
      some ⟨names, opened'.map text⟩ := by
  have clocks : ∀ view : View,
      watch track view (makePerfettoClockSnapshotTracePacket file.header) = some view := fun view =>
    congrArg some (view.intern_plain (by simp [makePerfettoClockSnapshotTracePacket]) rfl)
  rw [filePackets, exec_cons, clocks, Option.bind_some]
  by_cases here : trackOf trackUuid file = track
  · rw [fileBrackets, if_pos here] at known replayed
    exact exec_watch_events here known replayed
  · rw [fileBrackets, if_neg here] at replayed
    obtain rfl : opened = opened' := by simpa using replayed
    induction file.events with
    | nil => rfl
    | cons event events ih =>
        rw [List.map_cons, exec_cons, watch_elsewhere event _ here, Option.bind_some]
        exact ih

theorem exec_watch_files {files : List TraceFile} {opened opened' : List FunctionId}
    (known : ∀ id, .enter id ∈ bracketsOn trackUuid track files → nameOf? names id = some (text id))
    (replayed : replay opened (bracketsOn trackUuid track files) = some opened') :
    exec (watch track) ⟨names, opened.map text⟩ (files.flatMap (filePackets trackUuid)) =
      some ⟨names, opened'.map text⟩ := by
  induction files generalizing opened with
  | nil =>
      obtain rfl : opened = opened' := by simpa [bracketsOn] using replayed
      rfl
  | cons file files ih =>
      rw [bracketsOn, List.flatMap_cons] at known replayed
      obtain ⟨between, first, rest⟩ := Option.bind_eq_some_iff.mp
        ((replay_append _ _ _).symm.trans replayed)
      rw [List.flatMap_cons, exec_append,
        exec_watch_file (fun id member => known id (List.mem_append_left _ member)) first,
        Option.bind_some]
      exact ih (fun id member => known id (List.mem_append_right _ member)) rest

/-! ## The whole trace -/

theorem watch_head (view : View) (files : List TraceFile) (table : SymbolsTable) :
    watch track view (makeHeadPacket files table) =
      some ⟨(makeInternedData files table).eventNames, view.opened⟩ := by
  simp [watch, makeHeadPacket, View.intern]

theorem exec_watch_descriptors (view : View) (files : List TraceFile) :
    exec (watch track) view (makePerfettoTrackDescriptorPackets trackUuid files) = some view := by
  rw [makePerfettoTrackDescriptorPackets_eq]
  induction files with
  | nil => rfl
  | cons file files ih =>
      have same : watch track view (describeTrack trackUuid file) = some view :=
        congrArg some (view.intern_plain (by simp [describeTrack]) rfl)
      rw [List.map_cons, exec_cons, same, Option.bind_some, ih]

/-- A called function of the table is interned with its name. -/
theorem nameOf?_interned {files : List TraceFile} {table : SymbolsTable} {id : FunctionId}
    {infos : List SpoorFunctionInfo} (listed : (id, infos) ∈ table.entries)
    (called : Called files id) :
    nameOf? (makeInternedData files table).eventNames id = some (makeFunctionName id infos) := by
  have entry : (id, infos) ∈ calledEntries files table :=
    List.mem_filter.mpr ⟨listed, decide_eq_true (mem_calledFunctionIds.mpr called)⟩
  have unique := calledEntries_nodup files table
  rw [makeInternedData_eq, nameOf?]
  generalize calledEntries files table = entries at entry unique
  induction entries with
  | nil => cases entry
  | cons other entries ih =>
      rw [List.map_cons, List.nodup_cons] at unique
      by_cases same : other.1 = id
      · have first : (id, infos) = other := by
          rcases List.mem_cons.mp entry with first | later
          · exact first
          · exact absurd (same ▸ List.mem_map_of_mem later) unique.1
        simp [← first, makeEventName]
      · have later : (id, infos) ∈ entries := by
          rcases List.mem_cons.mp entry with rfl | later
          · exact absurd rfl same
          · exact later
        simpa [makeEventName, same] using ih later unique.2

theorem called_of_bracket {files : List TraceFile} {id : FunctionId}
    (listed : .enter id ∈ bracketsOn trackUuid track files) : Called files id := by
  obtain ⟨file, inFiles, inFile⟩ := List.mem_flatMap.mp listed
  rw [fileBrackets] at inFile
  split at inFile
  · obtain ⟨event, inEvents, bracket⟩ := List.mem_filterMap.mp inFile
    rw [eventBracket?] at bracket
    split at bracket
    case isTrue entry =>
      exact ⟨file, inFiles, event, inEvents, .inl entry, by simpa using bracket⟩
    case isFalse => split at bracket <;> simp at bracket
  · cases inFile

/-- A viewer of a trace goes through the calls on the track, if they nest and each
    entered function has a name. -/
theorem exec_watch_trace {files : List TraceFile} {table : SymbolsTable}
    {opened opened' : List FunctionId} (bounded : totalEvents files < 2 ^ 31)
    (known : ∀ id, .enter id ∈ bracketsOn trackUuid track files →
      ∃ infos, (id, infos) ∈ table.entries ∧ makeFunctionName id infos = text id)
    (replayed : replay opened (bracketsOn trackUuid track files) = some opened') :
    ∃ names, exec (watch track) ⟨[], opened.map text⟩
        (spoorTraceToPerfettoTrace trackUuid files table).packet =
      some ⟨names, opened'.map text⟩ := by
  by_cases counted : 1 ≤ eventCount files
  · refine ⟨(makeInternedData files table).eventNames, ?_⟩
    rw [packet_of_count table counted, exec_cons, watch_head, Option.bind_some, exec_append,
      exec_watch_descriptors, Option.bind_some]
    refine exec_watch_files ?_ replayed
    intro id listed
    obtain ⟨infos, inTable, same⟩ := known id listed
    rw [nameOf?_interned inTable (called_of_bracket listed), same]
  · have nothing : totalEvents files = 0 := by
      rw [eventCount_of_lt bounded] at counted
      omega
    have silent : bracketsOn trackUuid track files = [] := by
      rw [bracketsOn, List.flatMap_eq_nil_iff]
      intro file inFiles
      rw [fileBrackets, totalEvents_eq_zero.mp nothing file inFiles]
      exact ite_self _
    rw [silent] at replayed
    obtain rfl : opened = opened' := by simpa using replayed
    rw [packet_eq_nil.mpr (Int.not_le.mp counted)]
    exact ⟨[], rfl⟩

end Track

end Spoor.Perfetto
