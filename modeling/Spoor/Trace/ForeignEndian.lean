import Spoor.Trace.RoundTrip

/-! # Files of the other byte order

A file written on a machine of the other byte order has every word of its header
and events reversed.  The reader turns them round one by one, but it widens the
type of an event to 64 bits before it does so and cuts the result to 32 bits
again, which keeps only the bytes the widening added.  The header it rebuilds
field by field lacks the compression strategy, which then reads as `kNone`.
-/

namespace Spoor.Trace

open Lib.ByteOrder

/-- The byte order `host` does not have. -/
def opposite : Order → Order
  | .little => .big
  | .big => .little

theorem ne_opposite (host : Order) : host ≠ opposite host := by
  cases host <;> decide

theorem endianByte_opposite (host : Order) : endianByte (opposite host) ≠ endianByte host := by
  cases host <;> decide

/-- The header of an uncompressed file with these events.  Identifiers, clocks and
    padding are taken from `header`. -/
def foreignHeader (host : Order) (header : Header) (events : List Event) : Header :=
  { header with
    magicNumber := kMagicNumber
    endianness := endianByte (opposite host)
    compressionStrategy := CompressionStrategy.none.byte
    version := kTraceFileVersion
    eventCount := BitVec.ofNat 32 events.length }

/-- An uncompressed file as a machine of the other byte order lays it out. -/
def foreignFile (host : Order) (header : Header) (events : List Event) : List Byte :=
  encodeHeader (opposite host) (foreignHeader host header events) ++
    encodeEvents (opposite host) events

/-- The reader turns the words of a foreign header round, and drops its strategy. -/
theorem headerToHostByteOrder_foreign {host : Order} {header : Header}
    (foreign : header.endianness = endianByte (opposite host)) (rest : List Byte) :
    headerToHostByteOrder host (decodeHeader host (encodeHeader (opposite host) header ++ rest)) =
      { header with compressionStrategy := 0 } := by
  have different : header.endianness ≠ endianByte host := foreign ▸ endianByte_opposite host
  rw [decodeHeader_append]
  simp only [headerToHostByteOrder, Header.mapWords, different, if_false, gbswap32,
    gbswap64, decode_encode_other (ne_opposite host), swap_swap (w := 32) (n := 4) rfl,
    swap_swap (w := 64) (n := 8) rfl]

theorem checkHeader_foreign {host : Order} {header : Header}
    (foreign : header.endianness = endianByte (opposite host))
    (magic : header.magicNumber = kMagicNumber) (version : header.version = kTraceFileVersion)
    (rest : List Byte) :
    checkHeader host (encodeHeader (opposite host) header ++ rest) =
      .ok { header with compressionStrategy := 0 } := by
  simp only [checkHeader, headerToHostByteOrder_foreign foreign, magic, version, ne_eq,
    not_true_eq_false, if_false]

/-- A foreign file is read by its header without the strategy. -/
theorem read_foreign_eq {host : Order} {header : Header}
    (foreign : header.endianness = endianByte (opposite host))
    (magic : header.magicNumber = kMagicNumber) (version : header.version = kTraceFileVersion)
    (snappy : Snappy) (payload : List Byte) :
    read host snappy (some (encodeHeader (opposite host) header ++ payload)) =
      readEvents host snappy { header with compressionStrategy := 0 } payload := by
  have long : ¬ (encodeHeader (opposite host) header ++ payload).length < headerSize := by simp
  have rest : (encodeHeader (opposite host) header ++ payload).drop headerSize = payload := by
    rw [← length_encodeHeader (opposite host) header, List.drop_left]
  simp only [read, if_neg long, checkHeader_foreign foreign magic version, rest]

/-- The event the reader makes of a reversed one. -/
theorem eventToHostByteOrder_foreign (host : Order) (event : Event) :
    eventToHostByteOrder host
      (event.mapWords (fun x => decode host 32 (encode (opposite host) 4 x))
        (fun x => decode host 64 (encode (opposite host) 8 x)))
      (endianByte (opposite host)) = { event with type := 0 } := by
  have foreign := endianByte_opposite host
  have lost : ∀ x : BitVec 32, (swap 8 (x.setWidth 64)).setWidth 32 = 0 :=
    setWidth_swap_setWidth (w := 32) (n := 4) rfl
  simp only [eventToHostByteOrder, Event.mapWords, foreign, if_false, gbswap32, gbswap64, lost,
    decode_encode_other (ne_opposite host), swap_swap (w := 32) (n := 4) rfl,
    swap_swap (w := 64) (n := 8) rfl]

/-- What the reader makes of a file of the other byte order. -/
theorem read_foreign (host : Order) (snappy : Snappy) (header : Header) (events : List Event) :
    read host snappy (some (foreignFile host header events)) =
      if events.length < 2 ^ 31 then
        some (.ok ⟨foreignHeader host header events, events.map fun e => { e with type := 0 }⟩)
      else some (.error .corruptData) := by
  have plain : (makeCompressor snappy .none).uncompress (encodeEvents (opposite host) events) =
      .ok (encodeEvents (opposite host) events) := rfl
  have stored : ({ foreignHeader host header events with compressionStrategy := 0 } : Header) =
      foreignHeader host header events := rfl
  have strategy : (foreignHeader host header events).compressionStrategy =
      CompressionStrategy.none.byte := rfl
  have endianness : (foreignHeader host header events).endianness = endianByte (opposite host) :=
    rfl
  have count : (foreignHeader host header events).eventCount = BitVec.ofNat 32 events.length := rfl
  rw [foreignFile, read_foreign_eq rfl rfl rfl, stored]
  by_cases countable : events.length < 2 ^ 31
  · have number : (foreignHeader host header events).eventCount.toNat = events.length := by
      rw [count, BitVec.toNat_ofNat]
      omega
    have size : (encodeEvents (opposite host) events).length =
        (foreignHeader host header events).eventCount.toNat * eventSize := by
      rw [length_encodeEvents, number]
    have turned := funext (eventToHostByteOrder_foreign host)
    rw [if_pos countable, readEvents_of_nonnegative strategy
      (count ▸ msb_ofNat_eq_false countable) plain size]
    simp only [number, endianness, decodeEvents_encodeEvents, List.map_map, Function.comp_def,
      turned]
  · have wrong : (encodeEvents (opposite host) events).length ≠
        eventsSize (foreignHeader host header events).eventCount := by
      rw [length_encodeEvents, count, ne_eq, eventsSize_eq_iff]
      exact countable
    have reserves : CompressionStrategy.none.reserves
        (eventsSize (foreignHeader host header events).eventCount) = true := rfl
    simp only [readEvents, strategy, ofByte_byte, Option.bind_eq_bind, Option.bind_some, reserves,
      Bool.not_true, Bool.false_eq_true, if_false, plain, wrong, ne_eq, not_false_eq_true, if_true,
      countable]

theorem map_type_eq_self_iff (events : List Event) :
    (events.map fun e => { e with type := 0 }) = events ↔ ∀ e ∈ events, e.type = 0 := by
  induction events with
  | nil => simp
  | cons e rest ih =>
      have first : ({ e with type := 0 } : Event) = e ↔ e.type = 0 := by
        constructor
        · intro same
          rw [← same]
        · intro zero
          rw [← zero]
      rw [List.map_cons, List.cons_eq_cons, List.forall_mem_cons, ih, first]

/-- A file of the other byte order is read as its events exactly if their number
    fits into the header and all of them have type zero. -/
theorem read_foreign_iff (host : Order) (snappy : Snappy) (header : Header)
    (events : List Event) :
    (∃ header', read host snappy (some (foreignFile host header events)) =
        some (.ok ⟨header', events⟩)) ↔
      events.length < 2 ^ 31 ∧ ∀ e ∈ events, e.type = 0 := by
  rw [read_foreign, ← map_type_eq_self_iff]
  by_cases countable : events.length < 2 ^ 31
  · simp only [countable, if_true, true_and, Option.some.injEq, Except.ok.injEq,
      TraceFile.mk.injEq, exists_and_right, exists_eq']
  · simp only [countable, if_false, false_and, Option.some.injEq, reduceCtorEq,
      exists_false]

/-- The header and the event of the reader's own test. -/
def testHeader : Header where
  magicNumber := kMagicNumber
  endianness := endianByte .big
  compressionStrategy := CompressionStrategy.none.byte
  version := kTraceFileVersion
  sessionId := 0x0011223344556677
  processId := 0x0011223344556677
  threadId := 0x0011223344556677
  systemClockTimestamp := 0x0011223344556677
  steadyClockTimestamp := 0x0011223344556677
  eventCount := 1
  padding := .replicate 4 0

def testEvent : Event := ⟨0x0011223344556677, 0x0011223344556677, 0x00112233, 0x00112233⟩

theorem foreign_event_loses_type :
    ¬ ∃ header', read .little literalSnappy (some (foreignFile .little testHeader [testEvent])) =
      some (.ok ⟨header', [testEvent]⟩) := by
  rintro ⟨header', same⟩
  rw [read_foreign, if_pos (by decide)] at same
  have lost : [{ testEvent with type := 0 }] = [testEvent] :=
    congrArg TraceFile.events (Except.ok.inj (Option.some.inj same))
  exact absurd lost (by decide)

/-- The fields of a header that do not depend on the machine that wrote it. -/
structure Header.Agrees (got header : Header) : Prop where
  compressionStrategy : got.compressionStrategy = header.compressionStrategy
  version : got.version = header.version
  sessionId : got.sessionId = header.sessionId
  processId : got.processId = header.processId
  threadId : got.threadId = header.threadId
  systemClockTimestamp : got.systemClockTimestamp = header.systemClockTimestamp
  steadyClockTimestamp : got.steadyClockTimestamp = header.steadyClockTimestamp
  eventCount : got.eventCount = header.eventCount

/-- The header as a machine of the other byte order has it. -/
def Header.abroad (host : Order) (header : Header) : Header :=
  { header with endianness := endianByte (opposite host) }

/-- A file that a machine of the other byte order lays out. -/
def foreignLayout (host : Order) (header : Header) (payload : List Byte) : List Byte :=
  encodeHeader (opposite host) (header.abroad host) ++ payload

/-- Both readers get the header of a foreign file, and `Read` goes on with the
    payload as that header says. -/
structure DecodesForeign (host : Order) (snappy : Snappy) (header : Header)
    (payload : List Byte) : Prop where
  readHeader : ∃ got, readHeader host (some ((foreignLayout host header payload).take headerSize)) =
    .ok got ∧ got.Agrees header
  read : read host snappy (some (foreignLayout host header payload)) =
    readEvents host snappy (header.abroad host) payload
  header : ∀ trace, Trace.read host snappy (some (foreignLayout host header payload)) =
    some (.ok trace) → trace.header.Agrees header

theorem readHeader_foreign (host : Order) {header : Header}
    (magic : header.magicNumber = kMagicNumber) (version : header.version = kTraceFileVersion)
    (payload : List Byte) :
    readHeader host (some ((foreignLayout host header payload).take headerSize)) =
      .ok { header.abroad host with compressionStrategy := 0 } := by
  have first : (foreignLayout host header payload).take headerSize =
      encodeHeader (opposite host) (header.abroad host) := by
    rw [foreignLayout, ← length_encodeHeader (opposite host) (header.abroad host), List.take_left]
  have checked := @checkHeader_foreign host (header.abroad host) rfl magic version []
  rw [List.append_nil] at checked
  simp only [readHeader, first, length_encodeHeader, ne_eq, not_true_eq_false, if_false, checked]

/-- A foreign header is decoded to itself exactly if its strategy is `kNone`. -/
theorem foreign_header_decodes_iff (host : Order) (snappy : Snappy) (header : Header)
    (payload : List Byte) (magic : header.magicNumber = kMagicNumber)
    (version : header.version = kTraceFileVersion) :
    DecodesForeign host snappy header payload ↔
      header.compressionStrategy = CompressionStrategy.none.byte := by
  have got := readHeader_foreign host magic version payload
  have reads : read host snappy (some (foreignLayout host header payload)) = readEvents host snappy
      { header.abroad host with compressionStrategy := 0 } payload := by
    rw [foreignLayout]
    exact @read_foreign_eq host (header.abroad host) rfl magic version snappy payload
  constructor
  · rintro ⟨⟨header', same, agrees⟩, -, -⟩
    rw [got, Except.ok.injEq] at same
    rw [← agrees.compressionStrategy, ← same]
    rfl
  · intro plain
    have kept : ({ header.abroad host with compressionStrategy := 0 } : Header) =
        header.abroad host := by
      rw [Header.abroad, plain]
      rfl
    have agrees : (header.abroad host).Agrees header := ⟨rfl, rfl, rfl, rfl, rfl, rfl, rfl, rfl⟩
    rw [kept] at got reads
    refine ⟨⟨_, got, agrees⟩, reads, ?_⟩
    intro trace succeeds
    rw [reads] at succeeds
    rw [(readEvents_ok succeeds).1]
    exact agrees

theorem foreign_header_decodes_testHeader :
    DecodesForeign .little literalSnappy testHeader [] :=
  (foreign_header_decodes_iff .little literalSnappy testHeader [] rfl rfl).mpr rfl

/-- The header of a compressed file comes back as that of an uncompressed one. -/
theorem foreign_header_loses_strategy :
    ¬ DecodesForeign .little literalSnappy
      { testHeader with compressionStrategy := CompressionStrategy.snappy.byte } [] := by
  rintro ⟨⟨got, same, agrees⟩, -, -⟩
  rw [readHeader_foreign .little rfl rfl, Except.ok.injEq] at same
  have lost := agrees.compressionStrategy
  rw [← same] at lost
  exact absurd lost (by decide)

end Spoor.Trace
