import Spoor.Trace.ForeignEndian

/-! # Reading arbitrary bytes

Every byte of a file is under nobody's control.  `Read` checks the magic number
and the version, but the strategy byte goes into a switch that returns nothing
for an unknown one, and the count of events, which is signed, is multiplied as
an unsigned number and reserved for before anything is compared with it.

`readCalls` lists the operations among these that a run of `Read` carries out.
-/

namespace Spoor.Trace

open Lib.ByteOrder

/-- The operations of `Read` whose operands come from the header unchecked. -/
inductive ReadCall where
  /-- `event_count * sizeof(Event)`. -/
  | multiply (eventCount : BitVec 32)
  /-- `MakeCompressor` with the stored strategy. -/
  | makeCompressor (strategy : Byte)
  /-- The reservation in the constructor of `SnappyCompressor`. -/
  | reserveBuffer (eventCount : BitVec 32)
  /-- `events.reserve(event_count)`. -/
  | reserveEvents (eventCount : BitVec 32)
  deriving DecidableEq

/-- The operation is defined and throws nothing. -/
def ReadCall.Answered : ReadCall → Prop
  | .multiply _ => True
  | .makeCompressor strategy => ∃ known, CompressionStrategy.ofByte strategy = some known
  | .reserveBuffer eventCount => eventsSize eventCount ≤ stringMaxSize
  | .reserveEvents eventCount => (eventCount.signExtend 64).toNat ≤ eventsMaxSize

/-- The strategy is one of the enumeration, and the unsigned number computed from
    the count is the one the count stands for. -/
def ReadCall.Sound : ReadCall → Prop
  | .multiply eventCount | .reserveBuffer eventCount =>
      (eventsSize eventCount : Int) = eventCount.toInt * eventSize
  | .makeCompressor strategy => ∃ known : CompressionStrategy, strategy = known.byte
  | .reserveEvents eventCount => ((eventCount.signExtend 64).toNat : Int) = eventCount.toInt

/-- The operations of `readEvents`. -/
def readEventsCalls (snappy : Snappy) (header : Header) (payload : List Byte) : List ReadCall :=
  .multiply header.eventCount :: .makeCompressor header.compressionStrategy ::
    match CompressionStrategy.ofByte header.compressionStrategy with
    | none => []
    | some strategy =>
        (if strategy = .snappy then [.reserveBuffer header.eventCount] else []) ++
          if !strategy.reserves (eventsSize header.eventCount) then []
          else
            match (makeCompressor snappy strategy).uncompress payload with
            | .error _ => []
            | .ok data =>
                .multiply header.eventCount ::
                  if data.length ≠ eventsSize header.eventCount then []
                  else [.reserveEvents header.eventCount]

/-- The operations of `read`. -/
def readCalls (host : Order) (snappy : Snappy) : Option (List Byte) → List ReadCall
  | none => []
  | some buffer =>
      if buffer.length < headerSize then []
      else
        match checkHeader host buffer with
        | .error _ => []
        | .ok header => readEventsCalls snappy header (buffer.drop headerSize)

/-- `Read` fails to answer exactly where one of its operations does. -/
theorem readEvents_eq_none_iff (host : Order) (snappy : Snappy) (header : Header)
    (payload : List Byte) :
    readEvents host snappy header payload = none ↔
      ∃ call ∈ readEventsCalls snappy header payload, ¬ call.Answered := by
  cases known : CompressionStrategy.ofByte header.compressionStrategy with
  | none => simp [readEvents, readEventsCalls, known, ReadCall.Answered]
  | some strategy =>
      by_cases reserves : strategy.reserves (eventsSize header.eventCount) = true
      · have buffered : strategy = .snappy → eventsSize header.eventCount ≤ stringMaxSize := by
          rintro rfl
          simpa [CompressionStrategy.reserves] using reserves
        cases uncompresses : (makeCompressor snappy strategy).uncompress payload with
        | error error =>
            cases strategy <;>
              simp_all [readEvents, readEventsCalls, ReadCall.Answered]
        | ok data =>
            by_cases exact : data.length = eventsSize header.eventCount
            · cases strategy <;>
                simp_all [readEvents, readEventsCalls, ReadCall.Answered]
            · cases strategy <;>
                simp_all [readEvents, readEventsCalls, ReadCall.Answered]
      · cases strategy with
        | none => simp [CompressionStrategy.reserves] at reserves
        | snappy =>
            have beyond : ¬ eventsSize header.eventCount ≤ stringMaxSize := by
              simpa [CompressionStrategy.reserves] using reserves
            simp [readEvents, readEventsCalls, known, reserves, ReadCall.Answered, beyond]

theorem msb_eq_false_iff (count : BitVec 32) : count.msb = false ↔ 0 ≤ count.toInt := by
  rw [BitVec.msb_eq_toInt, decide_eq_false_iff_not, Int.not_lt]

theorem toInt_of_nonnegative {count : BitVec 32} (nonnegative : 0 ≤ count.toInt) :
    count.toInt = count.toNat :=
  BitVec.toInt_eq_toNat_of_msb ((msb_eq_false_iff count).mpr nonnegative)

/-- The product with the size of an event is right exactly for counts that are not
    negative. -/
theorem sound_multiply_iff (count : BitVec 32) :
    (ReadCall.multiply count).Sound ↔ 0 ≤ count.toInt := by
  constructor
  · intro sound
    have product : (eventsSize count : Int) = count.toInt * 24 := sound
    omega
  · intro nonnegative
    rw [ReadCall.Sound, eventsSize_of_nonnegative ((msb_eq_false_iff count).mpr nonnegative),
      toInt_of_nonnegative nonnegative, Int.natCast_mul]

theorem sound_reserveEvents {count : BitVec 32} (nonnegative : 0 ≤ count.toInt) :
    (ReadCall.reserveEvents count).Sound := by
  have extended := (reserves_of_nonnegative ((msb_eq_false_iff count).mpr nonnegative) .none).2.1
  rw [ReadCall.Sound, extended, toInt_of_nonnegative nonnegative]

/-- All operations are about the strategy and the count of the header. -/
theorem mem_readEventsCalls {snappy : Snappy} {header : Header} {payload : List Byte}
    {call : ReadCall} (member : call ∈ readEventsCalls snappy header payload) :
    call = .multiply header.eventCount ∨ call = .makeCompressor header.compressionStrategy ∨
      call = .reserveBuffer header.eventCount ∨ call = .reserveEvents header.eventCount := by
  rw [readEventsCalls, List.mem_cons, List.mem_cons] at member
  rcases member with rfl | rfl | member
  · exact .inl rfl
  · exact .inr (.inl rfl)
  · split at member
    · cases member
    · rcases List.mem_append.mp member with member | member
      · split at member
        · exact .inr (.inr (.inl (List.mem_singleton.mp member)))
        · cases member
      · split at member
        · cases member
        · split at member
          · cases member
          · rcases List.mem_cons.mp member with rfl | member
            · exact .inl rfl
            · split at member
              · cases member
              · exact .inr (.inr (.inr (List.mem_singleton.mp member)))

section

variable {host : Order} {snappy : Snappy} {header : Header} {payload : List Byte}
  {strategy : CompressionStrategy}

/-- Operations on a known strategy and a count that is not negative are sound. -/
theorem readEventsCalls_sound (known : header.compressionStrategy = strategy.byte)
    (nonnegative : 0 ≤ header.eventCount.toInt) :
    ∀ call ∈ readEventsCalls snappy header payload, call.Sound := by
  have multiplies := (sound_multiply_iff header.eventCount).mpr nonnegative
  intro call member
  rcases mem_readEventsCalls member with rfl | rfl | rfl | rfl
  · exact multiplies
  · exact ⟨strategy, known⟩
  · exact multiplies
  · exact sound_reserveEvents nonnegative

/-- Operations on a known strategy and a count that is not negative are answered. -/
theorem readEvents_answers (known : header.compressionStrategy = strategy.byte)
    (nonnegative : 0 ≤ header.eventCount.toInt) :
    ∃ result, readEvents host snappy header payload = some result := by
  obtain ⟨buffered, -, room⟩ :=
    reserves_of_nonnegative ((msb_eq_false_iff _).mpr nonnegative) .snappy
  refine Option.ne_none_iff_exists'.mp ?_
  rw [ne_eq, readEvents_eq_none_iff]
  rintro ⟨call, member, unanswered⟩
  refine unanswered ?_
  rcases mem_readEventsCalls member with rfl | rfl | rfl | rfl
  · exact trivial
  · exact ⟨strategy, by rw [known, ofByte_byte]⟩
  · simpa [ReadCall.Answered, CompressionStrategy.reserves] using buffered
  · exact Nat.le_of_not_lt room

end

/-- `Read` of these bytes answers, a file it accepts has as many events as its
    header says, and no operation on the way has an unknown strategy or a number
    that wrapped. -/
structure SafelyRead (host : Order) (snappy : Snappy) (file : List Byte) : Prop where
  answers : ∃ result, read host snappy (some file) = some result
  counted : ∀ trace, read host snappy (some file) = some (.ok trace) →
    0 ≤ trace.header.eventCount.toInt ∧
      (trace.events.length : Int) = trace.header.eventCount.toInt
  calls : ∀ call ∈ readCalls host snappy (some file), call.Sound

/-- Bytes are read safely exactly if they are not accepted as a header, or the
    header has a known strategy and a count that is not negative. -/
theorem safely_read_iff (host : Order) (snappy : Snappy) (file : List Byte) :
    SafelyRead host snappy file ↔
      (headerSize ≤ file.length → ∀ header, checkHeader host file = .ok header →
        (∃ strategy : CompressionStrategy, header.compressionStrategy = strategy.byte) ∧
          0 ≤ header.eventCount.toInt) := by
  by_cases short : file.length < headerSize
  · have never : ¬ headerSize ≤ file.length := by omega
    simp only [never, false_implies, iff_true]
    constructor <;> simp [read, readCalls, short]
  · have long : headerSize ≤ file.length := by omega
    simp only [long, true_implies]
    cases checked : checkHeader host file with
    | error error =>
        simp only [reduceCtorEq, false_implies, implies_true, iff_true]
        constructor <;> simp [read, readCalls, short, checked]
    | ok header =>
        have reads : read host snappy (some file) =
            readEvents host snappy header (file.drop headerSize) := by
          simp [read, short, checked]
        have calls : readCalls host snappy (some file) =
            readEventsCalls snappy header (file.drop headerSize) := by
          simp [readCalls, short, checked]
        constructor
        · rintro ⟨-, -, sound⟩ header' same
          obtain rfl : header = header' := by simpa using same
          rw [calls] at sound
          refine ⟨sound (.makeCompressor header.compressionStrategy) ?_, ?_⟩
          · simp [readEventsCalls]
          · rw [← sound_multiply_iff]
            exact sound _ (by simp [readEventsCalls])
        · intro condition
          obtain ⟨⟨strategy, known⟩, nonnegative⟩ := condition header rfl
          refine ⟨reads ▸ readEvents_answers known nonnegative, ?_, ?_⟩
          · intro trace succeeds
            rw [reads] at succeeds
            obtain ⟨same, length⟩ := readEvents_ok succeeds
            rw [same, length, toInt_of_nonnegative nonnegative]
            exact ⟨Int.natCast_nonneg _, rfl⟩
          · rw [calls]
            exact readEventsCalls_sound known nonnegative

/-- A header of a little-endian machine with this strategy byte and this count. -/
def ownHeader (strategy : Byte) (eventCount : BitVec 32) : Header :=
  { testHeader with
    endianness := endianByte .little
    compressionStrategy := strategy
    eventCount := eventCount }

theorem checkHeader_ownHeader (strategy : Byte) (eventCount : BitVec 32) :
    checkHeader .little (encodeHeader .little (ownHeader strategy eventCount)) =
      .ok (ownHeader strategy eventCount) := by
  have decoded := decodeHeader_append .little .little (ownHeader strategy eventCount) []
  rw [List.append_nil, Header.mapWords_self] at decoded
  rw [checkHeader, decoded]
  rfl

theorem readCalls_ownHeader (snappy : Snappy) (strategy : Byte) (eventCount : BitVec 32) :
    .multiply eventCount ∈ readCalls .little snappy
        (some (encodeHeader .little (ownHeader strategy eventCount))) ∧
      .makeCompressor strategy ∈ readCalls .little snappy
        (some (encodeHeader .little (ownHeader strategy eventCount))) := by
  have long : ¬ (encodeHeader .little (ownHeader strategy eventCount)).length < headerSize := by
    simp
  simp only [readCalls, if_neg long, checkHeader_ownHeader]
  exact ⟨List.mem_cons_self, List.mem_cons_of_mem _ List.mem_cons_self⟩

/-- An unknown strategy, and a negative count under either strategy: none of these
    headers is read safely. -/
theorem corrupt_headers_read_unsafely :
    ¬ SafelyRead .little literalSnappy (encodeHeader .little (ownHeader 2 0)) ∧
      ¬ SafelyRead .little literalSnappy (encodeHeader .little (ownHeader 0 (-1))) ∧
      ¬ SafelyRead .little literalSnappy (encodeHeader .little (ownHeader 1 (-1))) := by
  have negative : ∀ strategy,
      ¬ SafelyRead .little literalSnappy (encodeHeader .little (ownHeader strategy (-1))) := by
    rintro strategy ⟨-, -, sound⟩
    have product := sound _ (readCalls_ownHeader literalSnappy strategy (-1)).1
    exact absurd ((sound_multiply_iff (-1)).mp product) (by decide)
  refine ⟨?_, negative 0, negative 1⟩
  rintro ⟨-, -, sound⟩
  obtain ⟨strategy, same⟩ := sound _ (readCalls_ownHeader literalSnappy 2 0).2
  cases strategy <;> exact absurd same (by decide)

end Spoor.Trace
