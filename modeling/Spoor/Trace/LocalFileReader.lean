import Spoor.Trace.TraceFile

/-! # Reading the header of a local file

`Read` takes a whole file and looks at its length.  `ReadHeader` asks the file
reader for as many bytes as a header has, and the reader copies that many bytes
from the stream without looking for its end.  A stream iterator may not be
dereferenced at the end: the language leaves the behaviour undefined, and where an
implementation goes on it reads some byte instead.  Both are here: `pastEnd` is
the byte, if there is one.
-/

namespace Spoor.Trace

open Lib.ByteOrder

/-- `std::copy_n` from the iterator of a stream with these bytes left. -/
def copyN (pastEnd : Option Byte) : Nat → List Byte → Option (List Byte)
  | 0, _ => some []
  | n + 1, [] => do
      let byte ← pastEnd
      let rest ← copyN pastEnd n []
      return byte :: rest
  | n + 1, byte :: stream => (copyN pastEnd n stream).map (byte :: ·)

/-- `ReadHeader` over a `LocalFileReader`, of a file with these contents or of one
    that cannot be opened.  There is no answer where the reader has none. -/
def readLocalHeader (host : Order) (pastEnd : Option Byte) :
    Option (List Byte) → Option (Except ReadError Header)
  | none => some (readHeader host none)
  | some content =>
      (copyN pastEnd headerSize content).map fun buffer => readHeader host (some buffer)

/-- What `Read` has found when it comes to the events. -/
def readHeaderStage (host : Order) (content : List Byte) : Except ReadError Header :=
  if content.length < headerSize then .error .corruptData else checkHeader host content

/-- The bytes of a short file, filled up to the size of a header. -/
def fillHeader (content : List Byte) (byte : Byte) : List Byte :=
  content ++ List.replicate (headerSize - content.length) byte

/-- The result of `ReadHeader` is what `Read` makes of the same file. -/
structure AgreesWithRead (host : Order) (snappy : Snappy) (content : List Byte)
    (result : Except ReadError Header) : Prop where
  accepts : ∀ header, result = .ok header ↔
    headerSize ≤ content.length ∧ checkHeader host (content.take headerSize) = .ok header
  sameHeader : ∀ header, result = .ok header → readHeaderStage host content = .ok header
  sameError : ∀ error, result = .error error →
    read host snappy (some content) = some (.error error)
  short : content.length < headerSize → result = .error .corruptData

theorem copyN_of_le {pastEnd : Option Byte} {n : Nat} {content : List Byte}
    (long : n ≤ content.length) : copyN pastEnd n content = some (content.take n) := by
  induction n generalizing content with
  | zero => rfl
  | succ n ih =>
      cases content with
      | nil => simp at long
      | cons byte content =>
          have rest := ih (Nat.le_of_succ_le_succ long)
          simp [copyN, rest]

theorem copyN_past_end (pastEnd : Option Byte) (n : Nat) :
    copyN pastEnd n [] = if n = 0 then some [] else pastEnd.map (List.replicate n) := by
  induction n with
  | zero => rfl
  | succ n ih =>
      cases pastEnd with
      | none => rfl
      | some byte =>
          simp only [copyN, ih]
          cases n <;> rfl

/-- A short file is filled up with what comes past the end, if anything does. -/
theorem copyN_of_lt {pastEnd : Option Byte} {n : Nat} {content : List Byte}
    (short : content.length < n) :
    copyN pastEnd n content =
      pastEnd.map fun byte => content ++ List.replicate (n - content.length) byte := by
  induction content generalizing n with
  | nil =>
      have further : n ≠ 0 := Nat.ne_of_gt short
      simp [copyN_past_end, further]
  | cons byte content ih =>
      cases n with
      | zero => simp at short
      | succ n =>
          have rest := ih (Nat.lt_of_succ_lt_succ short)
          simp [copyN, rest, Option.map_map, Function.comp_def]

/-- A header lies in the first bytes. -/
theorem decodeHeader_take (host : Order) (content : List Byte) :
    decodeHeader host (content.take headerSize) = decodeHeader host content := by
  have slices : ∀ offset length, offset + length ≤ headerSize →
      slice (content.take headerSize) offset length = slice content offset length := by
    intro offset length inside
    rw [slice, slice, List.drop_take, List.take_take, Nat.min_eq_left (by omega)]
  have bytes : ∀ offset, offset < headerSize →
      byteAt (content.take headerSize) offset = byteAt content offset := by
    intro offset inside
    simp [byteAt, List.getD, inside]
  have arrays : ∀ offset length, offset + length ≤ headerSize →
      arrayAt (content.take headerSize) offset length = arrayAt content offset length := by
    intro offset length inside
    apply Vector.ext
    intro i bound
    have here : offset + i < headerSize := by omega
    simp [arrayAt, byteAt, List.getD, List.getElem?_take, here]
  simp only [decodeHeader, headerSize] at *
  simp (disch := decide) only [slices, bytes, arrays]

theorem checkHeader_take (host : Order) (content : List Byte) :
    checkHeader host (content.take headerSize) = checkHeader host content := by
  rw [checkHeader, checkHeader, decodeHeader_take]

/-- `Read` ends with an error of its header stage or goes on with the header. -/
theorem read_eq (host : Order) (snappy : Snappy) (content : List Byte) :
    read host snappy (some content) =
      match readHeaderStage host content with
      | .error error => some (.error error)
      | .ok header => readEvents host snappy header (content.drop headerSize) := by
  simp only [read, readHeaderStage]
  split
  · rfl
  · rfl

theorem readLocalHeader_long {host : Order} {pastEnd : Option Byte} {content : List Byte}
    (long : headerSize ≤ content.length) :
    readLocalHeader host pastEnd (some content) = some (checkHeader host content) := by
  have whole : (content.take headerSize).length = headerSize := by
    rw [List.length_take, Nat.min_eq_left long]
  simp [readLocalHeader, copyN_of_le long, readHeader, whole, checkHeader_take]

theorem readLocalHeader_short {host : Order} {pastEnd : Option Byte} {content : List Byte}
    (short : content.length < headerSize) :
    readLocalHeader host pastEnd (some content) =
      pastEnd.map fun byte => checkHeader host (fillHeader content byte) := by
  have whole : ∀ byte, (fillHeader content byte).length = headerSize := by
    intro byte
    rw [fillHeader, List.length_append, List.length_replicate]
    omega
  simp only [readLocalHeader, copyN_of_lt short, Option.map_map]
  congr 1
  funext byte
  rw [Function.comp_apply, ← fillHeader, readHeader, if_neg (by simp [whole])]

theorem checkHeader_corrupt {host : Order} {buffer : List Byte} :
    checkHeader host buffer = .error .corruptData ↔
      (decodeHeader host buffer).magicNumber ≠ kMagicNumber := by
  have same : (headerToHostByteOrder host (decodeHeader host buffer)).magicNumber =
      (decodeHeader host buffer).magicNumber := by
    rw [headerToHostByteOrder]
    split <;> rfl
  rw [checkHeader, same]
  by_cases magic : (decodeHeader host buffer).magicNumber = kMagicNumber
  · simp only [magic, ne_eq, not_true_eq_false, if_false, iff_false]
    split <;> simp
  · simp [magic]

/-- A file as long as a header is read alike by both. -/
theorem agreesWithRead_long {host : Order} {snappy : Snappy} {content : List Byte}
    (long : headerSize ≤ content.length) :
    AgreesWithRead host snappy content (checkHeader host content) := by
  have stage : readHeaderStage host content = checkHeader host content :=
    if_neg (Nat.not_lt.mpr long)
  constructor
  · intro header
    rw [checkHeader_take]
    exact ⟨fun accepted => ⟨long, accepted⟩, fun accepted => accepted.2⟩
  · intro header accepted
    rw [stage, accepted]
  · intro error rejected
    rw [read_eq, stage, rejected]
  · intro short
    omega

/-- Of a shorter file both have to say that its data is corrupt. -/
theorem agreesWithRead_short {host : Order} {snappy : Snappy} {content : List Byte}
    {result : Except ReadError Header} (short : content.length < headerSize) :
    AgreesWithRead host snappy content result ↔ result = .error .corruptData := by
  constructor
  · intro agrees
    exact agrees.short short
  · rintro rfl
    constructor
    · intro header
      constructor
      · intro accepted
        cases accepted
      · intro accepted
        omega
    · intro header accepted
      cases accepted
    · intro error rejected
      cases rejected
      rw [read_eq, readHeaderStage, if_pos short]
    · exact fun _ => rfl

/-- `ReadHeader` agrees with `Read` exactly on the files that are long enough, and,
    where reading past the end gives a byte, on the short files without the magic
    number. -/
theorem readLocalHeader_agrees_iff (host : Order) (snappy : Snappy) (pastEnd : Option Byte)
    (content : List Byte) :
    (∃ result, readLocalHeader host pastEnd (some content) = some result ∧
      AgreesWithRead host snappy content result) ↔
      headerSize ≤ content.length ∨ ∃ byte, pastEnd = some byte ∧
        (decodeHeader host (fillHeader content byte)).magicNumber ≠ kMagicNumber := by
  by_cases long : headerSize ≤ content.length
  · rw [readLocalHeader_long long]
    exact iff_of_true ⟨_, rfl, agreesWithRead_long long⟩ (.inl long)
  · have short : content.length < headerSize := Nat.lt_of_not_le long
    simp only [readLocalHeader_short short, agreesWithRead_short short, long, false_or]
    simp only [exists_eq_right, Option.map_eq_some_iff, checkHeader_corrupt]

/-- The start of a header of an intact file: the magic number, byte order, strategy
    and version. -/
def truncatedHeader : List Byte := kMagicNumber.toList ++ [0, 0, 0, 0, 0, 0]

/-- A file that was cut off after the version is accepted or has no defined answer,
    while `Read` says that it is corrupt. -/
theorem readLocalHeader_truncated :
    (∀ snappy, read .little snappy (some truncatedHeader) = some (.error .corruptData)) ∧
      readLocalHeader .little none (some truncatedHeader) = none ∧
      ∃ header, readLocalHeader .little (some 0xff) (some truncatedHeader) = some (.ok header) :=
  ⟨fun _ => rfl, rfl, _, rfl⟩

end Spoor.Trace
