import Mathlib.Algebra.Order.Ring.Int
import Spoor.Lib.MachineInteger
import Spoor.Trace.TraceFile

/-! # Deleting flushed trace files

The files of a directory are visited one after the other.  Each of the calls that
the visit makes may fail on its own, so a directory entry carries the outcome of
each of them.  Time points are counted in nanoseconds, as the system clock's are.
-/

namespace Spoor.Runtime

open Lib.MachineInteger Trace

/-- A directory entry with what the trace reader and the file system answer when
    they are asked about its path. -/
structure DirectoryEntry (ε : Type) where
  path : String
  matchesTraceFileConvention : Bool
  readHeader : Except ReadError Header
  fileSize : Except ε Nat
  remove : Except ε Unit

structure DeletedFilesInfo where
  deletedFiles : Int
  deletedBytes : Int
  deriving Repr, DecidableEq

/-- The loop's state: the entries that it has asked to remove, and the numbers. -/
structure Deletion (ε : Type) where
  attempts : List (DirectoryEntry ε)
  info : DeletedFilesInfo

section Deletion

variable {ε : Type}

/-- The time point of the header: cast to microseconds, which rounds towards zero,
    and back to nanoseconds. -/
def headerSystemClockTimestamp (header : Header) : Int :=
  header.systemClockTimestamp.toInt.tdiv 1000 * 1000

/-- The size of the file, zero if it cannot be read. -/
def DirectoryEntry.sizeOrZero (file : DirectoryEntry ε) : Nat :=
  match file.fileSize with
  | .ok size => size
  | .error _ => 0

/-- The numbers after a file was asked to be removed. -/
def DeletedFilesInfo.count (info : DeletedFilesInfo) (file : DirectoryEntry ε) :
    DeletedFilesInfo :=
  match file.remove with
  | .ok () => ⟨incInt32 info.deletedFiles, addInt64 info.deletedBytes file.sizeOrZero⟩
  | .error _ => info

def Deletion.visit (timestamp : Int) (deletion : Deletion ε) (file : DirectoryEntry ε) :
    Deletion ε :=
  if !file.matchesTraceFileConvention then deletion
  else
    match file.readHeader with
    | .error _ => deletion
    | .ok header =>
        if timestamp ≤ headerSystemClockTimestamp header then deletion
        else ⟨deletion.attempts ++ [file], deletion.info.count file⟩

def deleteFlushedTraceFilesOlderThan (timestamp : Int) (directory : List (DirectoryEntry ε)) :
    Deletion ε :=
  directory.foldl (Deletion.visit timestamp) ⟨[], ⟨0, 0⟩⟩

/-- A trace file with a readable header that is before the time point by a clock. -/
def DirectoryEntry.isBefore (clock : Header → Int) (timestamp : Int) (file : DirectoryEntry ε) :
    Bool :=
  file.matchesTraceFileConvention &&
    match file.readHeader with
    | .ok header => clock header < timestamp
    | .error _ => false

/-- The time point of the header as it is in the file. -/
def nanoseconds (header : Header) : Int := header.systemClockTimestamp.toInt

theorem visit_eq (timestamp : Int) (deletion : Deletion ε) (file : DirectoryEntry ε) :
    deletion.visit timestamp file =
      if file.isBefore headerSystemClockTimestamp timestamp then
        ⟨deletion.attempts ++ [file], deletion.info.count file⟩
      else deletion := by
  rw [Deletion.visit, DirectoryEntry.isBefore]
  cases file.matchesTraceFileConvention with
  | false => rfl
  | true =>
      cases file.readHeader with
      | error error => rfl
      | ok header =>
          by_cases young : timestamp ≤ headerSystemClockTimestamp header
          · simp [young]
          · simp [young, not_le.mp young]

theorem foldl_visit (timestamp : Int) (directory : List (DirectoryEntry ε))
    (deletion : Deletion ε) :
    directory.foldl (Deletion.visit timestamp) deletion =
      ⟨deletion.attempts ++ directory.filter (·.isBefore headerSystemClockTimestamp timestamp),
        (directory.filter (·.isBefore headerSystemClockTimestamp timestamp)).foldl
          DeletedFilesInfo.count deletion.info⟩ := by
  induction directory generalizing deletion with
  | nil => simp
  | cons file directory ih =>
      rw [List.foldl_cons, ih, visit_eq, List.filter_cons]
      split <;> simp

/-- The files that were asked to be removed and are. -/
def Deletion.removed (deletion : Deletion ε) : List (DirectoryEntry ε) :=
  deletion.attempts.filter (·.remove.isOk)

theorem foldl_count (files : List (DirectoryEntry ε))
    (number : (files.filter (·.remove.isOk)).length < 2 ^ 31)
    (bytes : ((files.filter (·.remove.isOk)).map DirectoryEntry.sizeOrZero).sum < 2 ^ 63) :
    files.foldl DeletedFilesInfo.count ⟨0, 0⟩ =
      ⟨(files.filter (·.remove.isOk)).length,
        ((files.filter (·.remove.isOk)).map DirectoryEntry.sizeOrZero).sum⟩ := by
  induction files using List.reverseRecOn with
  | nil => rfl
  | append_singleton files file ih =>
      rw [List.foldl_concat]
      cases removed : file.remove with
      | error error =>
          have unchanged : (files ++ [file]).filter (·.remove.isOk) =
              files.filter (·.remove.isOk) := by
            simp [List.filter_append, removed, Except.isOk, Except.toBool]
          rw [unchanged] at number bytes ⊢
          rw [ih number bytes, DeletedFilesInfo.count, removed]
      | ok done =>
          have one : (files ++ [file]).filter (·.remove.isOk) =
              files.filter (·.remove.isOk) ++ [file] := by
            simp [List.filter_append, removed, Except.isOk, Except.toBool]
          rw [one] at number bytes ⊢
          simp only [List.length_append, List.length_singleton, List.map_append, List.map_cons,
            List.map_nil, List.sum_append, List.sum_singleton] at number bytes ⊢
          rw [ih (by omega) (by omega), DeletedFilesInfo.count, removed]
          simp only [Nat.cast_add, Nat.cast_one, DeletedFilesInfo.mk.injEq]
          constructor
          · exact incInt32_of_range (by omega) (by omega)
          · exact addInt64_of_range (by omega) (by omega)

/-- The files asked to be removed are those before the time point, and the numbers
    are those of the removed ones, for numbers in the counters' range. -/
structure DeletesOlder (timestamp : Int) (directory : List (DirectoryEntry ε))
    (deletion : Deletion ε) : Prop where
  attempts : deletion.attempts = directory.filter (·.isBefore nanoseconds timestamp)
  info : deletion.removed.length < 2 ^ 31 →
    (deletion.removed.map DirectoryEntry.sizeOrZero).sum < 2 ^ 63 →
    deletion.info = ⟨deletion.removed.length,
      (deletion.removed.map DirectoryEntry.sizeOrZero).sum⟩

/-- Rounding to microseconds does not move the header's time point past the other one. -/
def OnOneSide (timestamp : Int) (header : Header) : Prop :=
  (nanoseconds header).tdiv 1000 * 1000 < timestamp ↔ nanoseconds header < timestamp

instance (timestamp : Int) (header : Header) : Decidable (OnOneSide timestamp header) :=
  inferInstanceAs (Decidable (_ ↔ _))

theorem isBefore_eq_iff {timestamp : Int} {file : DirectoryEntry ε} :
    file.isBefore headerSystemClockTimestamp timestamp = file.isBefore nanoseconds timestamp ↔
      (file.matchesTraceFileConvention = true → ∀ header, file.readHeader = .ok header →
        OnOneSide timestamp header) := by
  rw [DirectoryEntry.isBefore, DirectoryEntry.isBefore]
  cases file.matchesTraceFileConvention with
  | false => simp
  | true =>
      cases file.readHeader with
      | error error => simp
      | ok header =>
          have rounded : headerSystemClockTimestamp header =
              (nanoseconds header).tdiv 1000 * 1000 := rfl
          simp [OnOneSide, rounded]

theorem filter_eq_filter_iff {α : Type} {values : List α} {keep keep' : α → Bool} :
    values.filter keep = values.filter keep' ↔ ∀ value ∈ values, keep value = keep' value := by
  constructor
  · intro same value listed
    have members : value ∈ values.filter keep ↔ value ∈ values.filter keep' := by rw [same]
    apply Bool.eq_iff_iff.mpr
    simpa [listed] using members
  · exact List.filter_congr

/-- The old files are deleted, and no others, exactly if the rounding moves no
    header's time point past the other one. -/
theorem deleteFlushedTraceFilesOlderThan_iff (timestamp : Int)
    (directory : List (DirectoryEntry ε)) :
    DeletesOlder timestamp directory (deleteFlushedTraceFilesOlderThan timestamp directory) ↔
      ∀ file ∈ directory, file.matchesTraceFileConvention = true →
        ∀ header, file.readHeader = .ok header → OnOneSide timestamp header := by
  have deletion := foldl_visit timestamp directory ⟨[], ⟨0, 0⟩⟩
  have selected : DeletesOlder timestamp directory
      (deleteFlushedTraceFilesOlderThan timestamp directory) ↔
        directory.filter (·.isBefore headerSystemClockTimestamp timestamp) =
          directory.filter (·.isBefore nanoseconds timestamp) := by
    rw [deleteFlushedTraceFilesOlderThan, deletion]
    constructor
    · exact DeletesOlder.attempts
    · intro same
      exact ⟨same, foldl_count _⟩
  rw [selected, filter_eq_filter_iff]
  exact forall₂_congr fun file _ => isBefore_eq_iff

/-- A trace file with this time point that can be removed. -/
def traceFileAt (nanoseconds : BitVec 64) : DirectoryEntry Unit where
  path := "0.spoor_trace"
  matchesTraceFileConvention := true
  readHeader :=
    .ok ⟨kMagicNumber, 0, 0, kTraceFileVersion, 0, 0, 0, nanoseconds, 0, 0, .replicate 4 0⟩
  fileSize := .ok 1
  remove := .ok ()

/-- A file that is 300 nanoseconds younger than the time point is deleted. -/
theorem youngFile_deleted :
    ¬DeletesOlder 1200 [traceFileAt 1500]
      (deleteFlushedTraceFilesOlderThan 1200 [traceFileAt 1500]) := by
  intro deletes
  have attempted :
      (deleteFlushedTraceFilesOlderThan 1200 [traceFileAt 1500]).attempts.length = 1 := by
    decide
  rw [deletes.attempts] at attempted
  exact absurd attempted (by decide)

end Deletion

end Spoor.Runtime
