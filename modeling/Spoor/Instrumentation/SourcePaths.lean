import Mathlib.Data.List.Basic
import Spoor.Instrumentation.InjectInstrumentation
import Spoor.Lib.Path

/-! # The source paths in the symbols table

Debug info names a file by a directory and a file name, which is absolute or
relative to the directory.  The pass records a file name relative to the directory:
it drops the directory and one more character whenever the text of the file name
starts with the text of the directory.  Here it is shown when the two recorded
texts still name the file.
-/

namespace Spoor.Instrumentation

open Lib.Path

/-- The path of the file that debug info is about. -/
def denotedPath (info : Subprogram) : String :=
  if IsAbsolute info.filename.toList then info.filename
  else joinPaths info.directory info.filename

/-- What is recorded names the file of the debug info, and a file outside of the
    directory keeps its name. -/
structure RecordsFile (info : Subprogram) (recorded : String) : Prop where
  sameFile : SameFile (joinPaths info.directory recorded).toList (denotedPath info).toList
  unchanged : ¬Under info.directory.toList (denotedPath info).toList → recorded = info.filename

/-- What has to be left when the directory and one more character are dropped: a
    name.  Where the rest is relative, the character is a separator, and the
    directory is absolute or a dot.  Where the rest is absolute, only separators and
    dots were dropped after the root. -/
def CleanRest (directory : Text) (cut : Char) (rest : Text) : Prop :=
  names rest ≠ [] ∧
    if IsAbsolute rest then IsAbsolute directory ∧ names (directory ++ [cut]) = []
    else cut = separator ∧ (IsAbsolute directory ∨ names directory = [])

instance (directory : Text) (cut : Char) (rest : Text) :
    Decidable (CleanRest directory cut rest) :=
  inferInstanceAs (Decidable (names rest ≠ [] ∧
    if IsAbsolute rest then IsAbsolute directory ∧ names (directory ++ [cut]) = []
    else cut = separator ∧ (IsAbsolute directory ∨ names directory = [])))

/-- If the file name starts with the directory, then it goes on with a clean rest. -/
def CleanCut (directory file : Text) : Prop :=
  directory <+: file → ∃ cut rest, file = directory ++ cut :: rest ∧ CleanRest directory cut rest

theorem joinPaths_toList (left right : String) :
    (joinPaths left right).toList = join left.toList right.toList := by
  simp only [joinPaths, join, IsAbsolute, separator, String.toList_eq_nil_iff]
  split
  · rfl
  · split <;> simp

theorem denotedPath_toList (info : Subprogram) :
    (denotedPath info).toList = join info.directory.toList info.filename.toList := by
  rw [denotedPath]
  split
  case isTrue absolute => rw [join, if_pos absolute]
  case isFalse relative => exact joinPaths_toList _ _

/-! ## What is recorded -/

section Recorded

variable {info : Subprogram} (someDirectory : info.directory ≠ "") (someFile : info.filename ≠ "")

include someDirectory someFile

theorem fileName_of_not_prefix (other : ¬info.directory.toList <+: info.filename.toList) :
    fileName (some info) = some (some info.filename) := by
  simp [fileName, directory, someDirectory, someFile, other]

theorem fileName_of_cut {cut : Char} {rest : Text}
    (shape : info.filename.toList = info.directory.toList ++ cut :: rest) :
    fileName (some info) = some (some (String.ofList rest)) := by
  have length : info.directory.length + 1 ≤ info.filename.length := by
    rw [← String.length_toList, ← String.length_toList, shape]
    simp
  have dropped : info.filename.toList.drop (info.directory.length + 1) = rest := by
    rw [shape, ← String.length_toList]
    simp
  have starts : info.directory.toList <+: info.filename.toList := ⟨cut :: rest, shape.symm⟩
  simp [fileName, directory, someDirectory, someFile, starts, substr, length, dropped]

omit someFile in
theorem fileName_of_eq (same : info.filename = info.directory) : fileName (some info) = none := by
  simp [fileName, directory, someDirectory, substr, same]

end Recorded

/-! ## When the cut is clean -/

/-- A rest that is relative names the file exactly when a separator was dropped and
    no name of a relative directory. -/
theorem sameFile_relative {directory rest : Text} {cut : Char} (someDirectory : directory ≠ [])
    (relative : ¬IsAbsolute rest) (further : names rest ≠ []) :
    SameFile (join directory rest) (join directory (directory ++ cut :: rest)) ↔
      cut = separator ∧ (IsAbsolute directory ∨ names directory = []) := by
  have starts := isAbsolute_append (cut :: rest) someDirectory
  rw [sameFile_iff, names_join relative, isAbsolute_join relative someDirectory]
  by_cases rooted : IsAbsolute directory
  · have absolute := starts.mpr rooted
    rw [join, if_pos absolute]
    simp only [rooted, absolute, true_and, true_or, and_true]
    constructor
    · intro same
      by_contra inside
      exact (names_cut inside relative further).1 same.symm
    · rintro rfl
      exact (names_append_separator directory rest).symm
  · have relative' : ¬IsAbsolute (directory ++ cut :: rest) := fun absolute =>
      rooted (starts.mp absolute)
    simp only [rooted, isAbsolute_join relative' someDirectory, names_join relative',
      List.append_cancel_left_eq, true_and, false_or]
    constructor
    · intro same
      obtain rfl : cut = separator := by
        by_contra inside
        exact (names_cut inside relative further).2 same.symm
      rw [names_append_separator] at same
      exact ⟨rfl, by simpa using same.symm⟩
    · rintro ⟨rfl, dots⟩
      rw [names_append_separator, dots, List.nil_append]

/-- A rest that is absolute names the file exactly when no name was dropped. -/
theorem sameFile_absolute {directory rest : Text} {cut : Char} (someDirectory : directory ≠ [])
    (absolute : IsAbsolute rest) :
    SameFile (join directory rest) (join directory (directory ++ cut :: rest)) ↔
      IsAbsolute directory ∧ names (directory ++ [cut]) = [] := by
  have starts := isAbsolute_append (cut :: rest) someDirectory
  have replaced : join directory rest = rest := if_pos absolute
  obtain ⟨rest, rfl⟩ : ∃ inner, rest = separator :: inner := by
    cases rest with
    | nil => contradiction
    | cons c rest => exact ⟨rest, by rw [Option.some.inj absolute]⟩
  have whole : names (directory ++ cut :: separator :: rest) =
      names (directory ++ [cut]) ++ names (separator :: rest) := by
    have split := names_append_separator (directory ++ [cut]) rest
    have inner := names_append_separator [] rest
    simp only [List.append_assoc, List.singleton_append, List.nil_append, names_nil] at split inner
    rw [split, inner]
  rw [sameFile_iff, replaced]
  by_cases rooted : IsAbsolute directory
  · have absolute' := starts.mpr rooted
    rw [join, if_pos absolute', whole]
    simp [absolute, absolute', rooted]
  · have relative : ¬IsAbsolute (directory ++ cut :: separator :: rest) := fun absolute' =>
      rooted (starts.mp absolute')
    simp [rooted, absolute, isAbsolute_join relative someDirectory]

theorem sameFile_iff_cleanRest {directory rest : Text} {cut : Char} (someDirectory : directory ≠ [])
    (further : names rest ≠ []) :
    SameFile (join directory rest) (join directory (directory ++ cut :: rest)) ↔
      CleanRest directory cut rest := by
  by_cases absolute : IsAbsolute rest
  · simp [CleanRest, further, absolute, sameFile_absolute someDirectory absolute]
  · simp [CleanRest, further, absolute, sameFile_relative someDirectory absolute further]

/-- A path that leads into the directory has a name left after the directory. -/
theorem further_of_under {directory rest file : Text}
    (same : SameFile (join directory rest) file) (under : Under directory file) :
    names rest ≠ [] := by
  obtain ⟨-, inner, further, inside⟩ := under
  rw [← (sameFile_iff.mp same).2] at inside
  by_cases absolute : IsAbsolute rest
  · rw [join, if_pos absolute] at inside
    simp [inside, further]
  · rw [names_join absolute, List.append_cancel_left_eq] at inside
    rwa [inside]

/-- A clean rest leads into the directory. -/
theorem under_of_cleanRest {directory rest file : Text} {cut : Char}
    (someDirectory : directory ≠ []) (clean : CleanRest directory cut rest)
    (same : SameFile (join directory rest) file) :
    Under directory file := by
  obtain ⟨rooted, named⟩ := sameFile_iff.mp same
  obtain ⟨further, clean⟩ := clean
  by_cases absolute : IsAbsolute rest
  · rw [if_pos absolute] at clean
    rw [join, if_pos absolute] at rooted named
    refine ⟨?_, names rest, further, ?_⟩
    · rw [← rooted]
      exact iff_of_true clean.1 absolute
    · rw [← named, names_eq_nil_of_append clean.2, List.nil_append]
  · refine ⟨?_, names rest, further, ?_⟩
    · rw [← rooted, isAbsolute_join absolute someDirectory]
    · rw [← named, names_join absolute]

/-- What is left of a file name that starts with the directory records the file
    exactly when it is clean. -/
theorem recordsFile_cut_iff {info : Subprogram} {cut : Char} {rest : Text}
    (someDirectory : info.directory.toList ≠ [])
    (shape : info.filename.toList = info.directory.toList ++ cut :: rest) :
    RecordsFile info (String.ofList rest) ↔ CleanRest info.directory.toList cut rest := by
  have changed : String.ofList rest ≠ info.filename := by
    intro same
    have lengths := congrArg List.length (congrArg String.toList same)
    simp [shape] at lengths
    omega
  constructor
  · intro records
    have same := records.sameFile
    have under : Under info.directory.toList (denotedPath info).toList := by
      by_contra outside
      exact changed (records.unchanged outside)
    rw [denotedPath_toList, joinPaths_toList, String.toList_ofList] at same
    rw [denotedPath_toList] at under
    have further := further_of_under same under
    rw [shape] at same
    exact (sameFile_iff_cleanRest someDirectory further).mp same
  · intro clean
    have same := (sameFile_iff_cleanRest someDirectory clean.1).mpr clean
    rw [← shape] at same
    have under := under_of_cleanRest someDirectory clean same
    rw [← denotedPath_toList] at same under
    refine ⟨?_, fun outside => (outside under).elim⟩
    rwa [joinPaths_toList, String.toList_ofList]

/-- The pass records the file that debug info denotes exactly when it drops nothing
    or cuts cleanly. -/
theorem recordsFile_iff_cleanCut (info : Subprogram) (someDirectory : info.directory ≠ "")
    (someFile : info.filename ≠ "") :
    (∃ recorded, fileName (some info) = some (some recorded) ∧ RecordsFile info recorded) ↔
      CleanCut info.directory.toList info.filename.toList := by
  have someDirectory' : info.directory.toList ≠ [] := by simpa using someDirectory
  by_cases starts : info.directory.toList <+: info.filename.toList
  · obtain ⟨more, shape⟩ := starts
    cases more with
    | nil =>
        have same : info.filename = info.directory := by
          rw [← String.toList_inj, ← shape, List.append_nil]
        simp [fileName_of_eq someDirectory same, CleanCut, same]
    | cons cut rest =>
        rw [fileName_of_cut someDirectory someFile shape.symm]
        simp only [Option.some.injEq, exists_eq_left',
          recordsFile_cut_iff someDirectory' shape.symm]
        rw [← shape, CleanCut]
        constructor
        · intro clean _
          exact ⟨cut, rest, rfl, clean⟩
        · intro clean
          obtain ⟨cut', rest', same, clean⟩ := clean ⟨cut :: rest, rfl⟩
          obtain ⟨rfl, rfl⟩ := List.cons.inj (List.append_cancel_left same)
          exact clean
  · have unchanged := fileName_of_not_prefix someDirectory someFile starts
    apply iff_of_true
    · refine ⟨info.filename, unchanged, ?_, fun _ => rfl⟩
      rw [denotedPath_toList, joinPaths_toList]
      exact fun _ _ => rfl
    · exact fun starts' => (starts starts').elim

theorem recordsFile_in_directory :
    let info : Subprogram := ⟨"/path/to", "/path/to/file/main.c", 1⟩
    fileName (some info) = some (some "file/main.c") ∧
      ∃ recorded, fileName (some info) = some (some recorded) ∧ RecordsFile info recorded := by
  intro info
  refine ⟨by decide, (recordsFile_iff_cleanCut info (by decide) (by decide)).mpr fun _ => ?_⟩
  exact ⟨'/', "file/main.c".toList, by decide, by decide⟩

/-- The text of a directory can be the beginning of another directory's name. -/
theorem fileName_textual_prefix :
    let info : Subprogram := ⟨"/src/lib", "/src/library/list.c", 1⟩
    info.directory ≠ "" ∧ info.filename ≠ "" ∧ fileName (some info) = some (some "ary/list.c") ∧
      ¬∃ recorded, fileName (some info) = some (some recorded) ∧ RecordsFile info recorded := by
  intro info
  have recorded : fileName (some info) = some (some "ary/list.c") := by decide
  refine ⟨by decide, by decide, recorded, ?_⟩
  rintro ⟨other, same, records⟩
  obtain rfl : "ary/list.c" = other := by simpa [recorded] using same
  have shape : info.filename.toList = info.directory.toList ++ 'r' :: "ary/list.c".toList := by
    decide
  have clean := (recordsFile_cut_iff (by decide) shape).mp records
  revert clean
  decide

end Spoor.Instrumentation
