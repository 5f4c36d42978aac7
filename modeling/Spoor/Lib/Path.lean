import Mathlib.Data.List.Basic

/-! # Paths of a file system

A path is a text in which separators stand between names.  What it denotes is
found by starting at the root or at the working directory and following its names
one after the other; an empty name and a dot stay where they are.

Nothing is assumed about a file system: a name can be a link, and going up from a
directory need not lead back.  Two paths denote the same file in all of them
exactly when they start at the same place and have the same names.
-/

namespace Spoor.Lib.Path

abbrev Text := List Char

def separator : Char := '/'

def IsAbsolute (path : Text) : Prop := path.head? = some separator

instance (path : Text) : Decidable (IsAbsolute path) :=
  inferInstanceAs (Decidable (path.head? = some separator))

/-- A name that leads somewhere. -/
def isName (segment : Text) : Bool := segment ≠ [] && segment ≠ ['.']

/-- The names on a path. -/
def names (path : Text) : List Text := (path.splitOn separator).filter isName

/-- A path appended to another one; an absolute path replaces it. -/
def join (left right : Text) : Text :=
  if IsAbsolute right then right
  else if left = [] ∨ left.getLast? = some separator then left ++ right
  else left ++ separator :: right

/-! ## What a path denotes -/

/-- A file system with the files of a type; every name may lead anywhere. -/
structure FileSystem (Node : Type) where
  root : Node
  workingDirectory : Node
  entry : Node → Text → Option Node

def FileSystem.resolve {Node : Type} (fileSystem : FileSystem Node) (path : Text) : Option Node :=
  (names path).foldlM fileSystem.entry
    (if IsAbsolute path then fileSystem.root else fileSystem.workingDirectory)

/-- The two paths lead to the same file wherever they are followed. -/
def SameFile (path other : Text) : Prop :=
  ∀ (Node : Type) (fileSystem : FileSystem Node), fileSystem.resolve path = fileSystem.resolve other

/-- The file is inside the directory: the names of the directory come first on
    its path, and others follow. -/
def Under (directory path : Text) : Prop :=
  (IsAbsolute directory ↔ IsAbsolute path) ∧
    ∃ inner, inner ≠ [] ∧ names path = names directory ++ inner

/-- The file system in which different names always lead to different files. -/
def freeFileSystem : FileSystem (Bool × List Text) where
  root := (true, [])
  workingDirectory := (false, [])
  entry node name := some (node.1, node.2 ++ [name])

theorem freeFileSystem_resolve (path : Text) :
    freeFileSystem.resolve path = some (decide (IsAbsolute path), names path) := by
  have follow : ∀ (segments : List Text) (start : Bool × List Text),
      segments.foldlM freeFileSystem.entry start = some (start.1, start.2 ++ segments) := by
    intro segments
    induction segments with
    | nil => simp
    | cons segment segments ih =>
        intro start
        simpa [freeFileSystem] using ih (start.1, start.2 ++ [segment])
  rw [FileSystem.resolve]
  by_cases absolute : IsAbsolute path
  · rw [if_pos absolute]
    simpa [absolute, freeFileSystem] using follow (names path) (true, [])
  · rw [if_neg absolute]
    simpa [absolute, freeFileSystem] using follow (names path) (false, [])

theorem sameFile_iff {path other : Text} :
    SameFile path other ↔ (IsAbsolute path ↔ IsAbsolute other) ∧ names path = names other := by
  constructor
  · intro same
    have denoted := same _ freeFileSystem
    rw [freeFileSystem_resolve, freeFileSystem_resolve, Option.some.injEq, Prod.mk.injEq,
      decide_eq_decide] at denoted
    exact denoted
  · intro equal Node fileSystem
    simp only [FileSystem.resolve, equal.1, equal.2]

/-! ## The names of a text that is put together -/

theorem names_append_separator (left right : Text) :
    names (left ++ separator :: right) = names left ++ names right := by
  rw [names, List.splitOn_append_cons_self, List.filter_append, names, names]

/-- A text without separator is one segment. -/
theorem names_segment {segment : Text} (single : separator ∉ segment) :
    names segment = if isName segment then [segment] else [] := by
  rw [names, List.splitOn_eq_singleton single]
  cases named : isName segment <;> simp [named]

@[simp] theorem names_nil : names [] = [] := rfl

theorem isAbsolute_append {path : Text} (more : Text) (nonempty : path ≠ []) :
    IsAbsolute (path ++ more) ↔ IsAbsolute path := by
  cases path with
  | nil => contradiction
  | cons c path => rfl

theorem names_append_of_getLast {left : Text} (closed : left.getLast? = some separator)
    (right : Text) : names (left ++ right) = names left ++ names right := by
  obtain ⟨front, rfl⟩ := List.getLast?_eq_some_iff.mp closed
  have whole := names_append_separator front right
  have front' := names_append_separator front []
  simp only [List.append_assoc, List.singleton_append] at *
  rw [whole, front', names_nil, List.append_nil]

/-- The names of a relative path come after those of the directory. -/
theorem names_join {left right : Text} (relative : ¬IsAbsolute right) :
    names (join left right) = names left ++ names right := by
  rw [join, if_neg relative]
  split
  case isTrue closed =>
    rcases closed with rfl | closed
    · rfl
    · exact names_append_of_getLast closed right
  case isFalse opened => exact names_append_separator left right

theorem isAbsolute_join {left right : Text} (relative : ¬IsAbsolute right)
    (nonempty : left ≠ []) :
    IsAbsolute (join left right) ↔ IsAbsolute left := by
  rw [join, if_neg relative]
  split
  · exact isAbsolute_append _ nonempty
  · exact isAbsolute_append _ nonempty

/-- The last segment of a text, apart from what stands before it. -/
theorem exists_lastSegment (path : Text) :
    ∃ front last, separator ∉ last ∧
      ∀ more, names (path ++ more) = front ++ names (last ++ more) := by
  by_cases separated : separator ∈ path
  · obtain ⟨last, before, reversed, single⟩ :=
      List.eq_append_cons_of_mem (List.mem_reverse.mpr separated)
    obtain rfl : path = before.reverse ++ separator :: last.reverse := by
      rw [← List.reverse_reverse path, reversed]
      simp
    refine ⟨names before.reverse, last.reverse, by simpa using single, ?_⟩
    intro more
    rw [List.append_assoc, List.cons_append, names_append_separator]
  · exact ⟨[], path, separated, fun more => rfl⟩

/-- The first segment of a text, apart from what stands after it. -/
theorem exists_firstSegment (path : Text) :
    ∃ first back, separator ∉ first ∧ (first = [] → path = [] ∨ IsAbsolute path) ∧
      ∀ more, names (more ++ path) = names (more ++ first) ++ back := by
  by_cases separated : separator ∈ path
  · obtain ⟨first, after, rfl, single⟩ := List.eq_append_cons_of_mem separated
    refine ⟨first, names after, single, ?_, ?_⟩
    · rintro rfl
      exact .inr rfl
    · intro more
      rw [← List.append_assoc, names_append_separator]
  · exact ⟨path, [], separated, .inl, fun more => (List.append_nil _).symm⟩

theorem names_segment_eq_nil {segment : Text} (single : separator ∉ segment) :
    names segment = [] ↔ segment = [] ∨ segment = ['.'] := by
  rw [names_segment single]
  simp [isName, imp_iff_not_or]

theorem eq_of_mem_names_segment {segment name : Text} (single : separator ∉ segment)
    (listed : name ∈ names segment) : name = segment := by
  rw [names_segment single] at listed
  split at listed
  · exact List.mem_singleton.mp listed
  · contradiction

/-- The names of a text with a character in the middle that is no separator: the
    segment that holds it is a name of its own, unless it is a single dot. -/
theorem exists_middleSegment {middle : Char} (inside : middle ≠ separator) (left right : Text) :
    ∃ front before whole after back, names left = front ++ before ∧
      names right = after ++ back ∧ names (left ++ middle :: right) = front ++ whole ++ back ∧
      ((∃ segment, whole = [segment] ∧ segment ∉ before ++ after) ∨
        right = [] ∨ IsAbsolute right) := by
  obtain ⟨front, last, lastSingle, fromLast⟩ := exists_lastSegment left
  obtain ⟨first, back, firstSingle, firstEmpty, toFirst⟩ := exists_firstSegment right
  have single : separator ∉ last ++ middle :: first := by
    simp [lastSingle, firstSingle, Ne.symm inside]
  refine ⟨front, names last, names (last ++ middle :: first), names first, back,
    by simpa using fromLast [], by simpa using toFirst [], ?_, ?_⟩
  · have cut := toFirst (last ++ [middle])
    simp only [List.append_assoc, List.singleton_append] at cut
    rw [fromLast, cut, List.append_assoc]
  · by_cases nothing : names (last ++ middle :: first) = []
    · rcases (names_segment_eq_nil single).mp nothing with empty | dot
      · simp at empty
      · cases last with
        | nil => exact .inr (firstEmpty (List.cons.inj dot).2)
        | cons c last => simp at dot
    · refine .inl ⟨last ++ middle :: first, ?_, ?_⟩
      · rw [names_segment single] at nothing ⊢
        split at nothing
        · exact if_pos ‹_›
        · contradiction
      · intro listed
        rcases List.mem_append.mp listed with listed | listed
        · have same := congrArg List.length (eq_of_mem_names_segment lastSingle listed)
          simp at same
        · have same := congrArg List.length (eq_of_mem_names_segment firstSingle listed)
          simp at same
          omega

/-- Cutting a character out of a segment changes the names. -/
theorem names_cut {middle : Char} (inside : middle ≠ separator) {left right : Text}
    (relative : ¬IsAbsolute right) (further : names right ≠ []) :
    names (left ++ middle :: right) ≠ names left ++ names right ∧
      names (left ++ middle :: right) ≠ names right := by
  obtain ⟨front, before, whole, after, back, leftNames, rightNames, all, shape⟩ :=
    exists_middleSegment inside left right
  have right' : right ≠ [] := by
    rintro rfl
    exact further rfl
  obtain ⟨segment, rfl, fresh⟩ : ∃ segment, whole = [segment] ∧ segment ∉ before ++ after := by
    simpa [right', relative] using shape
  rw [all, leftNames, rightNames]
  constructor
  · intro equal
    have same : before ++ after = [segment] := by
      refine List.append_cancel_right (?_ : before ++ after ++ back = [segment] ++ back)
      simpa using equal.symm
    simp [same] at fresh
  · intro equal
    have same : after = front ++ [segment] := by simpa using (List.append_cancel_right equal).symm
    simp [same] at fresh

/-- A text with no name has none on any part before. -/
theorem names_eq_nil_of_append {path more : Text} (nothing : names (path ++ more) = []) :
    names path = [] := by
  obtain ⟨front, last, lastSingle, fromLast⟩ := exists_lastSegment path
  obtain ⟨first, back, firstSingle, -, toFirst⟩ := exists_firstSegment more
  have path' : names path = front ++ names last := by simpa using fromLast []
  rw [fromLast, toFirst, List.append_eq_nil_iff, List.append_eq_nil_iff] at nothing
  obtain ⟨rfl, joined, -⟩ := nothing
  have single : separator ∉ last ++ first := by simp [lastSingle, firstSingle]
  rw [path', List.nil_append, names_segment_eq_nil lastSingle]
  rcases (names_segment_eq_nil single).mp joined with empty | dot
  · exact .inl (List.append_eq_nil_iff.mp empty).1
  · cases last with
    | nil => exact .inl rfl
    | cons c last =>
        simp only [List.cons_append, List.cons.injEq, List.append_eq_nil_iff] at dot
        simp [dot]

end Spoor.Lib.Path
