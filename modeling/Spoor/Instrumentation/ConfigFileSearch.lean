import Mathlib.Data.List.Infix
import Spoor.Lib.Path

/-! # The search for the configuration file

The instrumentation looks for its configuration file in a directory and then in
one directory above after the other.  The loop ends when the path is that of the
root, which is before the root itself is searched.
-/

namespace Spoor.Instrumentation.ConfigFile

open Lib.Path

def kConfigFileName : Text := "spoor_config.toml".toList

/-- An absolute path by the elements it has behind its root directory.  The last
    element is empty if the path ends with a separator. -/
structure AbsolutePath where
  elements : List Text
  inner : [] ∉ elements.dropLast
  relative : elements ≠ [[]]
  deriving DecidableEq

namespace AbsolutePath

def rootPath : AbsolutePath := ⟨[], by simp, by simp⟩

theorem head?_elements (path : AbsolutePath) : path.elements.head? ≠ some [] := by
  intro first
  obtain ⟨rest, split⟩ := List.head?_eq_some_iff.mp first
  cases rest with
  | nil => exact path.relative split
  | cons next rest => exact path.inner (by simp [split])

/-- The path with one element less. -/
def parentPath (path : AbsolutePath) : AbsolutePath where
  elements := path.elements.dropLast
  inner := fun listed => path.inner (List.mem_of_mem_dropLast listed)
  relative := fun alone => path.inner (by simp [alone])

/-- What the path denotes: the names from the root on. -/
def names (path : AbsolutePath) : List Text := path.elements.filter isName

/-- The path of an entry of the directory. -/
def entry (path : AbsolutePath) (name : Text) (named : isName name) : AbsolutePath where
  elements := path.elements.filter (· ≠ []) ++ [name]
  inner := by simp
  relative := by
    intro alone
    have length := congrArg List.length alone
    have last := congrArg List.getLast? alone
    simp only [List.getLast?_concat, List.getLast?_singleton, Option.some.injEq] at last
    simp [isName, last] at named

theorem eq_rootPath_iff {path : AbsolutePath} : path = rootPath ↔ path.elements = [] := by
  cases path
  simp [rootPath]

theorem length_parentPath (path : AbsolutePath) (below : path ≠ rootPath) :
    path.parentPath.elements.length < path.elements.length := by
  have length := List.length_pos_iff.mpr (eq_rootPath_iff.not.mp below)
  simp only [parentPath, List.length_dropLast]
  omega

/-- Going up from a path ends at the root. -/
@[elab_as_elim]
theorem upward {motive : AbsolutePath → Prop} (root : motive rootPath)
    (below : ∀ path, path ≠ rootPath → motive path.parentPath → motive path)
    (path : AbsolutePath) : motive path := by
  generalize bound : path.elements.length = length
  induction length using Nat.strong_induction_on generalizing path with
  | h length ih =>
      by_cases atRoot : path = rootPath
      · rw [atRoot]
        exact root
      · subst bound
        exact below path atRoot (ih _ (path.length_parentPath atRoot) _ rfl)

theorem exists_lastElement {path : AbsolutePath} (below : path ≠ rootPath) :
    ∃ last, path.elements = path.parentPath.elements ++ [last] := by
  have some := eq_rootPath_iff.not.mp below
  exact ⟨_, (List.dropLast_append_getLast some).symm⟩

theorem names_entry (path : AbsolutePath) {name : Text} (named : isName name) :
    (path.entry name named).names = path.names ++ [name] := by
  have kept : (path.elements.filter (· ≠ [])).filter isName = path.elements.filter isName := by
    rw [List.filter_filter]
    apply List.filter_congr
    intro element _
    cases element <;> simp [isName]
  rw [names, names, entry, List.filter_append, kept, List.filter_singleton, named, cond_true]

theorem names_parentPath_prefix (path : AbsolutePath) : path.parentPath.names <+: path.names :=
  path.elements.dropLast_prefix.filter isName

end AbsolutePath

section Search

variable {ε : Type}

/-- A directory iterator: the names of the entries of a directory, or an error. -/
abbrev DirectoryIterator (ε : Type) : Type := List Text → Except ε (List Text)

theorem isName_kConfigFileName : isName kConfigFileName = true := by decide

/-- `FindConfigFile`. -/
def findConfigFile (iterator : DirectoryIterator ε) (path : AbsolutePath) :
    Except ε (Option AbsolutePath) :=
  if path = .rootPath then .ok none
  else
    match iterator path.names with
    | .error error => .error error
    | .ok entries =>
        if kConfigFileName ∈ entries then
          .ok (some (path.entry kConfigFileName isName_kConfigFileName))
        else findConfigFile iterator path.parentPath
termination_by path.elements.length
decreasing_by exact path.length_parentPath (by assumption)

def hasConfigFile (iterator : DirectoryIterator ε) (directory : List Text) : Bool :=
  match iterator directory with
  | .ok entries => kConfigFileName ∈ entries
  | .error _ => false

/-- The directory and all directories above it, up to the root, as the path has
    them: an element of two dots is a directory like any other. -/
def ancestors (directory : List Text) : List (List Text) := directory.inits.reverse

/-- The nearest directory that has a configuration file. -/
def nearest (iterator : DirectoryIterator ε) (directory : List Text) : Option (List Text) :=
  (ancestors directory).find? (hasConfigFile iterator)

/-- The search comes to an end with the file in the nearest directory that has
    one, or without a file if there is no such directory. -/
def FindsNearest (iterator : DirectoryIterator ε) (path : AbsolutePath) : Prop :=
  ∃ found, findConfigFile iterator path = .ok found ∧
    found.map AbsolutePath.names =
      (nearest iterator path.names).map (· ++ [kConfigFileName])

variable {iterator : DirectoryIterator ε}

theorem nearest_nil :
    nearest iterator [] = if hasConfigFile iterator [] then some [] else none := by
  cases held : hasConfigFile iterator [] <;> simp [nearest, ancestors, held]

theorem nearest_concat (directory : List Text) (name : Text) :
    nearest iterator (directory ++ [name]) =
      if hasConfigFile iterator (directory ++ [name]) then some (directory ++ [name])
      else nearest iterator directory := by
  have inits : (directory ++ [name]).inits.reverse =
      (directory ++ [name]) :: directory.inits.reverse := by
    simp [List.inits_append]
  rw [nearest, ancestors, inits, List.find?_cons, nearest, ancestors]
  cases hasConfigFile iterator (directory ++ [name]) <;> rfl

theorem nearest_of_held {directory : List Text}
    (held : hasConfigFile iterator directory = true) :
    nearest iterator directory = some directory := by
  induction directory using List.reverseRecOn with
  | nil => rw [nearest_nil, if_pos held]
  | append_singleton front last => rw [nearest_concat, if_pos held]

theorem hasConfigFile_of_nearest {directory found : List Text}
    (held : nearest iterator directory = some found) : hasConfigFile iterator found = true := by
  rw [nearest] at held
  exact List.find?_some held

/-- The first element of the path is a dot, so that the search comes to the root
    directory by a path that is not the root's. -/
def StartsWithDot (path : AbsolutePath) : Prop := path.elements.head? = some ['.']

instance (path : AbsolutePath) : Decidable (StartsWithDot path) :=
  inferInstanceAs (Decidable (path.elements.head? = some ['.']))

theorem startsWithDot_parentPath {path : AbsolutePath} (some : path.parentPath.elements ≠ []) :
    StartsWithDot path.parentPath ↔ StartsWithDot path := by
  have below : path ≠ .rootPath := by
    rintro rfl
    exact some rfl
  obtain ⟨last, split⟩ := path.exists_lastElement below
  rw [StartsWithDot, StartsWithDot, split, List.head?_append_of_ne_nil _ some]

/-- A path without names has dots only. -/
theorem startsWithDot_of_names {path : AbsolutePath} (below : path ≠ .rootPath)
    (none : path.names = []) : StartsWithDot path := by
  have some := AbsolutePath.eq_rootPath_iff.not.mp below
  cases elements : path.elements with
  | nil => contradiction
  | cons first rest =>
      have unnamed : isName first = false := by
        have all := List.filter_eq_nil_iff.mp none first (by simp [elements])
        simpa using all
      have filled : first ≠ [] := fun empty =>
        path.head?_elements (by rw [elements, empty, List.head?_cons])
      have dot : first = ['.'] := by simpa [isName, filled] using unnamed
      rw [StartsWithDot, elements, dot, List.head?_cons]

/-- The directory that the search comes to if it is the nearest one. -/
def reached (iterator : DirectoryIterator ε) (path : AbsolutePath) : Option (List Text) :=
  (nearest iterator path.names).filter fun directory =>
    directory ≠ [] || decide (StartsWithDot path)

theorem reached_of_held {path : AbsolutePath} (below : path ≠ .rootPath)
    (held : hasConfigFile iterator path.names = true) :
    reached iterator path = some path.names := by
  have passes : path.names ≠ [] ∨ StartsWithDot path := by
    by_cases none : path.names = []
    · exact .inr (startsWithDot_of_names below none)
    · exact .inl none
  rw [reached, nearest_of_held held, Option.filter_some, if_pos (by simpa using passes)]

/-- A directory without the file is passed by. -/
theorem nearest_parentPath {path : AbsolutePath} {last : Text}
    (split : path.elements = path.parentPath.elements ++ [last])
    (unheld : hasConfigFile iterator path.names = false) :
    nearest iterator path.parentPath.names = nearest iterator path.names := by
  have names : path.names = path.parentPath.names ++ [last].filter isName := by
    rw [AbsolutePath.names, split, List.filter_append, AbsolutePath.names]
  rw [List.filter_singleton] at names
  cases named : isName last with
  | false => rw [names, named, cond_false, List.append_nil]
  | true =>
      rw [named, cond_true] at names
      rw [names] at unheld ⊢
      rw [nearest_concat, if_neg (Bool.eq_false_iff.mp unheld)]

/-- The first element below the root is a name if the root has the file and the
    directory does not. -/
theorem startsWithDot_below {path : AbsolutePath} (below : path ≠ .rootPath)
    (up : path.parentPath = .rootPath) (unheld : hasConfigFile iterator path.names = false)
    (held : hasConfigFile iterator [] = true) : ¬StartsWithDot path := by
  obtain ⟨last, split⟩ := path.exists_lastElement below
  intro dot
  rw [StartsWithDot, split, up] at dot
  obtain rfl : last = ['.'] := by simpa [AbsolutePath.rootPath] using dot
  have none : path.names = [] := by
    rw [AbsolutePath.names, split, up]
    rfl
  rw [none, held] at unheld
  contradiction

theorem reached_parentPath {path : AbsolutePath} (below : path ≠ .rootPath)
    (unheld : hasConfigFile iterator path.names = false) :
    reached iterator path.parentPath = reached iterator path := by
  obtain ⟨last, split⟩ := path.exists_lastElement below
  rw [reached, reached, nearest_parentPath split unheld]
  by_cases up : path.parentPath = .rootPath
  · have undotted : ¬StartsWithDot path.parentPath := by
      rw [up]
      decide
    cases held : nearest iterator path.names with
    | none => rfl
    | some directory =>
        cases directory with
        | nil =>
            have root := hasConfigFile_of_nearest held
            have dotted := startsWithDot_below below up unheld root
            simp [Option.filter, undotted, dotted]
        | cons first rest => simp [Option.filter]
  · have some := AbsolutePath.eq_rootPath_iff.not.mp up
    simp only [startsWithDot_parentPath some]

/-- What the search comes to: the nearest directory, unless that is the root and
    no path but the root's leads there. -/
theorem findConfigFile_eq (path : AbsolutePath)
    (listable : ∀ directory ∈ path.names.inits, (iterator directory).isOk) :
    ∃ found, findConfigFile iterator path = .ok found ∧
      found.map AbsolutePath.names = (reached iterator path).map (· ++ [kConfigFileName]) := by
  induction path using AbsolutePath.upward with
  | root =>
      have names : AbsolutePath.rootPath.names = [] := rfl
      have undotted : ¬StartsWithDot .rootPath := by decide
      refine ⟨none, by rw [findConfigFile, if_pos rfl], ?_⟩
      rw [reached, names, nearest_nil]
      split <;> simp [undotted, Option.filter]
  | below path below ih =>
      rw [findConfigFile, if_neg below]
      have listed := listable path.names (by simp [List.mem_inits])
      cases listing : iterator path.names with
      | error error => simp [listing, Except.isOk, Except.toBool] at listed
      | ok entries =>
          by_cases held : kConfigFileName ∈ entries
          · have file : hasConfigFile iterator path.names = true := by
              simp [hasConfigFile, listing, held]
            refine ⟨some (path.entry kConfigFileName isName_kConfigFileName), ?_, ?_⟩
            · simp only [if_pos held]
            · rw [reached_of_held below file, Option.map_some, Option.map_some,
                AbsolutePath.names_entry]
          · have unheld : hasConfigFile iterator path.names = false := by
              simp [hasConfigFile, listing, held]
            have above : ∀ directory ∈ path.parentPath.names.inits,
                (iterator directory).isOk := by
              intro directory front
              apply listable directory
              rw [List.mem_inits] at front ⊢
              exact front.trans path.names_parentPath_prefix
            simp only [if_neg held]
            rw [← reached_parentPath below unheld]
            exact ih above

/-- A directory below the root has the file, or the search comes to the root by a
    path that is not the root's. -/
def EndsBeforeRoot (iterator : DirectoryIterator ε) (path : AbsolutePath) : Prop :=
  (∃ directory ∈ path.names.inits, directory ≠ [] ∧ hasConfigFile iterator directory = true) ∨
    StartsWithDot path

theorem nearest_ne_root {directory : List Text}
    (below : ∃ held ∈ directory.inits, held ≠ [] ∧ hasConfigFile iterator held = true) :
    nearest iterator directory ≠ some [] := by
  induction directory using List.reverseRecOn with
  | nil =>
      obtain ⟨held, front, filled, _⟩ := below
      simp at front
      contradiction
  | append_singleton front last ih =>
      rw [nearest_concat]
      by_cases held : hasConfigFile iterator (front ++ [last]) = true
      · simp [held]
      · rw [if_neg held]
        apply ih
        obtain ⟨directory, listed, filled, file⟩ := below
        refine ⟨directory, ?_, filled, file⟩
        rw [List.mem_inits, List.prefix_concat_iff] at listed
        rw [List.mem_inits]
        refine listed.resolve_left ?_
        rintro rfl
        exact held file

theorem nearest_eq_root {directory : List Text}
    (below : ¬∃ held ∈ directory.inits, held ≠ [] ∧ hasConfigFile iterator held = true)
    (root : hasConfigFile iterator [] = true) : nearest iterator directory = some [] := by
  induction directory using List.reverseRecOn with
  | nil => rw [nearest_nil, if_pos root]
  | append_singleton front last ih =>
      have unheld : ¬hasConfigFile iterator (front ++ [last]) = true := fun held =>
        below ⟨_, by simp [List.mem_inits], by simp, held⟩
      rw [nearest_concat, if_neg unheld]
      apply ih
      rintro ⟨directory, listed, filled, file⟩
      rw [List.mem_inits] at listed
      have longer := listed.trans (List.prefix_append front [last])
      exact below ⟨directory, (List.mem_inits _ _).mpr longer, filled, file⟩

theorem reached_eq_nearest_iff {path : AbsolutePath} :
    reached iterator path = nearest iterator path.names ↔
      (hasConfigFile iterator [] = true → EndsBeforeRoot iterator path) := by
  constructor
  · intro same root
    by_contra ends
    obtain ⟨below, undotted⟩ := not_or.mp ends
    rw [reached, nearest_eq_root below root] at same
    simp [Option.filter, undotted] at same
  · intro ends
    rw [reached]
    cases held : nearest iterator path.names with
    | none => rfl
    | some directory =>
        cases directory with
        | cons first rest => simp [Option.filter]
        | nil =>
            obtain below | dotted := ends (hasConfigFile_of_nearest held)
            · exact absurd held (nearest_ne_root below)
            · simp [Option.filter, dotted]

/-- The file in the root directory is missed exactly if it is the only one on the
    way up; the files in all other directories are found. -/
theorem findConfigFile_nearest_iff (path : AbsolutePath)
    (listable : ∀ directory ∈ path.names.inits, (iterator directory).isOk) :
    FindsNearest iterator path ↔
      (hasConfigFile iterator [] = true → EndsBeforeRoot iterator path) := by
  obtain ⟨found, search, denoted⟩ := findConfigFile_eq path listable
  have injective :
      Function.Injective (fun directory : List Text => directory ++ [kConfigFileName]) :=
    List.append_left_injective _
  rw [FindsNearest, search, ← reached_eq_nearest_iff]
  constructor
  · rintro ⟨result, same, nearest⟩
    cases same
    rw [denoted] at nearest
    exact Option.map_injective injective nearest
  · intro same
    refine ⟨found, rfl, ?_⟩
    rw [denoted, same]

/-- A file system with one directory in the root and a configuration file in the
    place. -/
def configFileIn (place : List Text) : DirectoryIterator Unit := fun directory =>
  .ok ((if directory = [] then ["home".toList] else []) ++
    if directory = place then [kConfigFileName] else [])

theorem isOk_configFileIn (place directory : List Text) :
    (configFileIn place directory).isOk = true := rfl

def home : AbsolutePath := ⟨["home".toList], by decide, by decide⟩

/-- The file below the root is found. -/
theorem homeFile_found : FindsNearest (configFileIn ["home".toList]) home := by
  apply (findConfigFile_nearest_iff home fun _ _ => isOk_configFileIn _ _).mpr
  intro root
  have rootless : hasConfigFile (configFileIn ["home".toList]) [] = false := by decide
  rw [rootless] at root
  contradiction

/-- The search from the root's directory misses the file in the root. -/
theorem rootFile_missed :
    (∀ directory ∈ home.names.inits, (configFileIn [] directory).isOk) ∧
      ¬FindsNearest (configFileIn []) home := by
  refine ⟨fun _ _ => isOk_configFileIn _ _, ?_⟩
  rintro ⟨found, search, denoted⟩
  have missed : findConfigFile (configFileIn []) home = .ok none := by
    have below : home ≠ .rootPath := by decide
    have above : home.parentPath = .rootPath := by decide
    have listing : configFileIn [] home.names = .ok [] := by rfl
    rw [findConfigFile, if_neg below, listing]
    simp only [List.not_mem_nil, if_false]
    rw [above, findConfigFile, if_pos rfl]
  obtain rfl : none = found := by simpa [missed] using search
  have held : nearest (configFileIn []) home.names = some [] := by decide
  simp [held] at denoted

end Search

end Spoor.Instrumentation.ConfigFile
