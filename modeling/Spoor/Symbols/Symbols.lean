import Spoor.Lib.MultiMap

/-! # Symbols files

A symbols file has for each function id the functions that have it; there is more
than one only when ids collide.  A file that is loaded is merged into the symbols
of the files before it, and loses its own.

Texts hold one character for each byte.
-/

namespace Spoor.Symbols

open Lib

abbrev Text := List Char

abbrev FunctionId := BitVec 64

structure Timestamp where
  seconds : Int
  nanos : Int
  deriving Repr, DecidableEq

/-- The message about a function; a field without a value was not set. -/
structure FunctionInfo where
  moduleId : Option Text
  linkageName : Option Text
  demangledName : Option Text
  fileName : Option Text
  directory : Option Text
  line : Option Int
  irInstructionCount : Option Int
  instrumented : Option Bool
  instrumentedReason : Option Text
  createdAt : Option Timestamp
  deriving Repr, DecidableEq

/-- The one field of the message `Symbols`, in the order of its iteration. -/
abbrev SymbolsTable : Type := MultiMap FunctionId FunctionInfo

/-! ## Merging -/

structure SymbolsSourceDestination where
  source : SymbolsTable
  destination : SymbolsTable

/-- `ReduceSymbols`: the infos of each id are moved behind those that the
    destination has, which has the id from then on, and the source is cleared. -/
def reduceSymbols (symbols : SymbolsSourceDestination) : SymbolsSourceDestination where
  source := ∅
  destination := symbols.source.entries.foldl
    (fun destination entry => destination.append entry.1 entry.2) symbols.destination

/-- The symbols tables reduced one after the other into the destination, with what
    is left of them. -/
def reduceAll : List SymbolsTable → SymbolsTable → List SymbolsTable × SymbolsTable
  | [], destination => ([], destination)
  | source :: sources, destination =>
      let reduced := reduceSymbols ⟨source, destination⟩
      let rest := reduceAll sources reduced.destination
      (reduced.source :: rest.1, rest.2)

/-- The loop over the symbols files in `main`, which goes on behind a file that
    cannot be read. -/
def loadSymbols {ε : Type} (results : List (Except ε SymbolsTable)) : SymbolsTable :=
  results.foldl
    (fun symbols result =>
      match result with
      | .error _ => symbols
      | .ok fileSymbols => (reduceSymbols ⟨fileSymbols, symbols⟩).destination)
    ∅

theorem reduceSymbols_destination (source destination : SymbolsTable) :
    (reduceSymbols ⟨source, destination⟩).destination = destination.absorb source := rfl

/-- The destination has the infos that it had and behind them those of the sources
    in their order, and the ids of all of them; nothing is left of the sources. -/
structure Merged (sources : List SymbolsTable) (destination : SymbolsTable)
    (outcome : List SymbolsTable × SymbolsTable) : Prop where
  infos : ∀ id, outcome.2.values id =
    destination.values id ++ sources.flatMap fun source => source.values id
  ids : ∀ id, id ∈ outcome.2 ↔ id ∈ destination ∨ ∃ source ∈ sources, id ∈ source
  cleared : outcome.1 = List.replicate sources.length ∅

theorem merged_reduceAll (sources : List SymbolsTable) (destination : SymbolsTable) :
    Merged sources destination (reduceAll sources destination) := by
  induction sources generalizing destination with
  | nil => exact ⟨by simp [reduceAll], by simp [reduceAll], rfl⟩
  | cons source sources ih =>
      have rest := ih (destination.absorb source)
      constructor
      · intro id
        rw [reduceAll, reduceSymbols_destination, rest.infos, MultiMap.values_absorb,
          List.flatMap_cons, List.append_assoc]
      · intro id
        rw [reduceAll, reduceSymbols_destination, rest.ids, MultiMap.mem_absorb, or_assoc]
        simp
      · rw [reduceAll, reduceSymbols_destination, rest.cleared]
        rfl

/-- Nothing is lost or duplicated, and the order of the sources shows in the order
    of the infos only. -/
theorem reduceAll_merges (sources : List SymbolsTable) (destination : SymbolsTable) :
    Merged sources destination (reduceAll sources destination) ∧
      ∀ reordered, reordered.Perm sources → ∀ id,
        ((reduceAll reordered destination).2.values id).Perm
          ((reduceAll sources destination).2.values id) ∧
        (id ∈ (reduceAll reordered destination).2 ↔
          id ∈ (reduceAll sources destination).2) := by
  have merged := merged_reduceAll sources destination
  refine ⟨merged, ?_⟩
  intro reordered order id
  have merged' := merged_reduceAll reordered destination
  constructor
  · rw [merged.infos, merged'.infos]
    exact (order.flatMap_right _).append_left _
  · rw [merged.ids, merged'.ids]
    simp only [order.mem_iff]

/-- The loaded symbols are those of the files that can be read, merged in order. -/
theorem loadSymbols_eq {ε : Type} (results : List (Except ε SymbolsTable)) :
    loadSymbols results = (reduceAll (results.filterMap Except.toOption) ∅).2 := by
  rw [loadSymbols]
  generalize (∅ : SymbolsTable) = symbols
  induction results generalizing symbols with
  | nil => rfl
  | cons result results ih =>
      cases result with
      | error error => exact ih symbols
      | ok fileSymbols => exact ih (reduceSymbols ⟨fileSymbols, symbols⟩).destination

end Spoor.Symbols
