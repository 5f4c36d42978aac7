import Mathlib.Algebra.Order.Ring.Int
import Mathlib.Data.List.Basic
import Spoor.Instrumentation.Filters
import Spoor.Instrumentation.Module
import Spoor.Lib.Transition

/-! # The pass that injects the runtime's calls into a module

For every function with a body the pass takes the next function id, records what
it knows about the function in the symbols table and asks the filters.  If they
accept the function, calls are inserted at its entry and before its returns.

What comes from outside the repository enters as `Environment`: the demanglers,
the hash of the module's bitcode and the readings of the clock.  Texts hold one
character for each byte.  A step without a value has thrown an exception, which
ends the compilation.
-/

namespace Spoor.Instrumentation

open Lib.Transition

structure Environment where
  isSwiftSymbol : String → Bool
  demangleSymbolAsString : String → String
  demangle : String → String
  moduleHash : BitVec 32
  /-- The clock's reading for the function with the counter, in nanoseconds. -/
  now : Nat → Int

structure Options where
  injectInstrumentation : Bool
  filtersFilePath : Option String
  symbolsFilePath : String
  initializeRuntime : Bool
  enableRuntime : Bool
  deriving Repr, DecidableEq

structure Timestamp where
  seconds : Int
  nanos : Int
  deriving Repr, DecidableEq

/-- The record of a function in the symbols file. -/
structure FunctionInfo where
  moduleId : String
  linkageName : String
  demangledName : String
  fileName : Option String
  directory : Option String
  line : Option Int
  irInstructionCount : Int
  instrumented : Bool
  instrumentedReason : Option String
  createdAt : Timestamp
  deriving Repr, DecidableEq

abbrev SymbolsTable := List (FunctionId × List FunctionInfo)

def mainFunctionName : String := "main"

/-- The functions the pass looks up in the module, in this order. -/
def runtimeFunctionNames : List String :=
  ["_spoor_runtime_Initialize", "_spoor_runtime_Deinitialize", "_spoor_runtime_Enable",
    "_spoor_runtime_LogFunctionEntry", "_spoor_runtime_LogFunctionExit"]

/-! ## What is known about a function -/

def isCntrl (c : Char) : Bool := c.toNat < 32 || c.toNat = 127

def demangledName (env : Environment) (functionName : String) : String :=
  if env.isSwiftSymbol functionName then env.demangleSymbolAsString functionName
  else env.demangle (String.ofList (functionName.toList.filter fun c => !isCntrl c))

/-- The text from the position on; a position past the end throws. -/
def substr (text : String) (position : Nat) : Option String :=
  if position ≤ text.length then some (String.ofList (text.toList.drop position)) else none

def directory (subprogram : Option Subprogram) : Option String :=
  subprogram.bind fun info => if info.directory = "" then none else some info.directory

/-- The file name relative to the directory.  It is cut after the directory and a
    separator, which throws when the file name is the directory itself. -/
def fileName (subprogram : Option Subprogram) : Option (Option String) :=
  match subprogram with
  | none => some none
  | some info =>
      if info.filename = "" then some none
      else match directory subprogram with
        | none => some (some info.filename)
        | some directory =>
            if directory.toList.isPrefixOf info.filename.toList then
              (substr info.filename (directory.length + 1)).map some
            else some (some info.filename)

def lineNumber (subprogram : Option Subprogram) : Option Int :=
  subprogram.bind fun info => if info.line < 1 then none else some ((info.line : Int).bmod (2 ^ 32))

/-- A path appended to another one; an absolute path replaces it. -/
def joinPaths (left right : String) : String :=
  if right.toList.head? = some '/' then right
  else if left = "" ∨ left.toList.getLast? = some '/' then left ++ right
  else left ++ "/" ++ right

def filterSourceFilePath (directory fileName : Option String) : String :=
  match directory, fileName with
  | some directory, some fileName => joinPaths directory fileName
  | some directory, none => directory
  | none, some fileName => fileName
  | none, none => ""

/-- `TimeUtil::NanosecondsToTimestamp`: the nanoseconds count forward from the second. -/
def nanosecondsToTimestamp (nanoseconds : Int) : Timestamp where
  seconds := nanoseconds / 1000000000
  nanos := nanoseconds % 1000000000

section Pass

variable {ι : Type} (env : Environment) (options : Options)
  (decide : Filters.FunctionInfo → Option Filters.InstrumentFunctionResult)

def Function.irInstructionCount (f : Function ι) : Int :=
  (f.getInstructionCount : Int).bmod (2 ^ 32)

/-- What the filters are told about a function. -/
def filterInfo (f : Function ι) (fileName : Option String) : Filters.FunctionInfo where
  sourceFilePath := filterSourceFilePath (directory f.subprogram) fileName
  demangledName := demangledName env f.name
  linkageName := f.name
  irInstructionCount := f.irInstructionCount

/-- The record of a function, with the decision of the filters. -/
def describe (moduleId : String) (counter : BitVec 64) (f : Function ι) : Option FunctionInfo := do
  let file ← fileName f.subprogram
  let decision ← decide (filterInfo env f file)
  return {
    moduleId := moduleId
    linkageName := f.name
    demangledName := demangledName env f.name
    fileName := file
    directory := directory f.subprogram
    line := lineNumber f.subprogram
    irInstructionCount := f.irInstructionCount
    instrumented := decision.instrument
    instrumentedReason := decision.activeFilterRuleName
    createdAt := nanosecondsToTimestamp (env.now counter.toNat) }

/-! ## The loop over the functions of a module -/

/-- The module's hash in the upper half and the counter. -/
def makeFunctionId (moduleHash : BitVec 32) (counter : BitVec 64) : FunctionId :=
  moduleHash.setWidth 64 <<< 32 ||| counter

/-- A record is added to the entry of the id, which is created if needed. -/
def addFunctionInfo (id : FunctionId) (info : FunctionInfo) : SymbolsTable → SymbolsTable
  | [] => [(id, [info])]
  | (key, infos) :: table =>
      if key = id then (key, infos ++ [info]) :: table
      else (key, infos) :: addFunctionInfo id info table

def entryCalls (f : Function ι) (id : FunctionId) : List RuntimeCall :=
  (if f.name = mainFunctionName ∧ options.initializeRuntime then
    .initializeRuntime :: (if options.enableRuntime then [.enableRuntime] else [])
  else []) ++ [.logFunctionEntry id]

def returnCalls (f : Function ι) (id : FunctionId) : List RuntimeCall :=
  .logFunctionExit id :: (if f.name = mainFunctionName then [.deinitializeRuntime] else [])

/-- The loop between two functions: the counter, the table, whether some function
    was accepted, and the functions passed so far. -/
structure Progress (ι : Type) where
  counter : BitVec 64
  symbols : SymbolsTable
  modified : Bool
  functions : List (Function (ι ⊕ RuntimeCall))

def Progress.start (ι : Type) : Progress ι := ⟨0, [], false, []⟩

def instrumentNext (moduleId : String) (progress : Progress ι) (f : Function ι) :
    Option (Progress ι) :=
  if f.isDeclaration then
    some { progress with functions := progress.functions ++ [f.original] }
  else do
    let id := makeFunctionId env.moduleHash progress.counter
    let info ← describe env decide moduleId progress.counter f
    let instrumented :=
      if info.instrumented then f.insertCalls (entryCalls options f id) (returnCalls f id)
      else f.original
    return {
      counter := progress.counter + 1
      symbols := addFunctionInfo id info progress.symbols
      modified := progress.modified || info.instrumented
      functions := progress.functions ++ [instrumented] }

structure InstrumentModuleResult (ι : Type) where
  symbols : SymbolsTable
  modified : Bool
  functions : List (Function (ι ⊕ RuntimeCall))

def instrumentModule (m : Module ι) : Option (InstrumentModuleResult ι) :=
  let declared := runtimeFunctionNames.foldl Module.getOrInsertFunction m
  (exec (instrumentNext env options decide m.identifier) (.start ι) declared.functions).map
    fun progress => ⟨progress.symbols, progress.modified, progress.functions⟩

/-! ## The pass -/

inductive SymbolsWriterError where
  | failedToOpenFile
  | serializationError
  deriving Repr, DecidableEq

def SymbolsWriterError.message (filePath : String) : SymbolsWriterError → String
  | .failedToOpenFile => "Failed to open the symbols file '" ++ filePath ++ "'."
  | .serializationError =>
      "Failed to write the instrumentation symbols to '" ++ filePath ++ "'."

/-- A run ends the compilation with a message, or returns which analyses are
    preserved and leaves the functions of the module. -/
inductive RunResult (ι : Type) where
  | fatalError (message : String)
  | preserved (all : Bool) (functions : List (Function (ι ⊕ RuntimeCall)))

variable (regexMatch : String → String → Option Bool)
  (read : String → Except String (List Filters.Filter))
  (write : String → SymbolsTable → Except SymbolsWriterError Unit)

/-- The filters of the filters file, if there is one. -/
def fileFilters : Except String (List Filters.Filter) :=
  match options.filtersFilePath with
  | none => .ok []
  | some path => read path

def run (m : Module ι) : Option (RunResult ι) :=
  if !options.injectInstrumentation then some (.preserved true (m.functions.map .original))
  else match fileFilters options read with
    | .error message => some (.fatalError message)
    | .ok filters =>
        (instrumentModule env options
            (Filters.instrumentFunction regexMatch (Filters.defaultFilters ++ filters)) m).map
          fun result =>
            match write options.symbolsFilePath result.symbols with
            | .error error => .fatalError (error.message options.symbolsFilePath)
            | .ok _ => .preserved (!result.modified) result.functions

end Pass

/-! ## What the loop does to each function -/

section Loop

variable {ι : Type} {env : Environment} {options : Options}
  {decide : Filters.FunctionInfo → Option Filters.InstrumentFunctionResult}

/-- The number of functions with a body before a position. -/
def definedBefore (functions : List (Function ι)) (position : Nat) : Nat :=
  (functions.take position).countP fun f => !f.isDeclaration

/-- The id of the function at a position of a module. -/
def functionIdAt (moduleHash : BitVec 32) (functions : List (Function ι)) (position : Nat) :
    FunctionId :=
  makeFunctionId moduleHash (BitVec.ofNat 64 (definedBefore functions position))

/-- Whether the filters accept a function, unless its description throws. -/
def accepts (env : Environment)
    (decide : Filters.FunctionInfo → Option Filters.InstrumentFunctionResult) (f : Function ι) :
    Option Bool := do
  let file ← fileName f.subprogram
  let decision ← decide (filterInfo env f file)
  return decision.instrument

theorem describe_eq_some {moduleId : String} {counter : BitVec 64} {f : Function ι}
    {info : FunctionInfo} (described : describe env decide moduleId counter f = some info) :
    info.linkageName = f.name ∧ accepts env decide f = some info.instrumented := by
  simp only [describe, Option.bind_eq_bind, Option.bind_eq_some_iff, Option.pure_def,
    Option.some.injEq] at described
  obtain ⟨file, named, decision, decided, rfl⟩ := described
  exact ⟨rfl, by simp [accepts, named, decided]⟩

/-- What one round of the loop does. -/
theorem instrumentNext_cases {moduleId : String} {progress next : Progress ι} {f : Function ι}
    (taken : instrumentNext env options decide moduleId progress f = some next) :
    (f.isDeclaration = true ∧
      next = { progress with functions := progress.functions ++ [f.original] }) ∨
    (f.isDeclaration = false ∧ ∃ info,
      describe env decide moduleId progress.counter f = some info ∧
      next = {
        counter := progress.counter + 1
        symbols := addFunctionInfo (makeFunctionId env.moduleHash progress.counter) info
          progress.symbols
        modified := progress.modified || info.instrumented
        functions := progress.functions ++ [
          if info.instrumented then
            f.insertCalls
              (entryCalls options f (makeFunctionId env.moduleHash progress.counter))
              (returnCalls f (makeFunctionId env.moduleHash progress.counter))
          else f.original] }) := by
  by_cases declaration : f.isDeclaration = true
  · rw [instrumentNext, if_pos declaration, Option.some.injEq] at taken
    exact .inl ⟨declaration, taken.symm⟩
  · rw [instrumentNext, if_neg declaration] at taken
    simp only [Option.bind_eq_bind, Option.bind_eq_some_iff, Option.pure_def,
      Option.some.injEq] at taken
    obtain ⟨info, described, rfl⟩ := taken
    exact .inr ⟨by simpa using declaration, info, described, rfl⟩

/-- The function that the loop leaves for one at a position. -/
def Leaves (env : Environment) (options : Options)
    (decide : Filters.FunctionInfo → Option Filters.InstrumentFunctionResult)
    (functions : List (Function ι)) (position : Nat) (f : Function ι)
    (g : Function (ι ⊕ RuntimeCall)) : Prop :=
  (f.isDeclaration = true ∧ g = f.original) ∨
  (f.isDeclaration = false ∧ ∃ instrumented, accepts env decide f = some instrumented ∧
    g = if instrumented then
        f.insertCalls (entryCalls options f (functionIdAt env.moduleHash functions position))
          (returnCalls f (functionIdAt env.moduleHash functions position))
      else f.original)

/-- The loop has counted the bodies it passed and left one function for each. -/
structure Passed (env : Environment) (options : Options)
    (decide : Filters.FunctionInfo → Option Filters.InstrumentFunctionResult)
    (functions : List (Function ι)) (progress : Progress ι) : Prop where
  counter : progress.counter = BitVec.ofNat 64 (definedBefore functions functions.length)
  length : progress.functions.length = functions.length
  leaves : ∀ position f g, functions[position]? = some f → progress.functions[position]? = some g →
    Leaves env options decide functions position f g

theorem definedBefore_append {functions : List (Function ι)} {position : Nat}
    (inside : position ≤ functions.length) (more : List (Function ι)) :
    definedBefore (functions ++ more) position = definedBefore functions position := by
  rw [definedBefore, List.take_append_of_le_length inside, definedBefore]

theorem definedBefore_concat (functions : List (Function ι)) (f : Function ι) :
    definedBefore (functions ++ [f]) (functions ++ [f]).length =
      definedBefore functions functions.length + if f.isDeclaration then 0 else 1 := by
  rw [definedBefore, List.take_length, definedBefore, List.take_length, List.countP_append]
  cases declaration : f.isDeclaration <;> simp [declaration]

theorem leaves_append {functions more : List (Function ι)} {position : Nat} {f : Function ι}
    {g : Function (ι ⊕ RuntimeCall)} (inside : position ≤ functions.length) :
    Leaves env options decide (functions ++ more) position f g ↔
      Leaves env options decide functions position f g := by
  simp only [Leaves, functionIdAt, definedBefore_append inside]

theorem getElem?_concat_cases {functions : List (Function ι)} {f g : Function ι} {position : Nat}
    (found : (functions ++ [f])[position]? = some g) :
    (position < functions.length ∧ functions[position]? = some g) ∨
      (position = functions.length ∧ g = f) := by
  rcases Nat.lt_trichotomy position functions.length with before | rfl | after
  · rw [List.getElem?_append_left before] at found
    exact .inl ⟨before, found⟩
  · exact .inr ⟨rfl, by simpa using found.symm⟩
  · rw [List.getElem?_eq_none (by simp; omega)] at found
    contradiction

theorem instrumentNext_passed {moduleId : String} {functions : List (Function ι)}
    {progress next : Progress ι} {f : Function ι}
    (passed : Passed env options decide functions progress)
    (taken : instrumentNext env options decide moduleId progress f = some next) :
    Passed env options decide (functions ++ [f]) next := by
  obtain ⟨g, appended, here⟩ : ∃ g, next.functions = progress.functions ++ [g] ∧
      Leaves env options decide functions functions.length f g := by
    obtain ⟨declaration, rfl⟩ | ⟨body, info, described, rfl⟩ := instrumentNext_cases taken
    · exact ⟨_, rfl, .inl ⟨declaration, rfl⟩⟩
    · refine ⟨_, rfl, .inr ⟨body, info.instrumented, (describe_eq_some described).2, ?_⟩⟩
      rw [functionIdAt, ← passed.counter]
  have counted : next.counter =
      BitVec.ofNat 64 (definedBefore (functions ++ [f]) (functions ++ [f]).length) := by
    rw [definedBefore_concat]
    obtain ⟨declaration, rfl⟩ | ⟨body, info, described, rfl⟩ := instrumentNext_cases taken
    · simp [declaration, passed.counter]
    · simp [body, passed.counter, BitVec.ofNat_add]
  refine ⟨counted, by simp [appended, passed.length], ?_⟩
  intro position h g' found left
  rw [appended] at left
  rcases getElem?_concat_cases found with ⟨before, found⟩ | ⟨rfl, rfl⟩
  · rw [List.getElem?_append_left (by rw [passed.length]; exact before)] at left
    exact (leaves_append (Nat.le_of_lt before)).mpr (passed.leaves position h g' found left)
  · rw [← passed.length] at left
    obtain rfl : g = g' := by simpa using left
    exact (leaves_append (Nat.le_refl _)).mpr here

/-- The functions that the pass declares stand after those of the module. -/
theorem foldl_getOrInsertFunction (m : Module ι) (names : List String) :
    ∃ declarations, (names.foldl Module.getOrInsertFunction m).functions =
      m.functions ++ declarations ∧ ∀ f ∈ declarations, f.isDeclaration = true := by
  induction names generalizing m with
  | nil => exact ⟨[], by simp, by simp⟩
  | cons name names ih =>
      obtain ⟨declarations, same, each⟩ := ih (m.getOrInsertFunction name)
      by_cases known : m.functions.any fun f => f.name = name
      · have kept : m.getOrInsertFunction name = m := by
          rw [Module.getOrInsertFunction, if_pos known]
        rw [kept] at same
        exact ⟨declarations, by rw [List.foldl_cons, kept, same], each⟩
      · have added : (m.getOrInsertFunction name).functions = m.functions ++ [declare ι name] := by
          rw [Module.getOrInsertFunction, if_neg known]
        refine ⟨declare ι name :: declarations, ?_, ?_⟩
        · rw [List.foldl_cons, same, added, List.append_assoc, List.singleton_append]
        · intro f listed
          rcases List.mem_cons.mp listed with rfl | later
          · rfl
          · exact each f later

/-- A finished loop has passed every function of the module and declarations. -/
theorem instrumentModule_passed {m : Module ι} {result : InstrumentModuleResult ι}
    (returned : instrumentModule env options decide m = some result) :
    ∃ declarations progress, (∀ f ∈ declarations, f.isDeclaration = true) ∧
      exec (instrumentNext env options decide m.identifier) (.start ι)
        (m.functions ++ declarations) = some progress ∧
      result.functions = progress.functions ∧ result.symbols = progress.symbols ∧
      Passed env options decide (m.functions ++ declarations) progress := by
  obtain ⟨declarations, same, each⟩ := foldl_getOrInsertFunction m runtimeFunctionNames
  simp only [instrumentModule, Option.map_eq_some_iff] at returned
  obtain ⟨progress, reached, rfl⟩ := returned
  rw [same] at reached
  refine ⟨declarations, progress, each, reached, rfl, rfl, ?_⟩
  refine history_invariant (fun _ _ => True) (Passed env options decide) ?_ ?_
    (fun _ _ _ _ _ _ => trivial) reached
  · exact ⟨rfl, rfl, by simp⟩
  · intro functions before f after passed _ taken
    exact instrumentNext_passed passed taken

/-- What the pass leaves for the function at a position of the module. -/
theorem instrumentModule_leaves {m : Module ι} {result : InstrumentModuleResult ι}
    (returned : instrumentModule env options decide m = some result) {position : Nat}
    {f : Function ι} (found : m.functions[position]? = some f) :
    ∃ g, result.functions[position]? = some g ∧
      Leaves env options decide m.functions position f g := by
  obtain ⟨declarations, progress, -, -, same, -, passed⟩ := instrumentModule_passed returned
  have inside : position < m.functions.length := (List.getElem?_eq_some_iff.mp found).1
  have inLoop : position < progress.functions.length := by
    rw [passed.length, List.length_append]
    omega
  have foundInLoop : (m.functions ++ declarations)[position]? = some f := by
    rw [List.getElem?_append_left inside, found]
  have left : progress.functions[position]? = some progress.functions[position] :=
    List.getElem?_eq_getElem inLoop
  refine ⟨progress.functions[position], by rw [same, left], ?_⟩
  exact (leaves_append (Nat.le_of_lt inside)).mp (passed.leaves position f _ foundInLoop left)

/-- Past the functions of the module there are only declarations. -/
theorem instrumentModule_declared {m : Module ι} {result : InstrumentModuleResult ι}
    (returned : instrumentModule env options decide m = some result) {position : Nat}
    {g : Function (ι ⊕ RuntimeCall)} (past : m.functions.length ≤ position)
    (left : result.functions[position]? = some g) : g.isDeclaration = true := by
  obtain ⟨declarations, progress, each, -, same, -, passed⟩ := instrumentModule_passed returned
  rw [same] at left
  have inside : position < (m.functions ++ declarations).length := by
    rw [← passed.length]
    exact (List.getElem?_eq_some_iff.mp left).1
  have found : (m.functions ++ declarations)[position]? = some _ := List.getElem?_eq_getElem inside
  have declared : (m.functions ++ declarations)[position].isDeclaration = true := by
    apply each
    rw [List.getElem_append_right past]
    exact List.getElem_mem _
  rcases passed.leaves position _ g found left with ⟨-, rfl⟩ | ⟨body, -⟩
  · simpa [Function.isDeclaration, Function.original] using declared
  · rw [declared] at body
    contradiction

theorem describe_isSome {moduleId : String} {counter : BitVec 64} {f : Function ι} :
    (describe env decide moduleId counter f).isSome = (accepts env decide f).isSome := by
  cases file : fileName f.subprogram with
  | none => simp [describe, accepts, file]
  | some file' =>
      cases decision : decide (filterInfo env f file') <;> simp [describe, accepts, file, decision]

theorem instrumentNext_isSome {moduleId : String} {progress : Progress ι} {f : Function ι} :
    (instrumentNext env options decide moduleId progress f).isSome = true ↔
      (f.isDeclaration = false → (accepts env decide f).isSome = true) := by
  cases declaration : f.isDeclaration with
  | true => simp [instrumentNext, declaration]
  | false =>
      rw [← @describe_isSome ι env decide moduleId progress.counter f]
      cases described : describe env decide moduleId progress.counter f <;>
        simp [instrumentNext, declaration, described]

/-- The pass returns unless the description of some function throws. -/
theorem instrumentModule_isSome {m : Module ι} :
    (instrumentModule env options decide m).isSome = true ↔
      ∀ f ∈ m.functions, f.isDeclaration = false → (accepts env decide f).isSome = true := by
  have loop : ∀ (functions : List (Function ι)) (progress : Progress ι),
      (exec (instrumentNext env options decide m.identifier) progress functions).isSome = true ↔
        ∀ f ∈ functions, f.isDeclaration = false → (accepts env decide f).isSome = true := by
    intro functions
    induction functions with
    | nil => simp
    | cons f functions ih =>
        intro progress
        have round := @instrumentNext_isSome ι env options decide m.identifier progress f
        cases taken : instrumentNext env options decide m.identifier progress f with
        | none =>
            have throws : ¬(f.isDeclaration = false → (accepts env decide f).isSome = true) := by
              rw [← round, taken]
              simp
            simp only [exec_cons, taken, Option.bind_none, Option.isSome_none, Bool.false_eq_true,
              false_iff]
            exact fun each => throws (each f (by simp))
        | some next =>
            rw [taken, Option.isSome_some, eq_self, true_iff] at round
            simp only [exec_cons, taken, Option.bind_some, ih next, List.forall_mem_cons]
            exact ⟨fun each => ⟨round, each⟩, fun each => each.2⟩
  obtain ⟨declarations, same, each⟩ := foldl_getOrInsertFunction m runtimeFunctionNames
  simp only [instrumentModule, Option.isSome_map, same, loop, List.mem_append]
  constructor
  · exact fun all f listed => all f (.inl listed)
  · intro all f listed body
    rcases listed with inModule | declared
    · exact all f inModule body
    · rw [each f declared] at body
      contradiction

end Loop

section Run

variable {ι : Type} {env : Environment} {options : Options}
  {regexMatch : String → String → Option Bool} {read : String → Except String (List Filters.Filter)}
  {write : String → SymbolsTable → Except SymbolsWriterError Unit}

/-- A run that returns and injects has instrumented the module with the default
    rule and the rules of the file. -/
theorem run_cases {m : Module ι} {all : Bool} {functions : List (Function (ι ⊕ RuntimeCall))}
    (finished : run env options regexMatch read write m = some (.preserved all functions)) :
    (options.injectInstrumentation = false ∧ all = true ∧
      functions = m.functions.map .original) ∨
    (options.injectInstrumentation = true ∧ ∃ filters result,
      fileFilters options read = .ok filters ∧
      instrumentModule env options
        (Filters.instrumentFunction regexMatch (Filters.defaultFilters ++ filters)) m =
          some result ∧ all = !result.modified ∧ functions = result.functions) := by
  cases inject : options.injectInstrumentation with
  | false =>
      simp only [run, inject, Bool.not_false, if_true, Option.some.injEq,
        RunResult.preserved.injEq] at finished
      exact .inl ⟨rfl, finished.1.symm, finished.2.symm⟩
  | true =>
      simp only [run, inject, Bool.not_true, Bool.false_eq_true, if_false] at finished
      cases listed : fileFilters options read with
      | error message => simp [listed] at finished
      | ok filters =>
          simp only [listed, Option.map_eq_some_iff] at finished
          obtain ⟨result, returned, outcome⟩ := finished
          refine .inr ⟨rfl, filters, result, rfl, returned, ?_⟩
          split at outcome
          · simp at outcome
          · simp only [RunResult.preserved.injEq] at outcome
            exact ⟨outcome.1.symm, outcome.2.symm⟩

end Run

end Spoor.Instrumentation
