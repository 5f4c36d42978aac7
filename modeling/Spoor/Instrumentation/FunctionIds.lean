import Mathlib.Data.List.Nodup
import Mathlib.Data.List.Range
import Spoor.Instrumentation.Bracketing

/-! # Function ids identify functions

The id of a function holds the hash of its module and its number among the
functions with a body.  While the numbers fit in the lower half of an id, the
table has one entry with one record for each of them, and the calls inserted in
a function carry the id of its record.
-/

namespace Spoor.Instrumentation

open Lib.Transition

variable {ι : Type}

theorem makeFunctionId_inj {moduleHash : BitVec 32} {a b : Nat} (aFits : a < 2 ^ 32)
    (bFits : b < 2 ^ 32)
    (same : makeFunctionId moduleHash (BitVec.ofNat 64 a) =
      makeFunctionId moduleHash (BitVec.ofNat 64 b)) : a = b := by
  have lower : ∀ n, (makeFunctionId moduleHash (BitVec.ofNat 64 n)).setWidth 32 =
      BitVec.ofNat 32 n := by
    intro n
    ext i inside
    simp [makeFunctionId]
  have halves := congrArg (BitVec.setWidth 32) same
  rw [lower, lower] at halves
  have numbers := congrArg BitVec.toNat halves
  rw [BitVec.toNat_ofNat, BitVec.toNat_ofNat, Nat.mod_eq_of_lt aFits,
    Nat.mod_eq_of_lt bFits] at numbers
  exact numbers

theorem addFunctionInfo_of_fresh {id : FunctionId} {table : SymbolsTable}
    (fresh : id ∉ table.map Prod.fst) (info : FunctionInfo) :
    addFunctionInfo id info table = table ++ [(id, [info])] := by
  induction table with
  | nil => rfl
  | cons entry table ih =>
      have other : entry.1 ≠ id := by
        rintro rfl
        simp at fresh
      have later : id ∉ table.map Prod.fst := by
        intro listed
        apply fresh
        rw [List.map_cons]
        exact List.mem_cons_of_mem _ listed
      rw [addFunctionInfo, if_neg other, ih later, List.cons_append]

section Table

variable {env : Environment} {options : Options}
  {decide : Filters.FunctionInfo → Option Filters.InstrumentFunctionResult}

/-- The table has the ids of the functions passed as its keys, and each entry is
    the one record of one of them. -/
structure Recorded (env : Environment)
    (decide : Filters.FunctionInfo → Option Filters.InstrumentFunctionResult)
    (functions : List (Function ι)) (symbols : SymbolsTable) : Prop where
  keys : symbols.map Prod.fst = (List.range (definedBefore functions functions.length)).map
    fun number => makeFunctionId env.moduleHash (BitVec.ofNat 64 number)
  entries : ∀ entry ∈ symbols, ∃ position f info, functions[position]? = some f ∧
    f.isDeclaration = false ∧ entry = (functionIdAt env.moduleHash functions position, [info]) ∧
    info.linkageName = f.name ∧ accepts env decide f = some info.instrumented
  present : ∀ position f, functions[position]? = some f → f.isDeclaration = false →
    functionIdAt env.moduleHash functions position ∈ symbols.map Prod.fst

theorem functionIdAt_append {moduleHash : BitVec 32} {functions : List (Function ι)}
    {position : Nat}
    (inside : position ≤ functions.length) (more : List (Function ι)) :
    functionIdAt moduleHash (functions ++ more) position =
      functionIdAt moduleHash functions position := by
  rw [functionIdAt, definedBefore_append inside, functionIdAt]

theorem definedBefore_le (functions : List (Function ι)) (position : Nat) :
    definedBefore functions position ≤ definedBefore functions functions.length := by
  rw [definedBefore, definedBefore, List.take_length]
  exact (List.take_sublist position functions).countP_le

theorem Recorded.declared {functions : List (Function ι)} {symbols : SymbolsTable}
    {f : Function ι} (recorded : Recorded env decide functions symbols)
    (declaration : f.isDeclaration = true) : Recorded env decide (functions ++ [f]) symbols := by
  refine ⟨?_, ?_, ?_⟩
  · rw [definedBefore_concat, declaration, recorded.keys]
    rfl
  · intro entry listed
    obtain ⟨position, g, info, found, body, rfl, known⟩ := recorded.entries entry listed
    have inside : position < functions.length := (List.getElem?_eq_some_iff.mp found).1
    refine ⟨position, g, info, ?_, body, ?_, known⟩
    · rw [List.getElem?_append_left inside, found]
    · rw [functionIdAt_append (Nat.le_of_lt inside)]
  · intro position g found body
    rcases getElem?_concat_cases found with ⟨inside, found⟩ | ⟨rfl, rfl⟩
    · rw [functionIdAt_append (Nat.le_of_lt inside)]
      exact recorded.present position g found body
    · rw [declaration] at body
      contradiction

theorem Recorded.defined {functions : List (Function ι)} {symbols : SymbolsTable}
    {f : Function ι} {info : FunctionInfo} (recorded : Recorded env decide functions symbols)
    (body : f.isDeclaration = false) (fits : definedBefore functions functions.length < 2 ^ 32)
    (named : info.linkageName = f.name) (accepted : accepts env decide f = some info.instrumented) :
    Recorded env decide (functions ++ [f])
      (addFunctionInfo (functionIdAt env.moduleHash functions functions.length) info symbols) := by
  have fresh : functionIdAt env.moduleHash functions functions.length ∉ symbols.map Prod.fst := by
    rw [recorded.keys, List.mem_map]
    rintro ⟨number, listed, same⟩
    have smaller : number < definedBefore functions functions.length := List.mem_range.mp listed
    have equal := makeFunctionId_inj (by omega) fits same
    omega
  rw [addFunctionInfo_of_fresh fresh]
  refine ⟨?_, ?_, ?_⟩
  · rw [definedBefore_concat, body, List.map_append, recorded.keys]
    simp [List.range_succ, functionIdAt]
  · intro entry listed
    rcases List.mem_append.mp listed with earlier | last
    · obtain ⟨position, g, older, found, defined, rfl, known⟩ := recorded.entries entry earlier
      have inside : position < functions.length := (List.getElem?_eq_some_iff.mp found).1
      refine ⟨position, g, older, ?_, defined, ?_, known⟩
      · rw [List.getElem?_append_left inside, found]
      · rw [functionIdAt_append (Nat.le_of_lt inside)]
    · rw [List.mem_singleton] at last
      refine ⟨functions.length, f, info, by simp, body, ?_, named, accepted⟩
      rw [last, functionIdAt_append (Nat.le_refl _)]
  · intro position g found defined
    rw [List.map_append, List.mem_append]
    rcases getElem?_concat_cases found with ⟨inside, found⟩ | ⟨rfl, rfl⟩
    · rw [functionIdAt_append (Nat.le_of_lt inside)]
      exact .inl (recorded.present position g found defined)
    · rw [functionIdAt_append (Nat.le_refl _)]
      exact .inr (by simp)

/-- The loop records the functions it passes while their numbers fit. -/
theorem exec_recorded {moduleId : String} {functions : List (Function ι)} {progress : Progress ι}
    (reached : exec (instrumentNext env options decide moduleId) (.start ι) functions =
      some progress)
    (fits : definedBefore functions functions.length ≤ 2 ^ 32) :
    Recorded env decide functions progress.symbols := by
  suffices both : Passed env options decide functions progress ∧
      (definedBefore functions functions.length ≤ 2 ^ 32 →
        Recorded env decide functions progress.symbols) from both.2 fits
  refine history_invariant (fun _ _ => True)
    (fun passed progress => Passed env options decide passed progress ∧
      (definedBefore passed passed.length ≤ 2 ^ 32 → Recorded env decide passed progress.symbols))
    ?_ ?_ (fun _ _ _ _ _ _ => trivial) reached
  · refine ⟨⟨rfl, rfl, by simp⟩, fun _ => ⟨rfl, ?_, ?_⟩⟩
    · simp [Progress.start]
    · simp
  · rintro functions before f after ⟨passed, recorded⟩ - taken
    refine ⟨instrumentNext_passed passed taken, ?_⟩
    intro fits
    rw [definedBefore_concat] at fits
    obtain ⟨declaration, rfl⟩ | ⟨body, info, described, rfl⟩ := instrumentNext_cases taken
    · exact (recorded (by omega)).declared declaration
    · rw [body] at fits
      have room : definedBefore functions functions.length + 1 ≤ 2 ^ 32 := by simpa using fits
      obtain ⟨named, accepted⟩ := describe_eq_some described
      have extended := (recorded (by omega)).defined body (by omega) named accepted
      rwa [functionIdAt, ← passed.counter] at extended

theorem definedBefore_mono (functions : List (Function ι)) {position later : Nat}
    (order : position ≤ later) :
    definedBefore functions position ≤ definedBefore functions later :=
  (List.take_prefix_take_left order).sublist.countP_le

theorem definedBefore_lt {functions : List (Function ι)} {f : Function ι} {position later : Nat}
    (found : functions[position]? = some f) (body : f.isDeclaration = false)
    (order : position < later) :
    definedBefore functions position < definedBefore functions later := by
  have next : definedBefore functions (position + 1) = definedBefore functions position + 1 := by
    simp [definedBefore, List.take_add_one, found, body]
  have after : definedBefore functions (position + 1) ≤ definedBefore functions later :=
    definedBefore_mono functions order
  omega

/-- Functions with a body have different ids. -/
theorem functionIdAt_inj {moduleHash : BitVec 32} {functions : List (Function ι)}
    (few : definedBefore functions functions.length < 2 ^ 32) {f g : Function ι}
    {position other : Nat} (found : functions[position]? = some f)
    (foundOther : functions[other]? = some g) (body : f.isDeclaration = false)
    (bodyOther : g.isDeclaration = false)
    (same : functionIdAt moduleHash functions position = functionIdAt moduleHash functions other) :
    position = other := by
  have inside : ∀ place, definedBefore functions place < 2 ^ 32 := fun place =>
    Nat.lt_of_le_of_lt (definedBefore_le functions place) few
  have numbers := makeFunctionId_inj (inside position) (inside other) same
  rcases Nat.lt_trichotomy position other with before | equal | after
  · have := definedBefore_lt found body before
    omega
  · exact equal
  · have := definedBefore_lt foundOther bodyOther after
    omega

theorem mem_calls {f : Function ι} {key id : FunctionId} {call : RuntimeCall}
    (listed : call ∈ entryCalls options f key ++ returnCalls f key)
    (logs : call = .logFunctionEntry id ∨ call = .logFunctionExit id) : id = key := by
  have shapes : call = .initializeRuntime ∨ call = .enableRuntime ∨ call = .deinitializeRuntime ∨
      call = .logFunctionEntry key ∨ call = .logFunctionExit key := by
    simp only [entryCalls, returnCalls, List.mem_append, List.mem_cons, List.not_mem_nil] at listed
    grind
  rcases logs with rfl | rfl <;> simpa using shapes

/-- The calls that the pass creates in a function carry its id. -/
theorem created_id {functions : List (Function ι)} {position : Nat} {f : Function ι}
    {g : Function (ι ⊕ RuntimeCall)} (leaves : Leaves env options decide functions position f g)
    {block : Block (ι ⊕ RuntimeCall)} (listed : block ∈ g.blocks)
    {i : Instruction (ι ⊕ RuntimeCall)} (inside : i ∈ block) {id : FunctionId}
    (logs : i.created? = some (.logFunctionEntry id) ∨ i.created? = some (.logFunctionExit id)) :
    f.isDeclaration = false ∧ id = functionIdAt env.moduleHash functions position := by
  have untouched : block ∉ f.original.blocks := by
    intro inOriginal
    obtain ⟨plain, -, rfl⟩ := List.mem_map.mp inOriginal
    obtain ⟨j, -, rfl⟩ := List.mem_map.mp inside
    simp [Instruction.created?, Instruction.original] at logs
  rcases leaves with ⟨-, rfl⟩ | ⟨body, instrumented, -, rfl⟩
  · exact absurd listed untouched
  · refine ⟨body, ?_⟩
    cases instrumented with
    | false => exact absurd listed untouched
    | true =>
        rcases mem_insertCalls listed inside with ⟨plain, -, j, -, rfl⟩ | ⟨call, inCalls, rfl⟩
        · simp [Instruction.created?, Instruction.original] at logs
        · have carried : call = .logFunctionEntry id ∨ call = .logFunctionExit id := by
            simpa [Instruction.created?, Instruction.createCall] using logs
          exact mem_calls inCalls carried

theorem definedBefore_declarations {functions declarations : List (Function ι)}
    (each : ∀ f ∈ declarations, f.isDeclaration = true) :
    definedBefore (functions ++ declarations) (functions ++ declarations).length =
      definedBefore functions functions.length := by
  have none : (declarations.countP fun f => !f.isDeclaration) = 0 := by
    simpa [List.countP_eq_zero] using each
  rw [definedBefore, List.take_length, definedBefore, List.take_length, List.countP_append, none,
    Nat.add_zero]

theorem getElem?_declarations {functions declarations : List (Function ι)}
    (each : ∀ f ∈ declarations, f.isDeclaration = true) {position : Nat} {f : Function ι}
    (found : (functions ++ declarations)[position]? = some f) (body : f.isDeclaration = false) :
    position < functions.length ∧ functions[position]? = some f := by
  by_cases inside : position < functions.length
  · rw [List.getElem?_append_left inside] at found
    exact ⟨inside, found⟩
  · rw [List.getElem?_append_right (Nat.le_of_not_lt inside)] at found
    rw [each f (List.mem_of_getElem? found)] at body
    contradiction

/-- The records do not depend on declarations after the module's functions. -/
theorem Recorded.of_append {functions declarations : List (Function ι)} {symbols : SymbolsTable}
    (recorded : Recorded env decide (functions ++ declarations) symbols)
    (each : ∀ f ∈ declarations, f.isDeclaration = true) :
    Recorded env decide functions symbols := by
  refine ⟨?_, ?_, ?_⟩
  · rw [recorded.keys, definedBefore_declarations each]
  · intro entry listed
    obtain ⟨position, f, info, found, body, rfl, known⟩ := recorded.entries entry listed
    obtain ⟨inside, found⟩ := getElem?_declarations each found body
    exact ⟨position, f, info, found, body,
      by rw [functionIdAt_append (Nat.le_of_lt inside)], known⟩
  · intro position f found body
    have inside : position < functions.length := (List.getElem?_eq_some_iff.mp found).1
    rw [← functionIdAt_append (Nat.le_of_lt inside) declarations]
    exact recorded.present position f (by rw [List.getElem?_append_left inside, found]) body

theorem instrumentModule_recorded {m : Module ι} {result : InstrumentModuleResult ι}
    (returned : instrumentModule env options decide m = some result)
    (few : definedBefore m.functions m.functions.length < 2 ^ 32) :
    Recorded env decide m.functions result.symbols := by
  obtain ⟨declarations, progress, each, reached, -, same, -⟩ := instrumentModule_passed returned
  rw [same]
  refine (exec_recorded reached ?_).of_append each
  rw [definedBefore_declarations each]
  exact Nat.le_of_lt few

theorem Recorded.nodup {functions : List (Function ι)} {symbols : SymbolsTable}
    (recorded : Recorded env decide functions symbols)
    (few : definedBefore functions functions.length < 2 ^ 32) : (symbols.map Prod.fst).Nodup := by
  rw [recorded.keys]
  refine List.Nodup.map_on ?_ List.nodup_range
  intro a aListed b bListed same
  rw [List.mem_range] at aListed bListed
  exact makeFunctionId_inj (by omega) (by omega) same

/-- The defined functions of a module have different ids; the table has one key
    for each of them with its one record; and the log calls of a function carry
    the id of its record. -/
theorem instrumentModule_ids {m : Module ι} {result : InstrumentModuleResult ι}
    (returned : instrumentModule env options decide m = some result)
    (few : (m.functions.countP fun f => !f.isDeclaration) < 2 ^ 32) :
    (∀ position other f g, m.functions[position]? = some f → m.functions[other]? = some g →
      f.isDeclaration = false → g.isDeclaration = false →
      functionIdAt env.moduleHash m.functions position =
        functionIdAt env.moduleHash m.functions other → position = other) ∧
    (result.symbols.map Prod.fst).Nodup ∧
    result.symbols.length = (m.functions.countP fun f => !f.isDeclaration) ∧
    (∀ entry ∈ result.symbols, ∃ position f info, m.functions[position]? = some f ∧
      f.isDeclaration = false ∧
      entry = (functionIdAt env.moduleHash m.functions position, [info]) ∧
      info.linkageName = f.name ∧ accepts env decide f = some info.instrumented) ∧
    (∀ position f, m.functions[position]? = some f → f.isDeclaration = false → ∃ info,
      (functionIdAt env.moduleHash m.functions position, [info]) ∈ result.symbols ∧
      info.linkageName = f.name ∧ accepts env decide f = some info.instrumented) ∧
    (∀ position g block i id, result.functions[position]? = some g → block ∈ g.blocks → i ∈ block →
      i.created? = some (.logFunctionEntry id) ∨ i.created? = some (.logFunctionExit id) →
      ∃ f, m.functions[position]? = some f ∧ f.isDeclaration = false ∧
        id = functionIdAt env.moduleHash m.functions position) := by
  have counted : definedBefore m.functions m.functions.length =
      m.functions.countP fun f => !f.isDeclaration := by
    rw [definedBefore, List.take_length]
  rw [← counted] at few ⊢
  have recorded := instrumentModule_recorded returned few
  refine ⟨?_, recorded.nodup few, ?_, recorded.entries, ?_, ?_⟩
  · intro position other f g found foundOther body bodyOther same
    exact functionIdAt_inj few found foundOther body bodyOther same
  · have lengths := congrArg List.length recorded.keys
    simpa using lengths
  · intro position f found body
    obtain ⟨entry, listed, key⟩ := List.mem_map.mp (recorded.present position f found body)
    obtain ⟨place, g, info, foundPlace, bodyPlace, rfl, known⟩ := recorded.entries entry listed
    obtain rfl := functionIdAt_inj few found foundPlace body bodyPlace key.symm
    obtain rfl : f = g := Option.some.inj (found.symm.trans foundPlace)
    exact ⟨info, listed, known⟩
  · intro position g block i id left listed inside logs
    by_cases past : m.functions.length ≤ position
    · have declared := instrumentModule_declared returned past left
      simp only [Function.isDeclaration, List.isEmpty_iff] at declared
      rw [declared] at listed
      contradiction
    · obtain ⟨h, left', leaves⟩ := instrumentModule_leaves returned
        (List.getElem?_eq_getElem (Nat.lt_of_not_le past))
      obtain rfl : g = h := Option.some.inj (left.symm.trans left')
      obtain ⟨body, carried⟩ := created_id leaves listed inside logs
      exact ⟨_, List.getElem?_eq_getElem (Nat.lt_of_not_le past), body, carried⟩

/-- A module with an instrumented function, a rejected one and a declaration. -/
def mixedModule : Module String :=
  ⟨"mixed.ll", [sampleMain, declare String "abort", { sampleMain with name := "helper" }]⟩

theorem mixedModule_ids :
    ∃ result, instrumentModule sampleEnvironment sampleOptions
        (fun info => some ⟨info.linkageName = "main", none⟩) mixedModule = some result ∧
      (mixedModule.functions.countP fun f => !f.isDeclaration) < 2 ^ 32 ∧
      result.symbols.length = 2 ∧
      ∃ info, (0x89ABCDEF00000001, [info]) ∈ result.symbols ∧ info.linkageName = "helper" ∧
        info.instrumented = false := by
  obtain ⟨result, returned⟩ := Option.isSome_iff_exists.mp
    (show (instrumentModule sampleEnvironment sampleOptions
      (fun info => some ⟨info.linkageName = "main", none⟩) mixedModule).isSome = true from rfl)
  have few : (mixedModule.functions.countP fun f => !f.isDeclaration) < 2 ^ 32 := by decide
  obtain ⟨-, -, count, -, records, -⟩ := instrumentModule_ids returned few
  obtain ⟨info, listed, named, accepted⟩ := records 2 _ rfl rfl
  refine ⟨result, returned, few, count, info, listed, named, ?_⟩
  exact (Option.some.inj accepted).symm

end Table

end Spoor.Instrumentation
