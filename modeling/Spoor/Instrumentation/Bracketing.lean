import Mathlib.Data.List.Basic
import Spoor.Instrumentation.InjectInstrumentation

/-! # Instrumentation preserves the program and brackets every call

Deleting the created calls gives every body back.  A path of an instrumented
function from its entry to a return is a path of the original function with the
entry's calls in front of its first proper instruction and the exit's calls
directly before its return.
-/

namespace Spoor.Instrumentation

open Lib.ControlFlow

variable {ι : Type}

/-! ## Deleting the created calls -/

/-- The body without the calls that the pass created. -/
def deleteCreated (blocks : List (Block (ι ⊕ RuntimeCall))) : List (Block ι) :=
  blocks.map fun block => block.filterMap Instruction.original?

@[simp] theorem original?_original (i : Instruction ι) : i.original.original? = some i := rfl

theorem filterMap_original (block : Block ι) :
    (block.map Instruction.original).filterMap Instruction.original? = block := by
  induction block with
  | nil => rfl
  | cons i rest ih => simp [ih]

@[simp] theorem filterMap_createCall (calls : List RuntimeCall) :
    (calls.map (Instruction.createCall ι)).filterMap Instruction.original? = [] := by
  simp [List.filterMap_eq_nil_iff, Instruction.createCall, Instruction.original?]

theorem filterMap_insertBeforeReturns (calls : List RuntimeCall)
    (block : Block (ι ⊕ RuntimeCall)) :
    (insertBeforeReturns calls block).filterMap Instruction.original? =
      block.filterMap Instruction.original? := by
  induction block with
  | nil => rfl
  | cons i rest ih =>
      have split : insertBeforeReturns calls (i :: rest) =
          (if i.isReturn then calls.map (.createCall ι) ++ [i] else [i]) ++
            insertBeforeReturns calls rest := by
        simp [insertBeforeReturns]
      rw [split, List.filterMap_append, ih]
      by_cases returns : i.isReturn <;>
        simp [returns, List.filterMap_cons, -List.filterMap_map] <;> split <;> rfl

theorem deleteCreated_insertCalls (atEntry beforeReturns : List RuntimeCall)
    (blocks : List (Block ι)) :
    deleteCreated (insertCalls atEntry beforeReturns blocks) = blocks := by
  cases blocks with
  | nil => rfl
  | cons entry blocks =>
      rw [insertCalls_cons, deleteCreated, List.map_cons, List.map_map]
      congr 1
      · rw [filterMap_insertBeforeReturns, List.filterMap_append, List.filterMap_append,
          filterMap_original, filterMap_original, filterMap_createCall, List.append_nil,
          getFirstInsertionPt_append]
      · apply List.map_id''
        intro block
        exact (filterMap_insertBeforeReturns beforeReturns _).trans (filterMap_original block)

theorem deleteCreated_original (f : Function ι) : deleteCreated f.original.blocks = f.blocks := by
  rw [deleteCreated, Function.original, List.map_map]
  exact List.map_id'' filterMap_original f.blocks

/-! ## Paths -/

/-- The instructions executed from the entry of a function to a return. -/
def Function.Path (f : Function ι) (trace : List (Instruction ι)) : Prop :=
  ∃ entry, f.blocks.head? = some entry ∧ Runs Instruction.flow f.blocks entry trace

theorem flow_eq_leave {i : Instruction ι} : i.flow = .leave ↔ i.isReturn = true := by
  cases kind : i.kind <;> simp [Instruction.flow, Instruction.isReturn, Kind.flow, kind]

theorem flow_eq_jump {i : Instruction ι} {targets : List Nat} (jumps : i.flow = .jump targets) :
    i.kind.successors = targets := by
  cases kind : i.kind <;> simp_all [Instruction.flow, Kind.flow, Kind.successors]

theorem flow_original (i : Instruction ι) : i.original.flow = i.flow := rfl

theorem flow_createCall (ι : Type) (calls : List RuntimeCall) :
    ∀ e ∈ calls.map (Instruction.createCall ι), e.flow = .next := by
  intro e listed
  obtain ⟨call, -, rfl⟩ := List.mem_map.mp listed
  rfl

theorem insertBeforeReturns_original (calls : List RuntimeCall) (block : Block ι) :
    insertBeforeReturns calls (block.map Instruction.original) =
      beforeLeaving Instruction.flow Instruction.original (calls.map (.createCall ι)) block := by
  simp only [insertBeforeReturns, beforeLeaving, List.flatMap_map, flow_eq_leave]
  rfl

theorem avoidsEntry (f : Function ι) {block : Block ι} (listed : block ∈ f.blocks) :
    AvoidsEntry Instruction.flow block := by
  intro i inside targets jumps
  rw [← flow_eq_jump jumps]
  exact f.entryWithoutPredecessors block listed i inside

/-- A function with a body split at its insertion point. -/
theorem insertCalls_blocks {f : Function ι} {entry : Block ι} {blocks : List (Block ι)}
    (body : f.blocks = entry :: blocks) (atEntry beforeReturns : List RuntimeCall) :
    (f.insertCalls atEntry beforeReturns).blocks =
      ((getFirstInsertionPt entry).1.map .original ++ (atEntry.map (.createCall ι) ++
        beforeLeaving Instruction.flow Instruction.original (beforeReturns.map (.createCall ι))
          (getFirstInsertionPt entry).2)) ::
        blocks.map (beforeLeaving Instruction.flow Instruction.original
          (beforeReturns.map (.createCall ι))) := by
  have opens := opens_of_notCatchSwitch (f.entryNotCatchSwitch entry (by simp [body]))
  have fronts : ∀ i ∈ (getFirstInsertionPt entry).1.map Instruction.original,
      i.isReturn = false := by
    intro i listed
    obtain ⟨j, inFront, rfl⟩ := List.mem_map.mp listed
    rcases opens j inFront with kind | kind <;>
      simp [Instruction.isReturn, Instruction.original, kind]
  have calls : ∀ i ∈ atEntry.map (Instruction.createCall ι), i.isReturn = false := by
    intro i listed
    obtain ⟨call, -, rfl⟩ := List.mem_map.mp listed
    rfl
  simp only [Function.insertCalls, body, insertCalls_cons, insertBeforeReturns_append,
    insertBeforeReturns_of_stays fronts, insertBeforeReturns_of_stays calls,
    insertBeforeReturns_original, List.append_assoc]

/-- A trace with calls after its front and directly before its last instruction. -/
def bracketed (opening closing : List RuntimeCall) (front middle : List (Instruction ι))
    (last : Instruction ι) : List (Instruction (ι ⊕ RuntimeCall)) :=
  front.map .original ++ opening.map (.createCall ι) ++ middle.map .original ++
    closing.map (.createCall ι) ++ [last.original]

theorem flow_front {entry : Block ι}
    (opens : ∀ i ∈ (getFirstInsertionPt entry).1, i.kind = .phi ∨ i.kind = .pad) :
    ∀ i ∈ (getFirstInsertionPt entry).1, i.flow = .next := by
  intro i listed
  rcases opens i listed with kind | kind <;> simp [Instruction.flow, Kind.flow, kind]

theorem flow_front_original {front : Block ι} (falls : ∀ i ∈ front, i.flow = .next) :
    ∀ i ∈ front.map Instruction.original, i.flow = .next := by
  intro i listed
  obtain ⟨j, inFront, rfl⟩ := List.mem_map.mp listed
  exact falls j inFront

theorem avoidsEntry_insertionPt {entry : Block ι}
    (avoids : AvoidsEntry Instruction.flow entry) :
    AvoidsEntry Instruction.flow (getFirstInsertionPt entry).2 := by
  intro i listed
  apply avoids
  rw [← getFirstInsertionPt_append entry]
  exact List.mem_append_right _ listed

theorem path_of_insertCalls {f : Function ι} {atEntry beforeReturns : List RuntimeCall}
    {trace : List (Instruction (ι ⊕ RuntimeCall))}
    (path : (f.insertCalls atEntry beforeReturns).Path trace) :
    ∃ front middle last, trace = bracketed atEntry beforeReturns front middle last ∧
      (∀ i ∈ front, i.kind = .phi ∨ i.kind = .pad) ∧ last.isReturn = true ∧
      f.Path (front ++ middle ++ [last]) := by
  obtain ⟨first, isFirst, runs⟩ := path
  cases body : f.blocks with
  | nil => simp [Function.insertCalls, insertCalls, insertAtEntry, body] at isFirst
  | cons entry blocks =>
      have opens := opens_of_notCatchSwitch (f.entryNotCatchSwitch entry (by simp [body]))
      have avoids : ∀ block ∈ entry :: blocks, AvoidsEntry Instruction.flow block :=
        fun block listed => avoidsEntry f (body ▸ listed)
      rw [insertCalls_blocks body, List.head?_cons, Option.some.injEq] at isFirst
      rw [insertCalls_blocks body, ← isFirst] at runs
      obtain ⟨afterFront, rfl, pastFront⟩ :=
        (runs_append (flow_front_original (flow_front opens))).mp runs
      obtain ⟨afterCalls, rfl, pastCalls⟩ := (runs_append (flow_createCall ι atEntry)).mp pastFront
      have avoidsHere := avoidsEntry_insertionPt (avoids entry (by simp))
      obtain ⟨middle, last, rfl, leaves, plain⟩ :=
        runs_beforeLeaving flow_original (flow_createCall ι beforeReturns) avoids avoidsHere
          pastCalls
      refine ⟨(getFirstInsertionPt entry).1, middle, last, by simp [bracketed], opens,
        flow_eq_leave.mp leaves, entry, by simp [body], ?_⟩
      rw [body, List.append_assoc]
      nth_rewrite 2 [← getFirstInsertionPt_append entry]
      exact (runs_append (flow_front opens)).mpr ⟨_, rfl, plain⟩

theorem insertCalls_of_path {f : Function ι} (atEntry beforeReturns : List RuntimeCall)
    {trace : List (Instruction ι)} (path : f.Path trace) :
    ∃ front middle last, trace = front ++ middle ++ [last] ∧
      (f.insertCalls atEntry beforeReturns).Path
        (bracketed atEntry beforeReturns front middle last) := by
  obtain ⟨entry, isEntry, runs⟩ := path
  obtain ⟨blocks, body⟩ : ∃ blocks, f.blocks = entry :: blocks := List.head?_eq_some_iff.mp isEntry
  have opens := opens_of_notCatchSwitch (f.entryNotCatchSwitch entry isEntry)
  have avoids : ∀ block ∈ entry :: blocks, AvoidsEntry Instruction.flow block :=
    fun block listed => avoidsEntry f (body ▸ listed)
  rw [body] at runs
  nth_rewrite 2 [← getFirstInsertionPt_append entry] at runs
  obtain ⟨after, rfl, pastFront⟩ := (runs_append (flow_front opens)).mp runs
  have avoidsHere := avoidsEntry_insertionPt (avoids entry (by simp))
  obtain ⟨middle, last, rfl, extended⟩ :=
    beforeLeaving_runs flow_original (flow_createCall ι beforeReturns) avoids avoidsHere pastFront
  refine ⟨(getFirstInsertionPt entry).1, middle, last, by simp, _,
    by rw [insertCalls_blocks body, List.head?_cons], ?_⟩
  rw [insertCalls_blocks body, bracketed, List.append_assoc, List.append_assoc, List.append_assoc]
  refine (runs_append (flow_front_original (flow_front opens))).mpr ⟨_, rfl, ?_⟩
  refine (runs_append (flow_createCall ι atEntry)).mpr ⟨_, rfl, ?_⟩
  simpa using extended

/-! ## The whole module -/

section Bracketing

variable {env : Environment} {options : Options}
  {decide : Filters.FunctionInfo → Option Filters.InstrumentFunctionResult}

/-- Every body is given back by deleting the created calls, and declarations and
    rejected functions have none.  The paths of an accepted function are those of
    the original one between the calls of its entry and of its exit. -/
theorem instrumentModule_brackets {m : Module ι} {result : InstrumentModuleResult ι}
    (returned : instrumentModule env options decide m = some result) :
    (∀ position f, m.functions[position]? = some f →
      ∃ g, result.functions[position]? = some g ∧ g.name = f.name ∧
        deleteCreated g.blocks = f.blocks ∧
        (f.isDeclaration = true ∨ accepts env decide f = some false → g = f.original) ∧
        (f.isDeclaration = false → accepts env decide f = some true →
          ∀ opening closing, opening =
              (if f.name = "main" ∧ options.initializeRuntime = true then
                [RuntimeCall.initializeRuntime] ++
                  (if options.enableRuntime = true then [.enableRuntime] else [])
              else []) ++ [.logFunctionEntry (functionIdAt env.moduleHash m.functions position)] →
            closing = [.logFunctionExit (functionIdAt env.moduleHash m.functions position)] ++
              (if f.name = "main" then [.deinitializeRuntime] else []) →
            (∀ trace, g.Path trace → ∃ front middle last,
              trace = bracketed opening closing front middle last ∧
              (∀ i ∈ front, i.kind = .phi ∨ i.kind = .pad) ∧ last.isReturn = true ∧
              f.Path (front ++ middle ++ [last])) ∧
            (∀ trace, f.Path trace → ∃ front middle last, trace = front ++ middle ++ [last] ∧
              g.Path (bracketed opening closing front middle last)))) ∧
    ∀ position g, m.functions.length ≤ position → result.functions[position]? = some g →
      g.isDeclaration = true := by
  refine ⟨?_, fun position g past left => instrumentModule_declared returned past left⟩
  intro position f found
  obtain ⟨g, left, leaves⟩ := instrumentModule_leaves returned found
  refine ⟨g, left, ?_⟩
  rcases leaves with ⟨declaration, rfl⟩ | ⟨body, instrumented, accepted, rfl⟩
  · refine ⟨rfl, deleteCreated_original f, fun _ => rfl, ?_⟩
    intro body
    rw [declaration] at body
    contradiction
  · cases instrumented with
    | false =>
        refine ⟨rfl, deleteCreated_original f, fun _ => rfl, ?_⟩
        intro _ acceptedTrue
        rw [accepted] at acceptedTrue
        contradiction
    | true =>
        refine ⟨rfl, deleteCreated_insertCalls _ _ f.blocks, ?_, ?_⟩
        · rintro (declaration | rejected)
          · rw [body] at declaration
            contradiction
          · rw [accepted] at rejected
            contradiction
        · rintro _ _ opening closing rfl rfl
          exact ⟨fun trace path => path_of_insertCalls path,
            fun trace path => insertCalls_of_path _ _ path⟩

/-- A main function that branches to one of two returns. -/
def sampleMain : Function String where
  name := "main"
  subprogram := none
  blocks := [[⟨.plain, "compare"⟩, ⟨.terminator [1, 2], "branch"⟩], [⟨.ret, "return 0"⟩],
    [⟨.call false, "call abort"⟩, ⟨.ret, "return 1"⟩]]
  terminated := by
    intro block listed
    simp only [List.mem_cons, List.not_mem_nil, or_false] at listed
    rcases listed with rfl | rfl | rfl
    · exact ⟨[⟨.plain, "compare"⟩], _, rfl, rfl, by simp [Kind.isTerminator]⟩
    · exact ⟨[], _, rfl, rfl, by simp⟩
    · exact ⟨[⟨.call false, "call abort"⟩], _, rfl, rfl, by simp [Kind.isTerminator]⟩
  entryWithoutPredecessors := by decide
  entryNotCatchSwitch := by simp [Kind.isEhPad]

def sampleModule : Module String := ⟨"sample.ll", [sampleMain, declare String "abort"]⟩

def sampleEnvironment : Environment where
  isSwiftSymbol _ := false
  demangleSymbolAsString name := name
  demangle name := name
  moduleHash := 0x89ABCDEF
  now _ := 0

def sampleOptions : Options := ⟨true, none, "symbols", true, true⟩

theorem sampleMain_path :
    sampleMain.Path [⟨.plain, "compare"⟩, ⟨.terminator [1, 2], "branch"⟩, ⟨.ret, "return 0"⟩] :=
  ⟨_, rfl, .next rfl (@Runs.jump _ _ _ _ _ _ _ _ 1 rfl (by decide) rfl (.leave rfl))⟩

theorem sampleModule_brackets :
    ∃ result g, instrumentModule sampleEnvironment sampleOptions (fun _ => some ⟨true, none⟩)
        sampleModule = some result ∧
      result.functions[0]? = some g ∧ deleteCreated g.blocks = sampleMain.blocks ∧
      (∃ trace, g.Path trace) ∧ ∀ trace, g.Path trace → ∃ front middle last,
        trace = bracketed
          [.initializeRuntime, .enableRuntime, .logFunctionEntry 0x89ABCDEF00000000]
          [.logFunctionExit 0x89ABCDEF00000000, .deinitializeRuntime] front middle last ∧
        sampleMain.Path (front ++ middle ++ [last]) := by
  obtain ⟨result, returned⟩ := Option.isSome_iff_exists.mp
    (show (instrumentModule sampleEnvironment sampleOptions (fun _ => some ⟨true, none⟩)
      sampleModule).isSome = true from rfl)
  obtain ⟨g, left, -, body, -, paths⟩ := (instrumentModule_brackets returned).1 0 sampleMain rfl
  obtain ⟨forward, backward⟩ := paths rfl rfl _ _ rfl rfl
  obtain ⟨front, middle, last, -, path⟩ := backward _ sampleMain_path
  refine ⟨result, g, returned, left, body, ⟨_, path⟩, ?_⟩
  intro trace taken
  obtain ⟨front, middle, last, same, -, -, plain⟩ := forward trace taken
  exact ⟨front, middle, last, same, plain⟩

end Bracketing

end Spoor.Instrumentation
