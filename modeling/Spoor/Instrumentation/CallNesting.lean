import Spoor.Instrumentation.FunctionIds
import Spoor.Instrumentation.Simulation
import Spoor.Lib.Nesting

/-! # The logged calls are the call stack

Each thread of an instrumented program logs the entries and exits of the
instrumented functions it runs.  They nest, and what they leave open at any time
are the instrumented functions on the stack of the thread.  A frame that an
exception takes off the stack has no exit call, and counts as closed there.
-/

namespace Spoor.Instrumentation.Execution

open Lib.ControlFlow Lib.Nesting Lib.Transition

variable {ι μ χ : Type}

/-! ## What a frame still has to log -/

def isEntry (i : Instruction (ι ⊕ RuntimeCall)) : Bool :=
  match i.content with
  | .inr (.logFunctionEntry _) => true
  | _ => false

def isExit (i : Instruction (ι ⊕ RuntimeCall)) : Bool :=
  match i.content with
  | .inr (.logFunctionExit _) => true
  | _ => false

/-- The code is behind the entry call of its function and not behind the exit call
    of its return. -/
def isOpen (code : Block (ι ⊕ RuntimeCall)) : Bool :=
  !code.any isEntry && (code.any isExit || !code.any (·.isReturn))

/-- The id of the function that a frame has entered and not left, if it is logged. -/
def Frame.openId (idOf : Nat → Option FunctionId) : Frame ι → Option FunctionId
  | .outside => none
  | .running function code => if isOpen code then idOf function else none
  | .waiting function _ _ | .answered function _ _ _ => idOf function

/-- The ids of the logged functions on a stack, the innermost first. -/
def openIds (idOf : Nat → Option FunctionId) (stack : List (Frame ι)) : List FunctionId :=
  stack.filterMap (Frame.openId idOf)

/-- The bracket that a happening is, if the functions have the given ids. -/
def bracket? (idOf : Nat → Option FunctionId) : Happening → Option (Bracket FunctionId)
  | .called (.logFunctionEntry id) => some (.enter id)
  | .called (.logFunctionExit id) => some (.exit id)
  | .called _ => none
  | .abandoned function => (idOf function).map .exit

/-- What happened in a thread. -/
def State.happenings (s : State ι μ) (thread : Nat) : List Happening :=
  (s.log.filter fun entry => entry.1 = thread).map Prod.snd

/-! ## The stages of an instrumented function -/

/-- A call that is not one of the entry and exit of a function. -/
def Quiet (call : RuntimeCall) : Prop :=
  ∀ id, call ≠ .logFunctionEntry id ∧ call ≠ .logFunctionExit id

/-- A block of an instrumented function behind its entry call. -/
def withExits (id : FunctionId) (closing : List RuntimeCall) (block : Block ι) :
    Block (ι ⊕ RuntimeCall) :=
  beforeLeaving Instruction.flow Instruction.original
    ((RuntimeCall.logFunctionExit id :: closing).map (.createCall ι)) block

/-- A return ends the list. -/
def ReturnsLast (block : Block ι) : Prop :=
  ∀ before i after, block = before ++ i :: after → i.isReturn = true → after = []

/-- Where the rest of a block of an instrumented function stands. -/
inductive Stage (id : FunctionId) (code : Block (ι ⊕ RuntimeCall)) : Prop where
  | entering (front inner : Block ι) (calls closing : List RuntimeCall)
      (opens : ∀ i ∈ front, i.kind = .phi ∨ i.kind = .pad)
      (quiet : ∀ call ∈ calls ++ closing, Quiet call)
      (here : code = front.map .original ++ (calls.map (.createCall ι) ++
        .createCall ι (.logFunctionEntry id) :: withExits id closing inner))
  | inside (inner : Block ι) (closing : List RuntimeCall) (quiet : ∀ call ∈ closing, Quiet call)
      (last : ReturnsLast inner) (here : code = withExits id closing inner)
  | leaving (calls : List RuntimeCall) (last : Instruction ι) (quiet : ∀ call ∈ calls, Quiet call)
      (returns : last.isReturn = true) (here : code = calls.map (.createCall ι) ++ [last.original])

@[simp] theorem isEntry_original (i : Instruction ι) : isEntry i.original = false := rfl

@[simp] theorem isExit_original (i : Instruction ι) : isExit i.original = false := rfl

@[simp] theorem isReturn_createCall (call : RuntimeCall) :
    (Instruction.createCall ι call).isReturn = false := rfl

@[simp] theorem isReturn_original (i : Instruction ι) : i.original.isReturn = i.isReturn := rfl

theorem Quiet.isEntry {call : RuntimeCall} (quiet : Quiet call) :
    isEntry (.createCall ι call) = false := by
  cases call with
  | logFunctionEntry id => exact absurd rfl (quiet id).1
  | _ => rfl

theorem Quiet.isExit {call : RuntimeCall} (quiet : Quiet call) :
    isExit (.createCall ι call) = false := by
  cases call with
  | logFunctionExit id => exact absurd rfl (quiet id).2
  | _ => rfl

theorem quiet_any {calls : List RuntimeCall} (quiet : ∀ call ∈ calls, Quiet call) :
    (calls.map (Instruction.createCall ι)).any isEntry = false ∧
      (calls.map (Instruction.createCall ι)).any isExit = false ∧
      (calls.map (Instruction.createCall ι)).any (·.isReturn) = false := by
  refine ⟨?_, ?_, ?_⟩ <;> rw [List.any_map, List.any_eq_false] <;> intro call listed
  · simp [(quiet call listed).isEntry]
  · simp [(quiet call listed).isExit]
  · simp

theorem withExits_cons (id : FunctionId) (closing : List RuntimeCall) (i : Instruction ι)
    (rest : Block ι) :
    withExits id closing (i :: rest) =
      (if i.isReturn then .createCall ι (.logFunctionExit id) :: closing.map (.createCall ι)
        else []) ++
        i.original :: withExits id closing rest := by
  rw [withExits, beforeLeaving_cons]
  by_cases returns : i.isReturn = true
  · simp [flow_eq_leave, returns, withExits]
  · simp [flow_eq_leave, returns, withExits]

theorem withExits_any {id : FunctionId} {closing : List RuntimeCall} (block : Block ι)
    (quiet : ∀ call ∈ closing, Quiet call) :
    (withExits id closing block).any isEntry = false ∧
      (withExits id closing block).any isExit = block.any (·.isReturn) ∧
      (withExits id closing block).any (·.isReturn) = block.any (·.isReturn) := by
  obtain ⟨noEntry, noExit, noReturn⟩ := @quiet_any ι closing quiet
  have logs : isEntry (.createCall ι (.logFunctionExit id)) = false ∧
      isExit (.createCall ι (.logFunctionExit id)) = true := ⟨rfl, rfl⟩
  induction block with
  | nil => exact ⟨rfl, rfl, rfl⟩
  | cons i rest ih =>
      rw [withExits_cons]
      by_cases returns : i.isReturn = true
      · simp [returns, noEntry, noExit, noReturn, ih, logs]
      · simp [returns, ih]

theorem isOpen_withExits (id : FunctionId) {closing : List RuntimeCall} (block : Block ι)
    (quiet : ∀ call ∈ closing, Quiet call) : isOpen (withExits id closing block) = true := by
  obtain ⟨noEntry, exits, returns⟩ := @withExits_any ι id closing block quiet
  rw [isOpen, noEntry, exits, returns]
  simp

/-- A suffix of two lists together is one of the second, or contains it. -/
theorem suffix_append_cases {α : Type} {part first second : List α}
    (ends : part <:+ first ++ second) :
    part <:+ second ∨ ∃ front, front <:+ first ∧ part = front ++ second := by
  rcases List.suffix_or_suffix_of_suffix ends (List.suffix_append first second) with
    within | ⟨front, rfl⟩
  · exact .inl within
  · exact .inr ⟨front, List.suffix_append_self_iff.mp ends, rfl⟩

theorem ReturnsLast.tail {i : Instruction ι} {rest : Block ι} (last : ReturnsLast (i :: rest)) :
    ReturnsLast rest :=
  fun before j after split => last (i :: before) j after (by simp [split])

theorem ReturnsLast.suffix {part block : Block ι} (last : ReturnsLast block)
    (ends : part <:+ block) :
    ReturnsLast part := by
  obtain ⟨front, rfl⟩ := ends
  intro before i after split
  exact last (front ++ before) i after (by simp [split])

theorem Terminated.returnsLast {block : Block ι} (terminated : Terminated block) :
    ReturnsLast block := by
  obtain ⟨body, last, rfl, -, inner⟩ := terminated
  intro before i after split returns
  rcases List.eq_nil_or_concat after with rfl | ⟨later, final, rfl⟩
  · rfl
  · rw [List.concat_eq_append, ← List.cons_append, ← List.append_assoc] at split
    obtain ⟨rfl, -⟩ := List.append_inj' split rfl
    have plain := inner i (by simp)
    have kind : i.kind = .ret := by simpa [Instruction.isReturn] using returns
    simp [kind, Kind.isTerminator] at plain

theorem stage_withExits {id : FunctionId} {closing : List RuntimeCall}
    (quiet : ∀ call ∈ closing, Quiet call) {block : Block ι} (last : ReturnsLast block)
    {code : Block (ι ⊕ RuntimeCall)} (ends : code <:+ withExits id closing block) :
    Stage id code := by
  induction block with
  | nil =>
      obtain rfl := List.suffix_nil.mp ends
      exact .inside [] closing quiet last rfl
  | cons i rest ih =>
      rw [withExits_cons] at ends
      by_cases returns : i.isReturn = true
      · obtain rfl : rest = [] := last [] i rest rfl returns
        rw [if_pos returns, List.cons_append, List.suffix_cons_iff] at ends
        rcases ends with rfl | ends
        · refine .inside [i] closing quiet last ?_
          rw [withExits_cons, if_pos returns, List.cons_append]
        · rcases suffix_append_cases ends with final | ⟨front, within, rfl⟩
          · rcases List.suffix_cons_iff.mp final with rfl | none
            · exact .leaving [] i (by simp) returns rfl
            · obtain rfl := List.suffix_nil.mp none
              exact .inside [] closing quiet (last.suffix (List.nil_suffix)) rfl
          · obtain ⟨calls, part, rfl⟩ := List.suffix_map_iff.mp within
            exact .leaving calls i (fun call listed => quiet call (part.subset listed)) returns rfl
      · rw [if_neg returns, List.nil_append, List.suffix_cons_iff] at ends
        rcases ends with rfl | ends
        · refine .inside (i :: rest) closing quiet last ?_
          rw [withExits_cons, if_neg returns, List.nil_append]
        · exact ih last.tail ends

theorem stage_entry {id : FunctionId} {calls closing : List RuntimeCall}
    (quiet : ∀ call ∈ calls ++ closing, Quiet call)
    {front inner : Block ι} (opens : ∀ i ∈ front, i.kind = .phi ∨ i.kind = .pad)
    (last : ReturnsLast inner) {code : Block (ι ⊕ RuntimeCall)}
    (ends : code <:+ front.map .original ++ (calls.map (.createCall ι) ++
      .createCall ι (.logFunctionEntry id) :: withExits id closing inner)) : Stage id code := by
  rcases suffix_append_cases ends with behind | ⟨front', before, rfl⟩
  · rcases suffix_append_cases behind with inside | ⟨calls', before, rfl⟩
    · rcases List.suffix_cons_iff.mp inside with rfl | inside
      · exact .entering [] inner [] closing (by simp)
          (fun call listed => quiet call (List.mem_append_right _ listed)) rfl
      · exact stage_withExits (fun call listed => quiet call (List.mem_append_right _ listed)) last
          inside
    · obtain ⟨part, within, rfl⟩ := List.suffix_map_iff.mp before
      refine .entering [] inner part closing (by simp) (fun call listed => quiet call ?_) rfl
      rw [List.mem_append] at listed ⊢
      exact listed.imp_left fun inPart => within.subset inPart
  · obtain ⟨part, within, rfl⟩ := List.suffix_map_iff.mp before
    exact .entering part inner calls closing (fun i listed => opens i (within.subset listed)) quiet
      rfl

/-! ## What each step of a frame does to its brackets -/

theorem Stage.isOpen_entering {id : FunctionId} {front inner : Block ι}
    {calls closing : List RuntimeCall} :
    isOpen (front.map .original ++ (calls.map (.createCall ι) ++
      .createCall ι (.logFunctionEntry id) :: withExits id closing inner)) = false := by
  have logs : isEntry (.createCall ι (.logFunctionEntry id)) = true := rfl
  simp [isOpen, logs]

theorem isOpen_leaving {calls : List RuntimeCall} {last : Instruction ι}
    (quiet : ∀ call ∈ calls, Quiet call) (returns : last.isReturn = true) :
    isOpen (calls.map (.createCall ι) ++ [last.original]) = false := by
  obtain ⟨noEntry, noExit, noReturn⟩ := @quiet_any ι calls quiet
  simp only [isOpen, List.any_append, noEntry, noExit, noReturn, List.any_cons, List.any_nil,
    isEntry_original, isExit_original, isReturn_original, returns]
  rfl

/-- Past the entry, an instruction of the function itself is open unless it returns. -/
theorem Stage.isOpen_original {id : FunctionId} {i : Instruction ι}
    {rest : Block (ι ⊕ RuntimeCall)} (stage : Stage id (i.original :: rest))
    (proper : i.kind ≠ .phi ∧ i.kind ≠ .pad) : isOpen (i.original :: rest) = !i.isReturn := by
  cases stage with
  | entering front inner calls closing opens quiet here =>
      cases front with
      | nil =>
          cases calls with
          | nil => simp [Instruction.original, Instruction.createCall] at here
          | cons call calls => simp [Instruction.original, Instruction.createCall] at here
      | cons first front =>
          obtain ⟨same, -⟩ := List.cons_eq_cons.mp here
          obtain rfl : i = first := by simpa using congrArg Instruction.original? same
          rcases opens i (by simp) with kind | kind
          · exact absurd kind proper.1
          · exact absurd kind proper.2
  | inside inner closing quiet last here =>
      rw [here, isOpen_withExits id inner quiet]
      cases inner with
      | nil => simp [withExits, beforeLeaving] at here
      | cons first inner =>
          rw [withExits_cons] at here
          by_cases returns : first.isReturn = true
          · simp [returns, Instruction.original, Instruction.createCall] at here
          · rw [if_neg returns, List.nil_append] at here
            obtain ⟨same, -⟩ := List.cons_eq_cons.mp here
            obtain rfl : i = first := by simpa using congrArg Instruction.original? same
            simp [returns]
  | leaving calls last quiet returns here =>
      cases calls with
      | nil =>
          obtain ⟨same, -⟩ := List.cons_eq_cons.mp here
          obtain rfl : i = last := by simpa using congrArg Instruction.original? same
          rw [here, isOpen_leaving quiet returns, returns]
          rfl
      | cons call calls => simp [Instruction.original, Instruction.createCall] at here

theorem created_head {kind : Kind} {call first : RuntimeCall} {rest tail : Block (ι ⊕ RuntimeCall)}
    (here : (⟨kind, .inr call⟩ :: rest : Block (ι ⊕ RuntimeCall)) = .createCall ι first :: tail) :
    kind = .call false ∧ call = first ∧ rest = tail := by
  obtain ⟨same, rfl⟩ := List.cons_eq_cons.mp here
  have carried := congrArg Instruction.created? same
  refine ⟨congrArg Instruction.kind same, ?_, rfl⟩
  simpa [Instruction.created?, Instruction.createCall] using carried

theorem isOpen_quiet {call : RuntimeCall} (quiet : Quiet call) (rest : Block (ι ⊕ RuntimeCall)) :
    isOpen (.createCall ι call :: rest) = isOpen rest := by
  simp [isOpen, @Quiet.isEntry ι _ quiet, @Quiet.isExit ι _ quiet]

/-- A created call opens or closes the function it is in, or does neither. -/
theorem Stage.logged {id : FunctionId} {kind : Kind} {call : RuntimeCall}
    {rest : Block (ι ⊕ RuntimeCall)} (stage : Stage id (⟨kind, .inr call⟩ :: rest)) :
    (call = .logFunctionEntry id ∧ isOpen (⟨kind, .inr call⟩ :: rest) = false ∧
      isOpen rest = true) ∨
      (call = .logFunctionExit id ∧ isOpen (⟨kind, .inr call⟩ :: rest) = true ∧
        isOpen rest = false) ∨
      (Quiet call ∧ isOpen (⟨kind, .inr call⟩ :: rest) = isOpen rest) := by
  cases stage with
  | entering front inner calls closing opens quiet here =>
      cases front with
      | cons first front => simp [Instruction.original] at here
      | nil =>
          cases calls with
          | nil =>
              obtain ⟨-, entered, behind⟩ := created_head here
              refine .inl ⟨entered, ?_, ?_⟩
              · rw [here]
                exact @Stage.isOpen_entering ι id [] inner [] closing
              · rw [behind]
                exact isOpen_withExits id inner quiet
          | cons first calls =>
              obtain ⟨rfl, rfl, -⟩ := created_head here
              have silent := quiet call (by simp)
              exact .inr (.inr ⟨silent, isOpen_quiet silent rest⟩)
  | inside inner closing quiet last here =>
      cases inner with
      | nil => simp [withExits, beforeLeaving] at here
      | cons first inner =>
          have opened : isOpen (⟨kind, .inr call⟩ :: rest : Block (ι ⊕ RuntimeCall)) = true := by
            rw [here]
            exact isOpen_withExits id (first :: inner) quiet
          rw [withExits_cons] at here
          by_cases returns : first.isReturn = true
          · obtain rfl : inner = [] := last [] first inner rfl returns
            rw [if_pos returns, List.cons_append] at here
            obtain ⟨-, left, behind⟩ := created_head here
            refine .inr (.inl ⟨left, opened, ?_⟩)
            rw [behind]
            exact isOpen_leaving quiet returns
          · simp [returns, Instruction.original] at here
  | leaving calls last quiet returns here =>
      cases calls with
      | nil => simp [Instruction.original] at here
      | cons first calls =>
          obtain ⟨rfl, rfl, -⟩ := created_head here
          have silent := quiet call (by simp)
          exact .inr (.inr ⟨silent, isOpen_quiet silent rest⟩)

/-! ## The functions of an instrumented module -/

section Pass

variable {env : Environment} {options : Options}
  {decide : Filters.FunctionInfo → Option Filters.InstrumentFunctionResult}

/-- The id under which a function of the module is logged, if it is instrumented. -/
def loggedId (env : Environment)
    (decide : Filters.FunctionInfo → Option Filters.InstrumentFunctionResult)
    (functions : List (Function ι)) (position : Nat) : Option FunctionId :=
  functions[position]?.bind fun f =>
    if f.isDeclaration = false ∧ accepts env decide f = some true then
      some (functionIdAt env.moduleHash functions position)
    else none

theorem entryCalls_eq (f : Function ι) (id : FunctionId) :
    ∃ calls, (∀ call ∈ calls, Quiet call) ∧
      entryCalls options f id = calls ++ [.logFunctionEntry id] := by
  refine ⟨_, ?_, rfl⟩
  intro call listed
  have shapes : call = .initializeRuntime ∨ call = .enableRuntime := by grind
  rcases shapes with rfl | rfl <;> simp [Quiet]

theorem returnCalls_eq (f : Function ι) (id : FunctionId) :
    ∃ closing, (∀ call ∈ closing, Quiet call) ∧
      returnCalls f id = .logFunctionExit id :: closing := by
  refine ⟨_, ?_, rfl⟩
  intro call listed
  obtain rfl : call = .deinitializeRuntime := by grind
  simp [Quiet]

/-- Where the frames of an instrumented function stand, and its entry block. -/
theorem stage_of_block {f : Function ι} {id : FunctionId} {index : Nat}
    {block code : Block (ι ⊕ RuntimeCall)}
    (found :
      (f.insertCalls (entryCalls options f id) (returnCalls f id)).blocks[index]? = some block)
    (ends : code <:+ block) :
    Stage id code ∧ (code = block → (isOpen code = true ↔ index ≠ 0)) := by
  obtain ⟨calls, quiet, opening⟩ := @entryCalls_eq ι options f id
  obtain ⟨closing, quietClosing, closes⟩ := returnCalls_eq f id
  have both : ∀ call ∈ calls ++ closing, Quiet call := by
    intro call listed
    exact (List.mem_append.mp listed).elim (quiet call) (quietClosing call)
  cases blocks : f.blocks with
  | nil => simp [Function.insertCalls, insertCalls, insertAtEntry, blocks] at found
  | cons entry others =>
      have opens := opens_of_notCatchSwitch (f.entryNotCatchSwitch entry (by simp [blocks]))
      rw [insertCalls_blocks blocks, opening, closes] at found
      cases index with
      | zero =>
          have last : ReturnsLast (getFirstInsertionPt entry).2 := by
            apply (Terminated.returnsLast (f.terminated entry (by simp [blocks]))).suffix
            exact ⟨_, getFirstInsertionPt_append entry⟩
          have shape : block = (getFirstInsertionPt entry).1.map .original ++
              (calls.map (.createCall ι) ++ .createCall ι (.logFunctionEntry id) ::
                withExits id closing (getFirstInsertionPt entry).2) := by
            simpa [withExits] using found.symm
          refine ⟨stage_entry both opens last (shape ▸ ends), ?_⟩
          rintro rfl
          rw [shape, Stage.isOpen_entering]
          simp
      | succ index =>
          obtain ⟨plain, listed, rfl⟩ : ∃ plain, others[index]? = some plain ∧
              withExits id closing plain = block := by
            simpa [withExits] using found
          have inBlocks : plain ∈ f.blocks := by
            rw [blocks]
            exact List.mem_cons_of_mem _ (List.mem_of_getElem? listed)
          refine ⟨stage_withExits quietClosing
            (Terminated.returnsLast (f.terminated plain inBlocks))
            ends, ?_⟩
          rintro rfl
          simp [isOpen_withExits id plain quietClosing]

/-- A block of a function of the module is logged under its id or holds no created call. -/
theorem blockAt_cases {m : Module ι} {result : InstrumentModuleResult ι}
    (returned : instrumentModule env options decide m = some result) {function index : Nat}
    {block : Block (ι ⊕ RuntimeCall)}
    (found : blockAt result.functions function index = some block) :
    (loggedId env decide m.functions function = none ∧
        ∃ plain : Block ι, block = plain.map .original) ∨
      ∃ (f : Function ι) (id : FunctionId), loggedId env decide m.functions function = some id ∧
        (f.insertCalls (entryCalls options f id) (returnCalls f id)).blocks[index]? =
          some block := by
  obtain ⟨g, left, inBlocks⟩ := Option.bind_eq_some_iff.mp found
  by_cases past : m.functions.length ≤ function
  · have declared := instrumentModule_declared returned past left
    rw [Function.isDeclaration, List.isEmpty_iff] at declared
    simp [declared] at inBlocks
  · have inModule := List.getElem?_eq_getElem (Nat.lt_of_not_le past)
    obtain ⟨g', left', leaves⟩ := instrumentModule_leaves returned inModule
    obtain rfl : g = g' := Option.some.inj (left.symm.trans left')
    generalize m.functions[function] = f at inModule leaves
    have untouched : f.original.blocks[index]? = some block →
        ∃ plain : Block ι, block = plain.map .original := by
      intro listed
      obtain ⟨plain, -, rfl⟩ := List.mem_map.mp (List.mem_of_getElem? listed)
      exact ⟨plain, rfl⟩
    rcases leaves with ⟨declaration, rfl⟩ | ⟨body, instrumented, accepted, rfl⟩
    · refine .inl ⟨?_, untouched inBlocks⟩
      simp [loggedId, inModule, declaration]
    · cases instrumented with
      | false =>
          refine .inl ⟨?_, untouched inBlocks⟩
          simp [loggedId, inModule, accepted]
      | true =>
          refine .inr ⟨f, functionIdAt env.moduleHash m.functions function, ?_, inBlocks⟩
          simp [loggedId, inModule, accepted, body]

/-- What the blocks of a program tell about the functions with ids. -/
structure Traced (program : Program ι) (idOf : Nat → Option FunctionId) : Prop where
  plain : ∀ function code, Within program function code → idOf function = none →
    ∃ block : Block ι, code = block.map .original
  staged : ∀ function code id, Within program function code → idOf function = some id →
    Stage id code
  opened : ∀ function index block id, blockAt program function index = some block →
    idOf function = some id → (isOpen block = true ↔ index ≠ 0)
  avoids : ∀ function i rest, Within program function (i :: rest) → 0 ∉ i.kind.successors

theorem instrumentModule_traced {m : Module ι} {result : InstrumentModuleResult ι}
    (returned : instrumentModule env options decide m = some result) :
    Traced result.functions (loggedId env decide m.functions) where
  plain := by
    rintro function code ⟨index, block, found, ends⟩ unlogged
    rcases blockAt_cases returned found with ⟨-, plain, rfl⟩ | ⟨f, id, logged, -⟩
    · obtain ⟨part, -, rfl⟩ := List.suffix_map_iff.mp ends
      exact ⟨part, rfl⟩
    · rw [unlogged] at logged
      contradiction
  staged := by
    rintro function code id ⟨index, block, found, ends⟩ logged
    rcases blockAt_cases returned found with ⟨unlogged, -⟩ | ⟨f, id', logged', inBlocks⟩
    · rw [unlogged] at logged
      contradiction
    · obtain rfl : id' = id := Option.some.inj (logged'.symm.trans logged)
      exact (stage_of_block inBlocks ends).1
  opened := by
    intro function index block id found logged
    rcases blockAt_cases returned found with ⟨unlogged, -⟩ | ⟨f, id', -, inBlocks⟩
    · rw [unlogged] at logged
      contradiction
    · exact (stage_of_block inBlocks (List.suffix_refl block)).2 rfl
  avoids := by
    intro function i rest within
    obtain ⟨g, -, block, listed, ends⟩ := within_block within
    exact g.entryWithoutPredecessors block listed i (ends.subset (by simp))

end Pass

/-! ## The brackets of a run -/

section Run

variable {program : Program ι} {idOf : Nat → Option FunctionId}

theorem openIds_cons (frame : Frame ι) (stack : List (Frame ι)) :
    openIds idOf (frame :: stack) = (frame.openId idOf).toList ++ openIds idOf stack := by
  cases opened : frame.openId idOf <;> simp [openIds, opened]

theorem openIds_resume (below : List (Frame ι)) :
    openIds idOf (resume below) = openIds idOf below := by
  cases below with
  | nil => rfl
  | cons top below =>
      cases top with
      | waiting => simp [resume, openIds_cons, Frame.openId]
      | outside | running | answered => rfl

theorem openIds_enter (traced : Traced program idOf) (name : String) (stack : List (Frame ι)) :
    openIds idOf (enter program name :: stack) = openIds idOf stack := by
  have closed : (enter program name).openId idOf = none := by
    rcases enter_cases program name with outside | ⟨function, block, found, running⟩
    · rw [outside]
      rfl
    · rw [running]
      cases logged : idOf function with
      | none => simp [Frame.openId, logged]
      | some id =>
          have opened := traced.opened function 0 block id found logged
          simp [Frame.openId, opened]
  rw [openIds_cons, closed]
  rfl

/-- The frames that an exception takes off the stack are closed. -/
theorem replay_unwind (below : List (Frame ι)) :
    replay (openIds idOf below)
        (((unwind below).2.map Happening.abandoned).filterMap (bracket? idOf)) =
      some (openIds idOf (unwind below).1) := by
  induction below with
  | nil => rfl
  | cons top below ih =>
      cases top with
      | waiting function call rest =>
          by_cases caught : catches call = true
          · simp [unwind, caught, openIds_cons, Frame.openId]
          · cases logged : idOf function <;>
              simpa [unwind, caught, openIds_cons, Frame.openId, logged, bracket?] using ih
      | outside | running | answered => simp [unwind]

theorem isOpen_original_cons {i : Instruction ι} (stays : i.isReturn = false)
    (rest : Block (ι ⊕ RuntimeCall)) : isOpen (i.original :: rest) = isOpen rest := by
  simp [isOpen, stays]

/-- A running frame at a proper instruction of its function is open unless it returns. -/
theorem openId_original (traced : Traced program idOf) {function : Nat} {i : Instruction ι}
    {rest : Block (ι ⊕ RuntimeCall)} (within : Within program function (i.original :: rest))
    (proper : i.kind ≠ .phi ∧ i.kind ≠ .pad) :
    (Frame.running function (i.original :: rest)).openId idOf =
      if i.isReturn then none else idOf function := by
  cases logged : idOf function with
  | none => simp [Frame.openId, logged]
  | some id =>
      have stands := (traced.staged function _ id within logged).isOpen_original proper
      cases returns : i.isReturn <;> simp [Frame.openId, stands, returns, logged]

theorem proper_of_successors {i : Instruction ι} {target : Nat}
    (listed : target ∈ i.kind.successors) :
    (i.kind ≠ .phi ∧ i.kind ≠ .pad) ∧ i.isReturn = false := by
  cases kind : i.kind <;> simp_all [Kind.successors, Instruction.isReturn]

/-- What a step adds to the log leads from the brackets open before to those after. -/
theorem Shift.replays (traced : Traced program idOf) {stack stack' : List (Frame ι)}
    {happenings : List Happening} (shift : Shift program stack stack' happenings)
    (placed : Placed program stack) :
    replay (openIds idOf stack) (happenings.filterMap (bracket? idOf)) =
      some (openIds idOf stack') := by
  cases shift with
  | @logged function kind call rest below =>
      have within := (placed_running.mp placed).1
      cases logged : idOf function with
      | none =>
          obtain ⟨block, same⟩ := traced.plain function _ within logged
          cases block with
          | nil => simp at same
          | cons i block => simp [Instruction.original] at same
      | some id =>
          rcases (traced.staged function _ id within logged).logged with
            ⟨rfl, before, after⟩ | ⟨rfl, before, after⟩ | ⟨quiet, same⟩
          · simp [openIds_cons, Frame.openId, before, after, logged, bracket?]
          · simp [openIds_cons, Frame.openId, before, after, logged, bracket?]
          · have silent : bracket? idOf (.called call) = none := by
              cases call with
              | logFunctionEntry id => exact absurd rfl (quiet id).1
              | logFunctionExit id => exact absurd rfl (quiet id).2
              | _ => rfl
            simp [openIds_cons, Frame.openId, same, silent]
  | @advanced function i rest below inner =>
      have stays : i.isReturn = false := by
        cases kind : i.kind <;> simp_all [Instruction.isReturn, Kind.isTerminator]
      simp [openIds_cons, Frame.openId, isOpen_original_cons stays]
  | @answered function call raised rest below calls =>
      obtain ⟨mustTail, kind⟩ := calls
      have within := (placed_cons.mp placed).1 function _ rfl
      have opened := openId_original traced within (by simp [kind])
      have stays : call.isReturn = false := by simp [Instruction.isReturn, kind]
      rw [stays] at opened
      simp only [Frame.openId, isOpen_original_cons stays] at opened
      simp [openIds_cons, Frame.openId, opened]
  | @branched function target i top rest block below stands listed found =>
      obtain ⟨proper, stays⟩ := proper_of_successors listed
      have within : Within program function (i.original :: rest) := by
        rcases stands with rfl | ⟨raised, rfl⟩
        · exact (placed_running.mp placed).1
        · exact (placed_cons.mp placed).1 function _ rfl
      have before : top.openId idOf = idOf function := by
        rcases stands with rfl | ⟨raised, rfl⟩
        · simpa [stays] using openId_original traced within proper
        · rfl
      have elsewhere : target ≠ 0 := by
        rintro rfl
        exact traced.avoids function _ _ within listed
      have after : (Frame.running function block).openId idOf = idOf function := by
        cases logged : idOf function with
        | none => simp [Frame.openId, logged]
        | some id =>
            have opened := (traced.opened function target block id found logged).mpr elsewhere
            simp [Frame.openId, opened, logged]
      simp [openIds_cons, before, after]
  | @called function i rest name below calls =>
      have within := (placed_running.mp placed).1
      have proper : (i.kind ≠ .phi ∧ i.kind ≠ .pad) ∧ i.isReturn = false := by
        rcases calls with ⟨mustTail, kind⟩ | ⟨successors, kind⟩ <;>
          simp [kind, Instruction.isReturn]
      have opened := openId_original traced within proper.1
      rw [proper.2] at opened
      rw [openIds_enter traced, openIds_cons, opened, openIds_cons]
      simp [Frame.openId]
  | entered => simp [openIds_enter traced]
  | idled => simp
  | left => simp [openIds_resume, openIds_cons, Frame.openId]
  | @threw below => simpa [openIds_cons, Frame.openId] using replay_unwind below
  | @returned function i rest below returns =>
      have within := (placed_running.mp placed).1
      have kind : i.kind = .ret := by simpa [Instruction.isReturn] using returns
      have closed := openId_original traced within (by simp [kind])
      rw [returns] at closed
      simp [openIds_resume, openIds_cons, closed]
  | @raised function i rest below ends stays =>
      have within := (placed_running.mp placed).1
      have proper : i.kind ≠ .phi ∧ i.kind ≠ .pad := by
        constructor <;> intro kind <;> simp [kind, Kind.isTerminator] at ends
      have opened := openId_original traced within proper
      rw [stays] at opened
      cases logged : idOf function <;>
        simpa [openIds_cons, opened, logged, bracket?] using replay_unwind below

theorem happenings_update (s : State ι μ) (log : List (Nat × Happening)) (thread other : Nat)
    (happenings : List Happening) (appended : log = s.log ++ happenings.map (Prod.mk thread)) :
    ((log.filter fun entry => entry.1 = other).map Prod.snd) =
      s.happenings other ++ if other = thread then happenings else [] := by
  rw [appended, List.filter_append, List.map_append, State.happenings]
  congr 1
  by_cases same : other = thread
  · subst same
    rw [if_pos rfl, List.filter_eq_self.mpr (by simp), List.map_map]
    simp
  · have apart : thread ≠ other := fun equal => same equal.symm
    simp [same, apart]

/-- In every run the brackets of a thread leave open the logged functions on its stack. -/
theorem run_replays (traced : Traced program idOf) {machine : Machine ι μ χ} {memory : μ}
    {labels : List (Nat × χ)} {s : State ι μ}
    (reached : exec (step machine program) (start ι memory) labels = some s) (thread : Nat) :
    replay [] ((s.happenings thread).filterMap (bracket? idOf)) =
      some (openIds idOf (s.threads thread)) := by
  suffices both : (∀ thread, Placed program (s.threads thread)) ∧ ∀ thread,
      replay [] ((s.happenings thread).filterMap (bracket? idOf)) =
        some (openIds idOf (s.threads thread)) from both.2 thread
  refine invariant_always (fun s : State ι μ => (∀ thread, Placed program (s.threads thread)) ∧
    ∀ thread, replay [] ((s.happenings thread).filterMap (bracket? idOf)) =
      some (openIds idOf (s.threads thread))) ⟨start_placed memory, fun _ => rfl⟩ ?_ reached
  rintro t ⟨mover, choice⟩ u ⟨placed, replayed⟩ taken
  refine ⟨step_placed placed taken, fun other => ?_⟩
  obtain ⟨stack, happenings, shift, threads, log⟩ := step_shift taken
  rw [State.happenings, happenings_update t u.log mover other happenings log,
    List.filterMap_append, replay_append, replayed other, Option.bind_some, threads]
  by_cases same : other = mover
  · subst same
    rw [if_pos rfl, Function.update_self, shift.replays traced (placed other)]
  · rw [if_neg same, Function.update_of_ne same]
    simp

end Run

/-! ## The whole module -/

section Module

variable {env : Environment} {options : Options}
  {decide : Filters.FunctionInfo → Option Filters.InstrumentFunctionResult}

/-- A thread that is back in code outside the program has no function open. -/
theorem openIds_outside {idOf : Nat → Option FunctionId} {stack : List (Frame ι)}
    (outside : ∀ frame ∈ stack, frame = .outside) : openIds idOf stack = [] := by
  rw [openIds, List.filterMap_eq_nil_iff]
  intro frame listed
  rw [outside frame listed]
  rfl

/-- In every run of an instrumented module, whatever its threads do, the entries
    and exits logged in a thread nest, and what they leave open are the
    instrumented functions on its stack.  Frames that exceptions took away count as
    closed.  A thread that is back outside the module has only matching brackets. -/
theorem instrumentModule_nests {m : Module ι} {result : InstrumentModuleResult ι}
    (returned : instrumentModule env options decide m = some result) (machine : Machine ι μ χ)
    (memory : μ) (labels : List (Nat × χ)) (s : State ι μ)
    (reached : exec (step machine result.functions) (start ι memory) labels = some s)
    (thread : Nat) :
    replay [] ((s.happenings thread).filterMap (bracket? (loggedId env decide m.functions))) =
        some (openIds (loggedId env decide m.functions) (s.threads thread)) ∧
      ((∀ frame ∈ s.threads thread, frame = .outside) →
        Balanced ((s.happenings thread).filterMap
          (bracket? (loggedId env decide m.functions)))) := by
  have replayed := run_replays (instrumentModule_traced returned) reached thread
  refine ⟨replayed, fun outside => balanced_of_replay _ ?_⟩
  rw [replayed, openIds_outside outside]

theorem instrumentModule_nests_mainRun :
    ∃ result s, instrumentModule sampleEnvironment sampleOptions (fun _ => some ⟨true, none⟩)
        sampleModule = some result ∧
      exec (step (obedient String) result.functions) (start String ()) (mainRun 3 2) = some s ∧
      replay [] ((s.happenings 0).filterMap (bracket? (loggedId sampleEnvironment
          (fun _ => some ⟨true, none⟩) sampleModule.functions))) =
        some (openIds (loggedId sampleEnvironment (fun _ => some ⟨true, none⟩)
          sampleModule.functions) (s.threads 0)) ∧
      ((∀ frame ∈ s.threads 0, frame = .outside) →
        Balanced ((s.happenings 0).filterMap (bracket? (loggedId sampleEnvironment
          (fun _ => some ⟨true, none⟩) sampleModule.functions)))) := by
  have runs : ∃ result, instrumentModule sampleEnvironment sampleOptions
      (fun _ => some ⟨true, none⟩) sampleModule = some result ∧
      (exec (step (obedient String) result.functions) (start String ())
        (mainRun 3 2)).isSome = true :=
    ⟨_, rfl, rfl⟩
  obtain ⟨result, returned, isSome⟩ := runs
  obtain ⟨s, reached⟩ := Option.isSome_iff_exists.mp isSome
  exact ⟨result, s, returned, reached,
    instrumentModule_nests returned (obedient String) () (mainRun 3 2) s reached 0⟩

/-- The name that a table of symbols gives for an id. -/
def symbolName (symbols : SymbolsTable) (id : FunctionId) : Option String :=
  (symbols.lookup id).bind fun infos => infos.head?.map (·.linkageName)

def Happening.call? : Happening → Option RuntimeCall
  | .called call => some call
  | .abandoned _ => none

/-- The calls of the runtime in a thread. -/
def State.calls (s : State ι μ) (thread : Nat) : List RuntimeCall :=
  (s.happenings thread).filterMap Happening.call?

/-- The bracket that a call is, without knowledge of the module. -/
def logged? : RuntimeCall → Option (Bracket FunctionId)
  | .logFunctionEntry id => some (.enter id)
  | .logFunctionExit id => some (.exit id)
  | _ => none

/-- The function a frame is in. -/
def Frame.function? : Frame ι → Option Nat
  | .outside => none
  | .running function _ | .waiting function _ _ | .answered function _ _ _ => some function

/-- The names of the open functions on a stack, the innermost first. -/
def openNames (functions : List (Function ι)) (idOf : Nat → Option FunctionId)
    (stack : List (Frame ι)) : List String :=
  (stack.filter fun frame => (frame.openId idOf).isSome).filterMap fun frame =>
    frame.function?.bind fun function => functions[function]?.map (·.name)

theorem openId_function {idOf : Nat → Option FunctionId} {frame : Frame ι} {id : FunctionId}
    (opened : frame.openId idOf = some id) :
    ∃ function, frame.function? = some function ∧ idOf function = some id := by
  cases frame with
  | outside => simp [Frame.openId] at opened
  | running function code =>
      rw [Frame.openId] at opened
      split at opened
      · exact ⟨function, rfl, opened⟩
      · contradiction
  | waiting function call rest => exact ⟨function, rfl, opened⟩
  | answered function call raised rest => exact ⟨function, rfl, opened⟩

theorem symbolName_loggedId {m : Module ι} {result : InstrumentModuleResult ι}
    (returned : instrumentModule env options decide m = some result)
    (few : definedBefore m.functions m.functions.length < 2 ^ 32) {function : Nat}
    {id : FunctionId} (logged : loggedId env decide m.functions function = some id) :
    ∃ f, m.functions[function]? = some f ∧ symbolName result.symbols id = some f.name := by
  have recorded := instrumentModule_recorded returned few
  obtain ⟨f, found, chosen⟩ := Option.bind_eq_some_iff.mp logged
  split at chosen
  case isFalse => contradiction
  case isTrue accepted =>
    obtain rfl := Option.some.inj chosen
    refine ⟨f, found, ?_⟩
    obtain ⟨entry, present, key⟩ := List.mem_map.mp (recorded.present function f found accepted.1)
    obtain ⟨infos, looked⟩ := Option.isSome_iff_exists.mp
      (List.lookup_isSome_iff.mpr ⟨entry, present, beq_of_eq key.symm⟩)
    obtain ⟨before, after, split, -⟩ := List.lookup_eq_some_iff.mp looked
    obtain ⟨place, g, info, foundPlace, body, same, named, -⟩ := recorded.entries
      (functionIdAt env.moduleHash m.functions function, infos) (by simp [split])
    obtain ⟨key, rfl⟩ := Prod.mk.inj same
    obtain rfl := functionIdAt_inj few found foundPlace accepted.1 body key
    obtain rfl : f = g := Option.some.inj (found.symm.trans foundPlace)
    simp [symbolName, looked, named]

theorem openIds_named {m : Module ι} {result : InstrumentModuleResult ι}
    (returned : instrumentModule env options decide m = some result)
    (few : definedBefore m.functions m.functions.length < 2 ^ 32) (stack : List (Frame ι)) :
    (openIds (loggedId env decide m.functions) stack).map (symbolName result.symbols) =
      (openNames m.functions (loggedId env decide m.functions) stack).map some := by
  induction stack with
  | nil => rfl
  | cons frame stack ih =>
      rw [openIds_cons, List.map_append, ih]
      cases opened : frame.openId (loggedId env decide m.functions) with
      | none => simp [openNames, opened]
      | some id =>
          obtain ⟨function, stands, logged⟩ := openId_function opened
          obtain ⟨f, found, named⟩ := symbolName_loggedId returned few logged
          simp [openNames, opened, stands, found, named]

/-- The brackets of a thread are its logged calls alone, if no exception takes a logged
    function off the stack. -/
theorem brackets_of_calls {idOf : Nat → Option FunctionId} {happenings : List Happening}
    (handled : ∀ function, .abandoned function ∈ happenings → idOf function = none) :
    happenings.filterMap (bracket? idOf) =
      (happenings.filterMap Happening.call?).filterMap logged? := by
  induction happenings with
  | nil => rfl
  | cons happening happenings ih =>
      have later := ih fun function listed => handled function (List.mem_cons_of_mem _ listed)
      cases happening with
      | abandoned function =>
          have silent : bracket? idOf (.abandoned function) = none := by
            rw [bracket?, handled function List.mem_cons_self, Option.map_none]
          have dropped : Happening.call? (.abandoned function) = none := rfl
          rw [List.filterMap_cons_none silent, List.filterMap_cons_none dropped, later]
      | called call =>
          have same : bracket? idOf (.called call) = logged? call := by cases call <;> rfl
          have kept : Happening.call? (.called call) = some call := rfl
          rw [List.filterMap_cons, List.filterMap_cons_some kept, List.filterMap_cons, same, later]

/-- From the calls that a thread logged and the table of symbols one can tell
    which instrumented functions it is in, by name and in order, while no
    exception has taken a frame off its stack. -/
theorem instrumentModule_tellsStack {m : Module ι} {result : InstrumentModuleResult ι}
    (returned : instrumentModule env options decide m = some result)
    (few : (m.functions.countP fun f => !f.isDeclaration) < 2 ^ 32) (machine : Machine ι μ χ)
    (memory : μ) (labels : List (Nat × χ)) (s : State ι μ)
    (reached : exec (step machine result.functions) (start ι memory) labels = some s)
    (thread : Nat) (handled : ∀ function, .abandoned function ∉ s.happenings thread) :
    ∃ opened, replay [] ((s.calls thread).filterMap logged?) = some opened ∧
      opened.map (symbolName result.symbols) =
        (openNames m.functions (loggedId env decide m.functions) (s.threads thread)).map some := by
  have counted : definedBefore m.functions m.functions.length < 2 ^ 32 := by
    rwa [definedBefore, List.take_length]
  refine ⟨_, ?_, openIds_named returned counted (s.threads thread)⟩
  rw [State.calls, ← brackets_of_calls fun function listed => absurd listed (handled function)]
  exact run_replays (instrumentModule_traced returned) reached thread

/-- The first thread has called main and is behind its created calls. -/
theorem instrumentModule_tellsStack_mainRun :
    ∃ result s, instrumentModule sampleEnvironment sampleOptions (fun _ => some ⟨true, none⟩)
        sampleModule = some result ∧
      exec (step (obedient String) result.functions) (start String ())
        ((mainRun 3 2).take 5) = some s ∧
      openNames sampleModule.functions (loggedId sampleEnvironment
        (fun _ => some ⟨true, none⟩) sampleModule.functions) (s.threads 0) = ["main"] ∧
      ∃ opened, replay [] ((s.calls 0).filterMap logged?) = some opened ∧
        opened.map (symbolName result.symbols) =
          (openNames sampleModule.functions (loggedId sampleEnvironment
            (fun _ => some ⟨true, none⟩) sampleModule.functions) (s.threads 0)).map some := by
  have runs : ∃ result s, instrumentModule sampleEnvironment sampleOptions
      (fun _ => some ⟨true, none⟩) sampleModule = some result ∧
      exec (step (obedient String) result.functions) (start String ())
        ((mainRun 3 2).take 5) = some s ∧
      (s.happenings 0).all (fun happening => !happening.isAbandoned) = true ∧
      openNames sampleModule.functions (loggedId sampleEnvironment
        (fun _ => some ⟨true, none⟩) sampleModule.functions) (s.threads 0) = ["main"] :=
    ⟨_, _, rfl, rfl, rfl, rfl⟩
  obtain ⟨result, s, returned, reached, none, stands⟩ := runs
  have handled : ∀ function, .abandoned function ∉ s.happenings 0 := by
    intro function listed
    simpa [Happening.isAbandoned] using List.all_eq_true.mp none _ listed
  exact ⟨result, s, returned, reached, stands,
    instrumentModule_tellsStack returned (by decide) (obedient String) () ((mainRun 3 2).take 5) s
      reached 0 handled⟩

end Module

end Spoor.Instrumentation.Execution
