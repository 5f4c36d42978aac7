import Mathlib.Algebra.Order.Ring.Int
import Mathlib.Data.List.Basic
import Spoor.Lib.ControlFlow

/-! # Modules, functions and the calls inserted into them

A module is a list of functions and a function is a list of basic blocks.  Of an
instruction the pass reads its kind; everything else it holds is its content, a
type the pass cannot look into.  The pass adds calls of the runtime, so the
content of an instrumented function is either original content or such a call.
-/

namespace Spoor.Instrumentation

open Lib.ControlFlow

/-- The kind of an instruction.  A pad is one of the exception-handling pads that
    do not end their block; a catchswitch is a pad that does.  The terminators
    are the branches, switches, invokes and the like, with the blocks they can
    continue in. -/
inductive Kind where
  | phi
  | pad
  | catchSwitch (successors : List Nat)
  | debug
  | call (mustTail : Bool)
  | ret
  | terminator (successors : List Nat)
  | plain
  deriving Repr, DecidableEq

namespace Kind

def isEhPad : Kind → Bool
  | .pad | .catchSwitch _ => true
  | _ => false

def isTerminator : Kind → Bool
  | .ret | .catchSwitch _ | .terminator _ => true
  | _ => false

def successors : Kind → List Nat
  | .catchSwitch successors | .terminator successors => successors
  | _ => []

/-- Where control goes after an instruction of the kind.  A call that does not
    come back leaves no path to a return, so it needs no edge of its own. -/
def flow : Kind → Flow
  | .ret => .leave
  | .catchSwitch successors | .terminator successors => .jump successors
  | _ => .next

end Kind

structure Instruction (ι : Type) where
  kind : Kind
  content : ι
  deriving Repr, DecidableEq

namespace Instruction

variable {ι : Type}

def isReturn (i : Instruction ι) : Bool := i.kind = .ret

def isMustTail (i : Instruction ι) : Bool := i.kind = .call true

def flow (i : Instruction ι) : Flow := i.kind.flow

end Instruction

abbrev Block (ι : Type) := List (Instruction ι)

/-- A block ends in its only terminator. -/
def Terminated {ι : Type} (block : Block ι) : Prop :=
  ∃ body last, block = body ++ [last] ∧ last.kind.isTerminator ∧
    ∀ i ∈ body, i.kind.isTerminator = false

/-- The debug information of a function. -/
structure Subprogram where
  directory : String
  filename : String
  line : Nat
  deriving Repr, DecidableEq

/-- A function with the rules of a valid module about its blocks: each ends in its
    only terminator, none continues in the entry block, and the entry block is not
    a catchswitch.  A function without blocks is a declaration. -/
structure Function (ι : Type) where
  name : String
  subprogram : Option Subprogram
  blocks : List (Block ι)
  terminated : ∀ block ∈ blocks, Terminated block
  entryWithoutPredecessors : ∀ block ∈ blocks, ∀ i ∈ block, 0 ∉ i.kind.successors
  entryNotCatchSwitch : ∀ block, blocks.head? = some block →
    ∀ i ∈ block, i.kind.isEhPad → i.kind = .pad

namespace Function

variable {ι : Type}

def isDeclaration (f : Function ι) : Bool := f.blocks.isEmpty

/-- The number of instructions that are not debug intrinsics. -/
def getInstructionCount (f : Function ι) : Nat :=
  (f.blocks.map fun block => block.countP fun i => i.kind ≠ .debug).sum

end Function

structure Module (ι : Type) where
  identifier : String
  functions : List (Function ι)

/-- A function of the module without a body. -/
def declare (ι : Type) (name : String) : Function ι where
  name := name
  subprogram := none
  blocks := []
  terminated := by simp
  entryWithoutPredecessors := by simp
  entryNotCatchSwitch := by simp

/-- A function that the module does not have is appended as a declaration. -/
def Module.getOrInsertFunction {ι : Type} (m : Module ι) (name : String) : Module ι :=
  if m.functions.any fun f => f.name = name then m
  else { m with functions := m.functions ++ [declare ι name] }

abbrev FunctionId := BitVec 64

/-- The calls the pass creates. -/
inductive RuntimeCall where
  | initializeRuntime
  | deinitializeRuntime
  | enableRuntime
  | logFunctionEntry (id : FunctionId)
  | logFunctionExit (id : FunctionId)
  deriving Repr, DecidableEq

namespace Instruction

variable {ι : Type}

/-- An instruction of the given module as part of the instrumented one. -/
def original (i : Instruction ι) : Instruction (ι ⊕ RuntimeCall) := ⟨i.kind, .inl i.content⟩

/-- A call created by the pass. -/
def createCall (ι : Type) (call : RuntimeCall) : Instruction (ι ⊕ RuntimeCall) :=
  ⟨.call false, .inr call⟩

/-- The instruction of the given module, unless the pass created it. -/
def original? (i : Instruction (ι ⊕ RuntimeCall)) : Option (Instruction ι) :=
  match i.content with
  | .inl content => some ⟨i.kind, content⟩
  | .inr _ => none

/-- The call, if the pass created it. -/
def created? (i : Instruction (ι ⊕ RuntimeCall)) : Option RuntimeCall := i.content.getRight?

end Instruction

section Insertion

variable {ι : Type}

/-- The block up to its first insertion point, and from there on: all phi nodes
    and then one exception-handling pad are skipped. -/
def getFirstInsertionPt : Block ι → Block ι × Block ι
  | [] => ([], [])
  | i :: rest =>
      if i.kind = .phi then (i :: (getFirstInsertionPt rest).1, (getFirstInsertionPt rest).2)
      else if i.kind.isEhPad then ([i], rest)
      else ([], i :: rest)

/-- The calls at the insertion point of the entry block. -/
def insertAtEntry (calls : List RuntimeCall) :
    List (Block (ι ⊕ RuntimeCall)) → List (Block (ι ⊕ RuntimeCall))
  | [] => []
  | entry :: blocks =>
      ((getFirstInsertionPt entry).1 ++ calls.map (.createCall ι) ++
        (getFirstInsertionPt entry).2) :: blocks

/-- The calls before each return of a block. -/
def insertBeforeReturns (calls : List RuntimeCall) (block : Block (ι ⊕ RuntimeCall)) :
    Block (ι ⊕ RuntimeCall) :=
  block.flatMap fun i => if i.isReturn then calls.map (.createCall ι) ++ [i] else [i]

/-- The calls at the insertion point of the entry block come first, and then the
    pass goes over every block, that one included. -/
def insertCalls (atEntry beforeReturns : List RuntimeCall) (blocks : List (Block ι)) :
    List (Block (ι ⊕ RuntimeCall)) :=
  (insertAtEntry atEntry (blocks.map (·.map .original))).map (insertBeforeReturns beforeReturns)

theorem getFirstInsertionPt_append (block : Block ι) :
    (getFirstInsertionPt block).1 ++ (getFirstInsertionPt block).2 = block := by
  induction block with
  | nil => rfl
  | cons i rest ih =>
      by_cases phi : i.kind = .phi
      · simp [getFirstInsertionPt, phi, ih]
      · by_cases pad : i.kind.isEhPad <;> simp [getFirstInsertionPt, phi, pad]

/-- What stands before the insertion point is a phi node or a pad. -/
theorem mem_getFirstInsertionPt {block : Block ι} {i : Instruction ι}
    (listed : i ∈ (getFirstInsertionPt block).1) : i.kind = .phi ∨ i.kind.isEhPad := by
  induction block with
  | nil => simp [getFirstInsertionPt] at listed
  | cons j rest ih =>
      by_cases phi : j.kind = .phi
      · have placed : i = j ∨ i ∈ (getFirstInsertionPt rest).1 := by
          simpa [getFirstInsertionPt, phi] using listed
        rcases placed with rfl | later
        · exact .inl phi
        · exact ih later
      · by_cases pad : j.kind.isEhPad
        · obtain rfl : i = j := by simpa [getFirstInsertionPt, phi, pad] using listed
          exact .inr pad
        · simp [getFirstInsertionPt, phi, pad] at listed

/-- The insertion point does not depend on the contents. -/
theorem getFirstInsertionPt_map_original (block : Block ι) :
    getFirstInsertionPt (block.map Instruction.original) =
      ((getFirstInsertionPt block).1.map .original,
        (getFirstInsertionPt block).2.map .original) := by
  induction block with
  | nil => rfl
  | cons i rest ih =>
      by_cases phi : i.kind = .phi
      · simp [getFirstInsertionPt, Instruction.original, phi, ih]
      · by_cases pad : i.kind.isEhPad <;>
          simp [getFirstInsertionPt, Instruction.original, phi, pad]

theorem mem_insertBeforeReturns {calls : List RuntimeCall} {block : Block (ι ⊕ RuntimeCall)}
    {i : Instruction (ι ⊕ RuntimeCall)} (listed : i ∈ insertBeforeReturns calls block) :
    i ∈ block ∨ ∃ call ∈ calls, i = .createCall ι call := by
  obtain ⟨j, inside, placed⟩ := List.mem_flatMap.mp listed
  by_cases returns : j.isReturn
  · rw [if_pos returns, List.mem_append, List.mem_map, List.mem_singleton] at placed
    rcases placed with ⟨call, inCalls, rfl⟩ | rfl
    · exact .inr ⟨call, inCalls, rfl⟩
    · exact .inl inside
  · rw [if_neg returns, List.mem_singleton] at placed
    exact .inl (placed ▸ inside)

theorem insertBeforeReturns_append (calls : List RuntimeCall)
    (front rest : Block (ι ⊕ RuntimeCall)) :
    insertBeforeReturns calls (front ++ rest) =
      insertBeforeReturns calls front ++ insertBeforeReturns calls rest := by
  simp [insertBeforeReturns]

theorem insertBeforeReturns_of_stays {calls : List RuntimeCall} {block : Block (ι ⊕ RuntimeCall)}
    (stays : ∀ i ∈ block, i.isReturn = false) : insertBeforeReturns calls block = block := by
  induction block with
  | nil => rfl
  | cons i rest ih =>
      have others := ih fun j listed => stays j (by simp [listed])
      simp only [insertBeforeReturns, List.flatMap_cons, stays i (by simp)] at others ⊢
      simpa using others

/-- Both insertions keep the block's last instruction its only terminator. -/
theorem Terminated.insertBeforeReturns {calls : List RuntimeCall} {block : Block (ι ⊕ RuntimeCall)}
    (terminated : Terminated block) : Terminated (insertBeforeReturns calls block) := by
  obtain ⟨body, last, rfl, ends, inner⟩ := terminated
  have stays : ∀ i ∈ body, i.isReturn = false := by
    intro i listed
    have plain := inner i listed
    cases kind : i.kind <;> simp_all [Instruction.isReturn, Kind.isTerminator]
  rw [insertBeforeReturns_append, insertBeforeReturns_of_stays stays]
  by_cases returns : last.isReturn
  · refine ⟨body ++ calls.map (.createCall ι), last, ?_, ends, ?_⟩
    · simp [Instrumentation.insertBeforeReturns, returns]
    · intro i listed
      rcases List.mem_append.mp listed with inBody | created
      · exact inner i inBody
      · obtain ⟨call, -, rfl⟩ := List.mem_map.mp created
        rfl
  · exact ⟨body, last, by simp [Instrumentation.insertBeforeReturns, returns], ends, inner⟩

theorem Terminated.insertAt {calls : List RuntimeCall} {front rest : Block (ι ⊕ RuntimeCall)}
    (terminated : Terminated (front ++ rest)) (opens : ∀ i ∈ front, i.kind.isTerminator = false) :
    Terminated (front ++ calls.map (.createCall ι) ++ rest) := by
  obtain ⟨body, last, split, ends, inner⟩ := terminated
  rcases List.eq_nil_or_concat rest with rfl | ⟨later, final, rfl⟩
  · have listed : last ∈ front := by
      rw [List.append_nil] at split
      simp [split]
    rw [opens last listed] at ends
    contradiction
  · rw [List.concat_eq_append, ← List.append_assoc] at split
    obtain ⟨rfl, same⟩ := List.append_inj' split rfl
    obtain rfl : final = last := by simpa using same
    refine ⟨front ++ calls.map (.createCall ι) ++ later, final, by simp, ends, ?_⟩
    intro i listed
    rw [List.mem_append, List.mem_append, List.mem_map] at listed
    rcases listed with (inFront | ⟨call, -, rfl⟩) | inLater
    · exact inner i (by simp [inFront])
    · rfl
    · exact inner i (by simp [inLater])

theorem insertCalls_cons (atEntry beforeReturns : List RuntimeCall) (entry : Block ι)
    (blocks : List (Block ι)) :
    insertCalls atEntry beforeReturns (entry :: blocks) =
      insertBeforeReturns beforeReturns
          ((getFirstInsertionPt entry).1.map .original ++ atEntry.map (.createCall ι) ++
            (getFirstInsertionPt entry).2.map .original) ::
        blocks.map fun block => insertBeforeReturns beforeReturns (block.map .original) := by
  simp only [insertCalls, List.map_cons, insertAtEntry, List.map_map,
    getFirstInsertionPt_map_original]
  rfl

/-- What stands in the entry block before the insertion point does not end it. -/
theorem opens_of_notCatchSwitch {entry : Block ι}
    (notCatchSwitch : ∀ i ∈ entry, i.kind.isEhPad → i.kind = .pad) :
    ∀ i ∈ (getFirstInsertionPt entry).1, i.kind = .phi ∨ i.kind = .pad := by
  intro i listed
  have inEntry : i ∈ entry := by
    rw [← getFirstInsertionPt_append entry]
    exact List.mem_append_left _ listed
  rcases mem_getFirstInsertionPt listed with phi | pad
  · exact .inl phi
  · exact .inr (notCatchSwitch i inEntry pad)

theorem Terminated.map_original {block : Block ι} (terminated : Terminated block) :
    Terminated (block.map Instruction.original) := by
  obtain ⟨body, last, rfl, ends, inner⟩ := terminated
  refine ⟨body.map .original, last.original, by simp, ends, ?_⟩
  intro i listed
  obtain ⟨j, inBody, rfl⟩ := List.mem_map.mp listed
  exact inner j inBody

/-- An instruction of the instrumented entry block comes from it or was created. -/
theorem mem_insertCalls_entry {atEntry beforeReturns : List RuntimeCall} {entry : Block ι}
    {i : Instruction (ι ⊕ RuntimeCall)}
    (listed : i ∈ insertBeforeReturns beforeReturns
      ((getFirstInsertionPt entry).1.map .original ++ atEntry.map (.createCall ι) ++
        (getFirstInsertionPt entry).2.map .original)) :
    (∃ j ∈ entry, i = .original j) ∨
      ∃ call ∈ atEntry ++ beforeReturns, i = .createCall ι call := by
  rcases mem_insertBeforeReturns listed with inside | ⟨call, inCalls, rfl⟩
  · rw [List.mem_append, List.mem_append, List.mem_map, List.mem_map, List.mem_map] at inside
    rcases inside with (⟨j, inFront, rfl⟩ | ⟨call, inCalls, rfl⟩) | ⟨j, inBack, rfl⟩
    · exact .inl ⟨j, getFirstInsertionPt_append entry ▸ List.mem_append_left _ inFront, rfl⟩
    · exact .inr ⟨call, List.mem_append_left _ inCalls, rfl⟩
    · exact .inl ⟨j, getFirstInsertionPt_append entry ▸ List.mem_append_right _ inBack, rfl⟩
  · exact .inr ⟨call, List.mem_append_right _ inCalls, rfl⟩

/-- An instruction of an instrumented body comes from the body or was created. -/
theorem mem_insertCalls {atEntry beforeReturns : List RuntimeCall} {blocks : List (Block ι)}
    {block : Block (ι ⊕ RuntimeCall)} {i : Instruction (ι ⊕ RuntimeCall)}
    (listed : block ∈ insertCalls atEntry beforeReturns blocks) (inside : i ∈ block) :
    (∃ plain ∈ blocks, ∃ j ∈ plain, i = .original j) ∨
      ∃ call ∈ atEntry ++ beforeReturns, i = .createCall ι call := by
  cases blocks with
  | nil => simp [insertCalls, insertAtEntry] at listed
  | cons entry blocks =>
      rw [insertCalls_cons, List.mem_cons] at listed
      rcases listed with rfl | inOthers
      · rcases mem_insertCalls_entry inside with ⟨j, inEntry, rfl⟩ | created
        · exact .inl ⟨entry, by simp, j, inEntry, rfl⟩
        · exact .inr created
      · obtain ⟨plain, inBlocks, rfl⟩ := List.mem_map.mp inOthers
        rcases mem_insertBeforeReturns inside with fromPlain | ⟨call, inCalls, rfl⟩
        · obtain ⟨j, inPlain, rfl⟩ := List.mem_map.mp fromPlain
          exact .inl ⟨plain, by simp [inBlocks], j, inPlain, rfl⟩
        · exact .inr ⟨call, List.mem_append_right _ inCalls, rfl⟩

end Insertion

namespace Function

variable {ι : Type}

/-- A function the pass leaves as it is. -/
def original (f : Function ι) : Function (ι ⊕ RuntimeCall) where
  name := f.name
  subprogram := f.subprogram
  blocks := f.blocks.map (·.map .original)
  terminated := by
    intro block listed
    obtain ⟨plain, inBlocks, rfl⟩ := List.mem_map.mp listed
    exact (f.terminated plain inBlocks).map_original
  entryWithoutPredecessors := by
    intro block listed i inside
    obtain ⟨plain, inBlocks, rfl⟩ := List.mem_map.mp listed
    obtain ⟨j, inPlain, rfl⟩ := List.mem_map.mp inside
    exact f.entryWithoutPredecessors plain inBlocks j inPlain
  entryNotCatchSwitch := by
    intro block first i inside pad
    obtain ⟨plain, isFirst, rfl⟩ : ∃ plain, f.blocks.head? = some plain ∧
        plain.map .original = block := by
      simpa using first
    obtain ⟨j, inPlain, rfl⟩ := List.mem_map.mp inside
    exact f.entryNotCatchSwitch plain isFirst j inPlain pad

/-- A function with the calls of the pass: it keeps the rules of a valid module. -/
def insertCalls (f : Function ι) (atEntry beforeReturns : List RuntimeCall) :
    Function (ι ⊕ RuntimeCall) where
  name := f.name
  subprogram := f.subprogram
  blocks := Instrumentation.insertCalls atEntry beforeReturns f.blocks
  terminated := by
    intro block listed
    have terminated := f.terminated
    have notCatchSwitch := f.entryNotCatchSwitch
    cases blocks : f.blocks with
    | nil => simp [blocks, Instrumentation.insertCalls, insertAtEntry] at listed
    | cons entry others =>
        rw [blocks] at listed terminated notCatchSwitch
        rw [insertCalls_cons, List.mem_cons] at listed
        rcases listed with rfl | inOthers
        · have opens := opens_of_notCatchSwitch (notCatchSwitch entry rfl)
          have whole := (terminated entry (by simp)).map_original
          rw [← getFirstInsertionPt_append entry, List.map_append] at whole
          refine (whole.insertAt ?_).insertBeforeReturns
          intro i inFront
          obtain ⟨j, listed, rfl⟩ := List.mem_map.mp inFront
          rcases opens j listed with kind | kind <;>
            simp [Instruction.original, kind, Kind.isTerminator]
        · obtain ⟨plain, inPlain, rfl⟩ := List.mem_map.mp inOthers
          exact (terminated plain (by simp [inPlain])).map_original.insertBeforeReturns
  entryWithoutPredecessors := by
    intro block listed i inside
    rcases mem_insertCalls listed inside with ⟨plain, inBlocks, j, inPlain, rfl⟩ | ⟨call, -, rfl⟩
    · exact f.entryWithoutPredecessors plain inBlocks j inPlain
    · simp [Instruction.createCall, Kind.successors]
  entryNotCatchSwitch := by
    intro block first i inside pad
    have notCatchSwitch := f.entryNotCatchSwitch
    cases blocks : f.blocks with
    | nil => simp [blocks, Instrumentation.insertCalls, insertAtEntry] at first
    | cons entry others =>
        rw [blocks] at first notCatchSwitch
        rw [insertCalls_cons, List.head?_cons, Option.some.injEq] at first
        subst first
        rcases mem_insertCalls_entry inside with ⟨j, inEntry, rfl⟩ | ⟨call, -, rfl⟩
        · exact notCatchSwitch entry rfl j inEntry pad
        · simp [Instruction.createCall, Kind.isEhPad] at pad

end Function

end Spoor.Instrumentation
