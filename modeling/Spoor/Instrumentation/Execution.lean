import Mathlib.Logic.Function.Basic
import Spoor.Instrumentation.Bracketing

/-! # Running a module

A program is a list of functions, run by any number of threads.  A thread is a
stack of frames: the functions of the program it is in, and between them code
from outside the program, which may call any function of the program.  What an
instruction does to the memory is not known; a machine answers it and decides
the outcome, and the kind of the instruction limits which outcomes there are.

A call that the pass created goes to the runtime.  It leaves the memory as it is
and appears in the log.
-/

namespace Spoor.Instrumentation.Execution

/-- When an instruction is executed: at first, and a call once more after the
    function it called came back. -/
inductive Phase where
  | fresh
  | returned
  | raised
  deriving Repr, DecidableEq

/-- What an instruction comes to. -/
inductive Outcome where
  | proceed
  | branch (target : Nat)
  | call (callee : String)
  | leave
  | raise
  deriving Repr, DecidableEq

/-- The meaning of the contents and of the code outside the program.  A machine
    sees which thread it works for; `χ` is what it does not decide itself. -/
structure Machine (ι μ χ : Type) where
  perform : Nat → χ → Phase → ι → μ → Option (Outcome × μ)
  outside : Nat → χ → μ → Option (Outcome × μ)

/-- A frame that has called waits with its call and the instructions after it, and
    is answered when the call has returned or raised an exception. -/
inductive Frame (ι : Type) where
  | outside
  | running (function : Nat) (code : Block (ι ⊕ RuntimeCall))
  | waiting (function : Nat) (call : Instruction ι) (rest : Block (ι ⊕ RuntimeCall))
  | answered (function : Nat) (call : Instruction ι) (raised : Bool)
      (rest : Block (ι ⊕ RuntimeCall))
  deriving Repr, DecidableEq

/-- What happens in a thread besides its effect on the memory.  The second kind is
    not a call; it records a frame that an exception took off the stack. -/
inductive Happening where
  | called (call : RuntimeCall)
  | abandoned (function : Nat)
  deriving Repr, DecidableEq

structure State (ι μ : Type) where
  memory : μ
  threads : Nat → List (Frame ι)
  log : List (Nat × Happening)

abbrev Program (ι : Type) := List (Function (ι ⊕ RuntimeCall))

/-- The name of the runtime's function that a created call goes to. -/
def callee : RuntimeCall → String
  | .initializeRuntime => "_spoor_runtime_Initialize"
  | .deinitializeRuntime => "_spoor_runtime_Deinitialize"
  | .enableRuntime => "_spoor_runtime_Enable"
  | .logFunctionEntry _ => "_spoor_runtime_LogFunctionEntry"
  | .logFunctionExit _ => "_spoor_runtime_LogFunctionExit"

section Machine

variable {ι μ χ : Type}

/-- In the beginning every thread is in code outside the program. -/
def start (ι : Type) (memory : μ) : State ι μ := ⟨memory, fun _ => [.outside], []⟩

def blockAt (program : Program ι) (function index : Nat) : Option (Block (ι ⊕ RuntimeCall)) :=
  program[function]?.bind fun f => f.blocks[index]?

/-- The function of the program with the name and a body. -/
def bodyOf (program : Program ι) (name : String) : Option Nat :=
  program.findIdx? fun f => f.name = name && !f.isDeclaration

/-- The frame of a call.  A function without a body is outside the program. -/
def enter (program : Program ι) (name : String) : Frame ι :=
  match bodyOf program name with
  | none => .outside
  | some function => .running function ((blockAt program function 0).getD [])

/-- The frame on top gets the answer that its call has returned. -/
def resume : List (Frame ι) → List (Frame ι)
  | .waiting function call rest :: below => .answered function call false rest :: below
  | stack => stack

/-- An invoke is a terminator and gets the exception, any other call passes it on. -/
def catches (call : Instruction ι) : Bool :=
  match call.kind with
  | .terminator _ => true
  | _ => false

/-- An exception takes frames off the stack up to an invoke or outside code. -/
def unwind : List (Frame ι) → List (Frame ι) × List Nat
  | .waiting function call rest :: below =>
      if catches call then (.answered function call true rest :: below, [])
      else ((unwind below).1, function :: (unwind below).2)
  | stack => (stack, [])

/-- Where code outside the program goes. -/
def moveOutside (program : Program ι) (below : List (Frame ι)) :
    Outcome → Option (List (Frame ι) × List Nat)
  | .proceed => some (.outside :: below, [])
  | .call name => some (enter program name :: .outside :: below, [])
  | .leave => some (resume below, [])
  | .raise => some (unwind below)
  | .branch _ => none

/-- A call marked musttail is only one if a return follows it. -/
def callable (i : Instruction ι) (rest : Block (ι ⊕ RuntimeCall)) : Bool :=
  !i.isMustTail || (rest.head?.bind Instruction.original?).any (·.isReturn)

/-- Where an instruction of the program goes. -/
def move (program : Program ι) (function : Nat) (i : Instruction ι)
    (rest : Block (ι ⊕ RuntimeCall)) (below : List (Frame ι)) (phase : Phase) (outcome : Outcome) :
    Option (List (Frame ι) × List Nat) :=
  match i.kind, phase, outcome with
  | .phi, .fresh, .proceed | .pad, .fresh, .proceed | .debug, .fresh, .proceed
  | .plain, .fresh, .proceed | .call _, .returned, .proceed =>
      some (.running function rest :: below, [])
  | .call _, .fresh, .call name =>
      if callable i rest then some (enter program name :: .waiting function i rest :: below, [])
      else none
  | .terminator _, .fresh, .call name =>
      some (enter program name :: .waiting function i rest :: below, [])
  | .terminator successors, _, .branch target | .catchSwitch successors, _, .branch target =>
      if target ∈ successors then
        (blockAt program function target).map fun block => (.running function block :: below, [])
      else none
  | .terminator _, .fresh, .raise | .catchSwitch _, .fresh, .raise =>
      some ((unwind below).1, function :: (unwind below).2)
  | .ret, .fresh, .leave => some (resume below, [])
  | _, _, _ => none

def State.moveTo (s : State ι μ) (thread : Nat) (memory : μ)
    (moved : List (Frame ι) × List Nat) : State ι μ where
  memory := memory
  threads := Function.update s.threads thread moved.1
  log := s.log ++ moved.2.map fun function => (thread, .abandoned function)

/-- The runtime is not part of the program, so a created call has no successor
    here if the program defines the function it goes to. -/
def logCall (program : Program ι) (s : State ι μ) (thread function : Nat) (call : RuntimeCall)
    (rest : Block (ι ⊕ RuntimeCall)) (below : List (Frame ι)) : Option (State ι μ) :=
  if bodyOf program (callee call) = none then
    some {
      memory := s.memory
      threads := Function.update s.threads thread (.running function rest :: below)
      log := s.log ++ [(thread, .called call)] }
  else none

/-- One step of one thread. -/
def step (machine : Machine ι μ χ) (program : Program ι) (s : State ι μ) (label : Nat × χ) :
    Option (State ι μ) :=
  match s.threads label.1 with
  | .outside :: below =>
      (machine.outside label.1 label.2 s.memory).bind fun answer =>
        (moveOutside program below answer.1).map (s.moveTo label.1 answer.2)
  | .running function (⟨kind, .inl content⟩ :: rest) :: below =>
      (machine.perform label.1 label.2 .fresh content s.memory).bind fun answer =>
        (move program function ⟨kind, content⟩ rest below .fresh answer.1).map
          (s.moveTo label.1 answer.2)
  | .running function (⟨_, .inr call⟩ :: rest) :: below =>
      logCall program s label.1 function call rest below
  | .answered function call raised rest :: below =>
      (machine.perform label.1 label.2 (if raised then .raised else .returned) call.content
          s.memory).bind fun answer =>
        (move program function call rest below (if raised then .raised else .returned)
          answer.1).map (s.moveTo label.1 answer.2)
  | _ => none

end Machine

/-! ## What one step can do -/

section Shift

variable {ι μ χ : Type}

/-- What a step does to the stack of its thread, and what happens in it. -/
inductive Shift (program : Program ι) :
    List (Frame ι) → List (Frame ι) → List Happening → Prop where
  | logged {function : Nat} {kind : Kind} {call : RuntimeCall}
      {rest : Block (ι ⊕ RuntimeCall)} {below : List (Frame ι)} :
      Shift program (.running function (⟨kind, .inr call⟩ :: rest) :: below)
        (.running function rest :: below) [.called call]
  | advanced {function : Nat} {i : Instruction ι} {rest : Block (ι ⊕ RuntimeCall)}
      {below : List (Frame ι)} (within : i.kind.isTerminator = false) :
      Shift program (.running function (i.original :: rest) :: below)
        (.running function rest :: below) []
  | answered {function : Nat} {call : Instruction ι} {raised : Bool}
      {rest : Block (ι ⊕ RuntimeCall)} {below : List (Frame ι)}
      (calls : ∃ mustTail, call.kind = .call mustTail) :
      Shift program (.answered function call raised rest :: below)
        (.running function rest :: below) []
  | branched {function target : Nat} {i : Instruction ι} {top : Frame ι}
      {rest block : Block (ι ⊕ RuntimeCall)} {below : List (Frame ι)}
      (stands : top = .running function (i.original :: rest) ∨
        ∃ raised, top = .answered function i raised rest)
      (listed : target ∈ i.kind.successors) (found : blockAt program function target = some block) :
      Shift program (top :: below) (.running function block :: below) []
  | called {function : Nat} {i : Instruction ι} {rest : Block (ι ⊕ RuntimeCall)} {name : String}
      {below : List (Frame ι)}
      (calls : (∃ mustTail, i.kind = .call mustTail) ∨
        ∃ successors, i.kind = .terminator successors) :
      Shift program (.running function (i.original :: rest) :: below)
        (enter program name :: .waiting function i rest :: below) []
  | entered {name : String} {below : List (Frame ι)} :
      Shift program (.outside :: below) (enter program name :: .outside :: below) []
  | idled {below : List (Frame ι)} : Shift program (.outside :: below) (.outside :: below) []
  | left {below : List (Frame ι)} : Shift program (.outside :: below) (resume below) []
  | threw {below : List (Frame ι)} :
      Shift program (.outside :: below) (unwind below).1 ((unwind below).2.map .abandoned)
  | returned {function : Nat} {i : Instruction ι} {rest : Block (ι ⊕ RuntimeCall)}
      {below : List (Frame ι)} (returns : i.isReturn = true) :
      Shift program (.running function (i.original :: rest) :: below) (resume below) []
  | raised {function : Nat} {i : Instruction ι} {rest : Block (ι ⊕ RuntimeCall)}
      {below : List (Frame ι)} (ends : i.kind.isTerminator = true) (stays : i.isReturn = false) :
      Shift program (.running function (i.original :: rest) :: below) (unwind below).1
        (.abandoned function :: (unwind below).2.map .abandoned)

variable {program : Program ι}

theorem moveOutside_shift {below : List (Frame ι)} {outcome : Outcome}
    {moved : List (Frame ι) × List Nat} (taken : moveOutside program below outcome = some moved) :
    Shift program (.outside :: below) moved.1 (moved.2.map .abandoned) := by
  cases outcome <;> simp only [moveOutside, Option.some.injEq, reduceCtorEq] at taken
  case proceed => exact taken ▸ .idled
  case call => exact taken ▸ .entered
  case leave => exact taken ▸ .left
  case raise => exact taken ▸ .threw

theorem move_shift {function : Nat} {i : Instruction ι} {rest : Block (ι ⊕ RuntimeCall)}
    {below : List (Frame ι)} {outcome : Outcome} {moved : List (Frame ι) × List Nat}
    (taken : move program function i rest below .fresh outcome = some moved) :
    Shift program (.running function (i.original :: rest) :: below) moved.1
      (moved.2.map .abandoned) := by
  cases kind : i.kind <;> cases outcome <;>
    simp only [move, kind, Option.some.injEq, reduceCtorEq] at taken
  case phi.proceed | pad.proceed | debug.proceed | plain.proceed =>
      exact taken ▸ .advanced (by simp [kind, Kind.isTerminator])
  case call.call =>
      split at taken
      · exact Option.some.inj taken ▸ .called (.inl ⟨_, kind⟩)
      · contradiction
  case terminator.call => exact taken ▸ .called (.inr ⟨_, kind⟩)
  case terminator.branch | catchSwitch.branch =>
      split at taken
      case isTrue listed =>
          obtain ⟨block, found, rfl⟩ := Option.map_eq_some_iff.mp taken
          exact .branched (.inl rfl) (by simpa [kind, Kind.successors] using listed) found
      case isFalse => contradiction
  case terminator.raise | catchSwitch.raise =>
      subst taken
      exact .raised (by simp [kind, Kind.isTerminator]) (by simp [Instruction.isReturn, kind])
  case ret.leave => exact taken ▸ .returned (by simp [Instruction.isReturn, kind])

theorem move_answered {function : Nat} {i : Instruction ι} {raised : Bool}
    {rest : Block (ι ⊕ RuntimeCall)} {below : List (Frame ι)} {outcome : Outcome}
    {moved : List (Frame ι) × List Nat}
    (taken : move program function i rest below (if raised then .raised else .returned) outcome =
      some moved) :
    Shift program (.answered function i raised rest :: below) moved.1
      (moved.2.map .abandoned) := by
  have phases : (if raised = true then Phase.raised else .returned) ≠ .fresh := by
    cases raised <;> simp
  cases kind : i.kind <;> cases outcome <;> cases raised <;>
    simp only [move, kind, Option.some.injEq, reduceCtorEq, if_true, Bool.false_eq_true,
      if_false] at taken
  case call.proceed => exact taken ▸ .answered ⟨_, kind⟩
  all_goals
    split at taken
    case isTrue listed =>
        obtain ⟨block, found, rfl⟩ := Option.map_eq_some_iff.mp taken
        exact .branched (.inr ⟨_, rfl⟩) (by simpa [kind, Kind.successors] using listed) found
    case isFalse => contradiction

/-- A step changes the stack of its thread and writes what happened in the log. -/
theorem step_shift {machine : Machine ι μ χ} {s s' : State ι μ} {label : Nat × χ}
    (taken : step machine program s label = some s') :
    ∃ stack happenings, Shift program (s.threads label.1) stack happenings ∧
      s'.threads = Function.update s.threads label.1 stack ∧
      s'.log = s.log ++ happenings.map (Prod.mk label.1) := by
  obtain ⟨thread, choice⟩ := label
  have arrives : ∀ {memory : μ} {moved : List (Frame ι) × List Nat},
      Shift program (s.threads thread) moved.1 (moved.2.map .abandoned) →
      ∃ stack happenings, Shift program (s.threads thread) stack happenings ∧
        (s.moveTo thread memory moved).threads = Function.update s.threads thread stack ∧
        (s.moveTo thread memory moved).log = s.log ++ happenings.map (Prod.mk thread) := by
    intro memory moved shift
    exact ⟨_, _, shift, rfl, by simp [State.moveTo, Function.comp_def]⟩
  unfold step at taken
  split at taken
  case h_1 below here =>
      obtain ⟨answer, -, moved⟩ := Option.bind_eq_some_iff.mp taken
      obtain ⟨target, allowed, rfl⟩ := Option.map_eq_some_iff.mp moved
      exact arrives (here ▸ moveOutside_shift allowed)
  case h_2 function kind content rest below here =>
      obtain ⟨answer, -, moved⟩ := Option.bind_eq_some_iff.mp taken
      obtain ⟨target, allowed, rfl⟩ := Option.map_eq_some_iff.mp moved
      exact arrives (here ▸ move_shift allowed)
  case h_3 function kind call rest below here =>
      rw [logCall] at taken
      split at taken
      · obtain rfl := Option.some.inj taken
        refine ⟨.running function rest :: below, [.called call], ?_, rfl, rfl⟩
        rw [here]
        exact .logged
      · contradiction
  case h_4 function call raised rest below here =>
      obtain ⟨answer, -, moved⟩ := Option.bind_eq_some_iff.mp taken
      obtain ⟨target, allowed, rfl⟩ := Option.map_eq_some_iff.mp moved
      exact arrives (here ▸ move_answered allowed)
  case h_5 => contradiction

end Shift

/-! ## Where the frames stand -/

section Placed

variable {ι μ χ : Type} {program : Program ι}

/-- The code is the rest of a block of the function. -/
def Within (program : Program ι) (function : Nat) (code : Block (ι ⊕ RuntimeCall)) : Prop :=
  ∃ index block, blockAt program function index = some block ∧ code <:+ block

/-- The function a frame is in and the rest of the block, with a call it waits for. -/
def Frame.code? : Frame ι → Option (Nat × Block (ι ⊕ RuntimeCall))
  | .outside => none
  | .running function code => some (function, code)
  | .waiting function call rest | .answered function call _ rest =>
      some (function, call.original :: rest)

def Placed (program : Program ι) (stack : List (Frame ι)) : Prop :=
  ∀ frame ∈ stack, ∀ function code, frame.code? = some (function, code) →
    Within program function code

theorem Within.tail {function : Nat} {i : Instruction (ι ⊕ RuntimeCall)}
    {rest : Block (ι ⊕ RuntimeCall)} (within : Within program function (i :: rest)) :
    Within program function rest := by
  obtain ⟨index, block, found, part⟩ := within
  exact ⟨index, block, found, (List.suffix_cons i rest).trans part⟩

theorem placed_cons {frame : Frame ι} {stack : List (Frame ι)} :
    Placed program (frame :: stack) ↔
      (∀ function code, frame.code? = some (function, code) → Within program function code) ∧
        Placed program stack := by
  simp [Placed]

theorem placed_running {function : Nat} {code : Block (ι ⊕ RuntimeCall)} {below : List (Frame ι)} :
    Placed program (.running function code :: below) ↔
      Within program function code ∧ Placed program below := by
  simp [placed_cons, Frame.code?]

theorem placed_outside {below : List (Frame ι)} :
    Placed program (.outside :: below) ↔ Placed program below := by
  simp [placed_cons, Frame.code?]

/-- A called function is outside the program or at the start of its first block. -/
theorem enter_cases (program : Program ι) (name : String) :
    enter program name = .outside ∨ ∃ function block, blockAt program function 0 = some block ∧
      enter program name = .running function block := by
  rw [enter]
  cases body : bodyOf program name with
  | none => exact .inl rfl
  | some function =>
      obtain ⟨inside, named, -⟩ := List.findIdx?_eq_some_iff_getElem.mp body
      simp only [Bool.and_eq_true, Bool.not_eq_true', Function.isDeclaration,
        List.isEmpty_eq_false_iff] at named
      obtain ⟨entry, others, blocks⟩ := List.exists_cons_of_ne_nil named.2
      refine .inr ⟨function, entry, ?_, ?_⟩ <;>
        simp [blockAt, List.getElem?_eq_getElem inside, blocks]

theorem enter_placed (program : Program ι) (name : String) {below : List (Frame ι)}
    (placed : Placed program below) : Placed program (enter program name :: below) := by
  rcases enter_cases program name with outside | ⟨function, block, found, running⟩
  · rw [outside, placed_outside]
    exact placed
  · rw [running, placed_running]
    exact ⟨⟨0, block, found, List.suffix_refl block⟩, placed⟩

theorem resume_placed {below : List (Frame ι)} (placed : Placed program below) :
    Placed program (resume below) := by
  cases below with
  | nil => exact placed
  | cons top below => cases top <;> simpa [resume, placed_cons, Frame.code?] using placed

theorem unwind_placed {below : List (Frame ι)} (placed : Placed program below) :
    Placed program (unwind below).1 := by
  induction below with
  | nil => exact placed
  | cons top below ih =>
      have later := ih (placed_cons.mp placed).2
      cases top with
      | waiting function call rest =>
          by_cases caught : catches call
          · simpa [unwind, caught, placed_cons, Frame.code?] using placed
          · simpa [unwind, caught] using later
      | outside | running | answered => exact placed

theorem Shift.placed {stack stack' : List (Frame ι)} {happenings : List Happening}
    (shift : Shift program stack stack' happenings) (placed : Placed program stack) :
    Placed program stack' := by
  cases shift with
  | logged | advanced =>
      obtain ⟨within, others⟩ := placed_running.mp placed
      exact placed_running.mpr ⟨within.tail, others⟩
  | answered _ =>
      obtain ⟨within, others⟩ := placed_cons.mp placed
      exact placed_running.mpr ⟨(within _ _ rfl).tail, others⟩
  | branched _ _ found =>
      exact placed_running.mpr ⟨⟨_, _, found, List.suffix_refl _⟩, (placed_cons.mp placed).2⟩
  | called _ =>
      obtain ⟨within, others⟩ := placed_running.mp placed
      apply enter_placed
      refine placed_cons.mpr ⟨?_, others⟩
      rintro _ _ ⟨⟩
      exact within
  | entered => exact enter_placed program _ placed
  | idled => exact placed
  | left => exact resume_placed (placed_outside.mp placed)
  | threw => exact unwind_placed (placed_outside.mp placed)
  | returned _ => exact resume_placed (placed_running.mp placed).2
  | raised _ _ => exact unwind_placed (placed_running.mp placed).2

theorem step_placed {machine : Machine ι μ χ} {s s' : State ι μ} {label : Nat × χ}
    (placed : ∀ thread, Placed program (s.threads thread))
    (taken : step machine program s label = some s') (thread : Nat) :
    Placed program (s'.threads thread) := by
  obtain ⟨stack, happenings, shift, threads, -⟩ := step_shift taken
  by_cases same : thread = label.1
  · subst same
    rw [threads, Function.update_self]
    exact shift.placed (placed label.1)
  · rw [threads, Function.update_of_ne same]
    exact placed thread

theorem start_placed (memory : μ) (thread : Nat) :
    Placed program ((start ι memory).threads thread) := by
  simp [start, Placed, Frame.code?]

end Placed

/-! ## Taking the created calls out of a state -/

section Erasure

variable {ι μ χ : Type}

def eraseBlock (block : Block (ι ⊕ RuntimeCall)) : Block (ι ⊕ RuntimeCall) :=
  block.filter fun i => i.content.isLeft

def Frame.erase : Frame ι → Frame ι
  | .outside => .outside
  | .running function code => .running function (eraseBlock code)
  | .waiting function call rest => .waiting function call (eraseBlock rest)
  | .answered function call raised rest => .answered function call raised (eraseBlock rest)

def Happening.isAbandoned : Happening → Bool
  | .abandoned _ => true
  | .called _ => false

/-- The state of the program without the created calls. -/
def State.erase (s : State ι μ) : State ι μ where
  memory := s.memory
  threads thread := (s.threads thread).map Frame.erase
  log := s.log.filter fun entry => entry.2.isAbandoned

/-- One program is another one with created calls. -/
structure ErasesTo (instrumented plain : Program ι) : Prop where
  bodies : ∀ name, bodyOf instrumented name = bodyOf plain name
  blocks : ∀ function index,
    (blockAt instrumented function index).map eraseBlock = blockAt plain function index

variable {instrumented plain : Program ι}

@[simp] theorem eraseBlock_inl (kind : Kind) (content : ι) (rest : Block (ι ⊕ RuntimeCall)) :
    eraseBlock (⟨kind, .inl content⟩ :: rest) = ⟨kind, .inl content⟩ :: eraseBlock rest :=
  List.filter_cons_of_pos rfl

@[simp] theorem eraseBlock_inr (kind : Kind) (call : RuntimeCall)
    (rest : Block (ι ⊕ RuntimeCall)) :
    eraseBlock (⟨kind, .inr call⟩ :: rest) = eraseBlock rest :=
  List.filter_cons_of_neg (by simp)

@[simp] theorem erase_outside : (Frame.outside : Frame ι).erase = .outside := rfl

@[simp] theorem erase_running (function : Nat) (code : Block (ι ⊕ RuntimeCall)) :
    (Frame.running function code).erase = .running function (eraseBlock code) := rfl

@[simp] theorem erase_waiting (function : Nat) (call : Instruction ι)
    (rest : Block (ι ⊕ RuntimeCall)) :
    (Frame.waiting function call rest).erase = .waiting function call (eraseBlock rest) := rfl

@[simp] theorem erase_answered (function : Nat) (call : Instruction ι) (raised : Bool)
    (rest : Block (ι ⊕ RuntimeCall)) :
    (Frame.answered function call raised rest).erase =
      .answered function call raised (eraseBlock rest) := rfl

theorem ErasesTo.enter (erases : ErasesTo instrumented plain) (name : String) :
    (enter instrumented name).erase = enter plain name := by
  rw [Execution.enter, Execution.enter, erases.bodies name]
  cases bodyOf plain name with
  | none => rfl
  | some function =>
      simp only [Frame.erase, ← erases.blocks function 0]
      cases blockAt instrumented function 0 <;> rfl

theorem resume_erase (stack : List (Frame ι)) :
    (resume stack).map Frame.erase = resume (stack.map Frame.erase) := by
  cases stack with
  | nil => rfl
  | cons top below => cases top <;> rfl

theorem unwind_erase (stack : List (Frame ι)) :
    unwind (stack.map Frame.erase) = ((unwind stack).1.map Frame.erase, (unwind stack).2) := by
  induction stack with
  | nil => rfl
  | cons top below ih =>
      cases top with
      | waiting function call rest =>
          by_cases caught : catches call
          · simp [unwind, caught]
          · simp [unwind, caught, ih]
      | outside | running | answered => rfl

theorem erase_moveTo (s : State ι μ) (thread : Nat) (memory : μ)
    (moved : List (Frame ι) × List Nat) :
    (s.moveTo thread memory moved).erase =
      s.erase.moveTo thread memory (moved.1.map Frame.erase, moved.2) := by
  simp only [State.erase, State.moveTo, State.mk.injEq, true_and]
  refine ⟨?_, ?_⟩
  · funext other
    by_cases same : other = thread
    · simp [same]
    · simp [same]
  · rw [List.filter_append, List.filter_map]
    congr 2
    exact List.filter_eq_self.mpr fun _ _ => rfl

end Erasure

end Spoor.Instrumentation.Execution
