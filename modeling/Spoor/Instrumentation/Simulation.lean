import Mathlib.Data.List.TakeWhile
import Spoor.Instrumentation.Execution
import Spoor.Instrumentation.TailCalls

/-! # An instrumented module behaves like the module

Taking the created calls out of a run of the instrumented program gives a run of
the given one, whatever the machine does and however the threads interleave.
Every run of the given program is obtained so, as long as the pass has not moved
a call away from a return it must stay with.
-/

namespace Spoor.Instrumentation.Execution

open Lib.Transition

variable {ι μ χ : Type} {machine : Machine ι μ χ} {instrumented plain : Program ι}

def eraseMove (moved : List (Frame ι) × List Nat) : List (Frame ι) × List Nat :=
  (moved.1.map Frame.erase, moved.2)

theorem callable_erase {i : Instruction ι} {rest : Block (ι ⊕ RuntimeCall)}
    (allowed : callable i rest = true) : callable i (eraseBlock rest) = true := by
  rw [callable, Bool.or_eq_true] at allowed ⊢
  refine allowed.imp_right fun follows => ?_
  cases rest with
  | nil => simp at follows
  | cons next later =>
      obtain ⟨kind, content⟩ := next
      cases content with
      | inl content => exact follows
      | inr call => simp [Instruction.original?] at follows

theorem moveOutside_erase (erases : ErasesTo instrumented plain) (below : List (Frame ι))
    (outcome : Outcome) :
    (moveOutside instrumented below outcome).map eraseMove =
      moveOutside plain (below.map Frame.erase) outcome := by
  cases outcome with
  | proceed | branch => rfl
  | call name => simp [moveOutside, eraseMove, erases.enter]
  | leave => simp [moveOutside, eraseMove, resume_erase]
  | raise => simp [moveOutside, eraseMove, unwind_erase]

theorem branch_erase (erases : ErasesTo instrumented plain) (function target : Nat)
    (successors : List Nat) (below : List (Frame ι)) :
    (if target ∈ successors then
        (blockAt instrumented function target).map fun block =>
          (Frame.running function block :: below, ([] : List Nat))
      else none).map eraseMove =
      if target ∈ successors then
        (blockAt plain function target).map fun block =>
          (Frame.running function block :: below.map Frame.erase, [])
      else none := by
  split
  · rw [← erases.blocks function target]
    cases blockAt instrumented function target <;> rfl
  · rfl

/-- A move of the instrumented program is one of the plain program, unless a
    musttail call has lost its return. -/
theorem move_erase (erases : ErasesTo instrumented plain) (function : Nat) {i : Instruction ι}
    {rest : Block (ι ⊕ RuntimeCall)} (same : callable i (eraseBlock rest) = callable i rest)
    (below : List (Frame ι)) (phase : Phase) (outcome : Outcome) :
    (move instrumented function i rest below phase outcome).map eraseMove =
      move plain function i (eraseBlock rest) (below.map Frame.erase) phase outcome := by
  unfold move
  split
  case h_6 =>
      rw [same]
      split <;> simp [eraseMove, erases.enter]
  case h_7 => simp [eraseMove, erases.enter]
  case h_8 | h_9 => exact branch_erase erases function _ _ below
  case h_10 | h_11 => simp [eraseMove, unwind_erase]
  case h_12 => simp [eraseMove, resume_erase]
  all_goals rfl

/-- A call that is not one any more takes no step. -/
theorem move_projects (erases : ErasesTo instrumented plain) {function : Nat} {i : Instruction ι}
    {rest : Block (ι ⊕ RuntimeCall)} {below : List (Frame ι)} {phase : Phase} {outcome : Outcome}
    {moved : List (Frame ι) × List Nat}
    (taken : move instrumented function i rest below phase outcome = some moved) :
    move plain function i (eraseBlock rest) (below.map Frame.erase) phase outcome =
      some (eraseMove moved) := by
  by_cases allowed : callable i rest = true
  · rw [← move_erase erases function ((callable_erase allowed).trans allowed.symm), taken]
    rfl
  · have mustTail : i.kind = .call true := by
      have marked : i.isMustTail = true := by
        by_contra unmarked
        exact allowed (by simp [callable, unmarked])
      simpa [Instruction.isMustTail] using marked
    cases phase <;> cases outcome <;> simp_all [move, eraseMove]
    simp [← taken]

/-- A created call is next in the thread. -/
def State.callsRuntime (s : State ι μ) (thread : Nat) : Bool :=
  match s.threads thread with
  | .running _ (i :: _) :: _ => i.content.isRight
  | _ => false

theorem map_erase_moveTo (s : State ι μ) (thread : Nat) (memory : μ)
    (answer : Option (List (Frame ι) × List Nat)) :
    (answer.map (s.moveTo thread memory)).map State.erase =
      (answer.map eraseMove).map (s.erase.moveTo thread memory) := by
  cases answer with
  | none => rfl
  | some moved => simp [erase_moveTo, eraseMove]

theorem erase_logCall {s s' : State ι μ} {thread function : Nat} {kind : Kind} {call : RuntimeCall}
    {rest : Block (ι ⊕ RuntimeCall)} {below : List (Frame ι)}
    (here : s.threads thread = .running function (⟨kind, .inr call⟩ :: rest) :: below)
    (taken : logCall instrumented s thread function call rest below = some s') :
    s'.erase = s.erase := by
  rw [logCall] at taken
  split at taken
  · obtain rfl := Option.some.inj taken
    simp only [State.erase, State.mk.injEq, true_and]
    refine ⟨?_, by simp [Happening.isAbandoned]⟩
    funext other
    by_cases same : other = thread
    · simp [same, here]
    · simp [same]
  · contradiction

/-- A step of the instrumented program is a created call or a step of the plain one. -/
theorem step_projects (erases : ErasesTo instrumented plain) {s s' : State ι μ} {label : Nat × χ}
    (taken : step machine instrumented s label = some s') :
    (s.callsRuntime label.1 = true ∧ s'.erase = s.erase) ∨
      step machine plain s.erase label = some s'.erase := by
  obtain ⟨thread, choice⟩ := label
  unfold step at taken
  split at taken
  case h_1 below here =>
      have erased : s.erase.threads thread = .outside :: below.map Frame.erase := by
        simp only [State.erase, here, List.map_cons, erase_outside]
      obtain ⟨⟨outcome, memory⟩, answered, moved⟩ := Option.bind_eq_some_iff.mp taken
      refine .inr ?_
      simp only [step, erased]
      rw [show s.erase.memory = s.memory from rfl, answered, Option.bind_some,
        ← moveOutside_erase erases, ← map_erase_moveTo, moved]
      rfl
  case h_2 function kind content rest below here =>
      have erased : s.erase.threads thread =
          .running function (⟨kind, .inl content⟩ :: eraseBlock rest) :: below.map Frame.erase := by
        simp only [State.erase, here, List.map_cons, erase_running, eraseBlock_inl]
      obtain ⟨⟨outcome, memory⟩, answered, moved⟩ := Option.bind_eq_some_iff.mp taken
      obtain ⟨target, allowed, rfl⟩ := Option.map_eq_some_iff.mp moved
      refine .inr ?_
      simp only [step, erased]
      rw [show s.erase.memory = s.memory from rfl, answered, Option.bind_some,
        move_projects erases allowed, erase_moveTo]
      rfl
  case h_3 function kind call rest below here =>
      exact .inl ⟨by simp [State.callsRuntime, here], erase_logCall here taken⟩
  case h_4 function call raised rest below here =>
      have erased : s.erase.threads thread =
          .answered function call raised (eraseBlock rest) :: below.map Frame.erase := by
        simp only [State.erase, here, List.map_cons, erase_answered]
      obtain ⟨⟨outcome, memory⟩, answered, moved⟩ := Option.bind_eq_some_iff.mp taken
      obtain ⟨target, allowed, rfl⟩ := Option.map_eq_some_iff.mp moved
      refine .inr ?_
      simp only [step, erased]
      rw [show s.erase.memory = s.memory from rfl, answered, Option.bind_some,
        move_projects erases allowed, erase_moveTo]
      rfl
  case h_5 => contradiction

/-- Taking the created calls out of a run gives a run of the plain program. -/
theorem run_projects (erases : ErasesTo instrumented plain) {labels : List (Nat × χ)}
    {s s' : State ι μ} (reached : exec (step machine instrumented) s labels = some s') :
    ∃ kept, kept.Sublist labels ∧ exec (step machine plain) s.erase kept = some s'.erase := by
  induction labels generalizing s with
  | nil =>
      obtain rfl : s = s' := by simpa using reached
      exact ⟨[], List.nil_sublist _, rfl⟩
  | cons label labels ih =>
      obtain ⟨t, taken, rest⟩ := Option.bind_eq_some_iff.mp reached
      obtain ⟨kept, part, projected⟩ := ih rest
      rcases step_projects erases taken with ⟨-, same⟩ | projectedStep
      · exact ⟨kept, part.cons label, same ▸ projected⟩
      · exact ⟨label :: kept, part.cons_cons label, by simp [projectedStep, projected]⟩

/-! ## Lifting a run of the plain program -/

/-- No call marked musttail has lost the return after it. -/
def KeepsTailCalls (program : Program ι) : Prop :=
  ∀ function i rest, Within program function (i.original :: rest) → i.isMustTail = true →
    callable i rest = true

/-- The program does not define the functions of the runtime. -/
def LinksRuntime (program : Program ι) : Prop :=
  ∀ call, bodyOf program (callee call) = none

theorem callable_erase_eq {function : Nat} {i : Instruction ι} {rest : Block (ι ⊕ RuntimeCall)}
    (tails : KeepsTailCalls instrumented)
    (within : Within instrumented function (i.original :: rest)) :
    callable i (eraseBlock rest) = callable i rest := by
  have allowed : callable i rest = true := by
    by_cases mustTail : i.isMustTail = true
    · exact tails function i rest within mustTail
    · simp [callable, mustTail]
  rw [allowed, callable_erase allowed]

/-- Where no created call is next, the two programs take the same step. -/
theorem step_erase (erases : ErasesTo instrumented plain) (tails : KeepsTailCalls instrumented)
    {s : State ι μ} {label : Nat × χ} (placed : Placed instrumented (s.threads label.1))
    (ready : s.callsRuntime label.1 = false) :
    (step machine instrumented s label).map State.erase = step machine plain s.erase label := by
  obtain ⟨thread, choice⟩ := label
  have memory : s.erase.memory = s.memory := rfl
  have answers : ∀ (answer : Option (Outcome × μ))
      (moves moves' : Outcome → Option (List (Frame ι) × List Nat)),
      (∀ outcome, (moves outcome).map eraseMove = moves' outcome) →
      (answer.bind fun a => (moves a.1).map (s.moveTo thread a.2)).map State.erase =
        answer.bind fun a => (moves' a.1).map (s.erase.moveTo thread a.2) := by
    intro answer moves moves' same
    cases answer with
    | none => rfl
    | some a => rw [Option.bind_some, Option.bind_some, map_erase_moveTo, same]
  cases here : s.threads thread with
  | nil =>
      have erased : s.erase.threads thread = [] := by simp [State.erase, here]
      simp only [step, here, erased]
      rfl
  | cons top below =>
      have erased : s.erase.threads thread = top.erase :: below.map Frame.erase := by
        simp [State.erase, here]
      rw [here] at placed
      cases top with
      | outside =>
          simp only [step, here, erased, erase_outside, memory]
          exact answers _ _ _ fun outcome => moveOutside_erase erases below outcome
      | waiting function call rest =>
          simp only [step, here, erased, erase_waiting]
          rfl
      | answered function call raised rest =>
          have within := (placed_cons.mp placed).1 function _ rfl
          simp only [step, here, erased, erase_answered, memory]
          exact answers _ _ _ fun outcome =>
            move_erase erases function (callable_erase_eq tails within) below _ outcome
      | running function code =>
          cases code with
          | nil =>
              simp only [step, here, erased, erase_running]
              rfl
          | cons i rest =>
              obtain ⟨kind, content⟩ := i
              cases content with
              | inr call => simp [State.callsRuntime, here] at ready
              | inl content =>
                  have within := (placed_running.mp placed).1
                  simp only [step, here, erased, erase_running, eraseBlock_inl, memory]
                  exact answers _ _ _ fun outcome =>
                    move_erase erases function
                      (@callable_erase_eq ι instrumented function ⟨kind, content⟩ rest tails within)
                      below _ outcome

/-- The created calls in front of a thread's next instruction are executed one by one. -/
theorem exec_created (runtime : LinksRuntime instrumented) (choice : χ) {thread function : Nat}
    {rest : Block (ι ⊕ RuntimeCall)} {below : List (Frame ι)} :
    ∀ (created : Block (ι ⊕ RuntimeCall)) {s : State ι μ},
      (∀ i ∈ created, i.content.isRight = true) →
      s.threads thread = .running function (created ++ rest) :: below →
      ∃ s', exec (step machine instrumented) s (.replicate created.length (thread, choice)) =
          some s' ∧
        s'.erase = s.erase ∧ s'.threads thread = .running function rest :: below
  | [], s, _, here => ⟨s, rfl, rfl, here⟩
  | ⟨kind, .inl content⟩ :: created, s, only, _ => by simp at only
  | ⟨kind, .inr call⟩ :: created, s, only, here => by
      have taken : ∃ t, step machine instrumented s (thread, choice) = some t ∧
          t.erase = s.erase ∧ t.threads thread = .running function (created ++ rest) :: below := by
        have logs : logCall instrumented s thread function call (created ++ rest) below =
            some _ := if_pos (runtime call)
        rw [List.cons_append] at here
        refine ⟨_, ?_, erase_logCall here logs, ?_⟩
        · simp only [step, here]
          exact logs
        · simp
      obtain ⟨t, taken, erased, here⟩ := taken
      obtain ⟨s', reached, same, stands⟩ :=
        exec_created runtime choice created (fun i listed => only i (by simp [listed])) here
      refine ⟨s', ?_, same.trans erased, stands⟩
      rw [List.length_cons, List.replicate_succ, exec_cons, taken, Option.bind_some, reached]

/-- A step of the plain program is taken after the created calls in front of it. -/
theorem step_lifts (erases : ErasesTo instrumented plain) (tails : KeepsTailCalls instrumented)
    (runtime : LinksRuntime instrumented) {most : Nat}
    (few : ∀ function code, Within instrumented function code →
      code.countP (·.content.isRight) ≤ most)
    {s : State ι μ} {label : Nat × χ} {t : State ι μ}
    (placed : ∀ thread, Placed instrumented (s.threads thread))
    (taken : step machine plain s.erase label = some t) :
    ∃ calls s', calls ≤ most ∧
      exec (step machine instrumented) s (.replicate calls label ++ [label]) = some s' ∧
      s'.erase = t := by
  have lifted : ∀ {s₁ : State ι μ} {calls : Nat}, calls ≤ most →
      exec (step machine instrumented) s (.replicate calls label) = some s₁ → s₁.erase = s.erase →
      Placed instrumented (s₁.threads label.1) → s₁.callsRuntime label.1 = false →
      ∃ calls s', calls ≤ most ∧
        exec (step machine instrumented) s (.replicate calls label ++ [label]) = some s' ∧
        s'.erase = t := by
    intro s₁ calls small reached same placed ready
    have mapped := @step_erase ι μ χ machine instrumented plain erases tails s₁ label placed ready
    rw [same, taken] at mapped
    obtain ⟨s', next, erased⟩ := Option.map_eq_some_iff.mp mapped
    exact ⟨calls, s', small, exec_concat.mpr ⟨s₁, reached, next⟩, erased⟩
  by_cases ready : s.callsRuntime label.1 = false
  · exact lifted (Nat.zero_le most) rfl rfl (placed label.1) ready
  · obtain ⟨thread, choice⟩ := label
    obtain ⟨function, code, below, here⟩ : ∃ function code below,
        s.threads thread = .running function code :: below := by
      unfold State.callsRuntime at ready
      split at ready
      · exact ⟨_, _, _, by assumption⟩
      · contradiction
    have split : code.takeWhile (·.content.isRight) ++ code.dropWhile (·.content.isRight) = code :=
      List.takeWhile_append_dropWhile
    have only : ∀ i ∈ code.takeWhile (·.content.isRight), i.content.isRight = true :=
      fun i listed => List.mem_takeWhile_imp
        (p := fun i : Instruction (ι ⊕ RuntimeCall) => i.content.isRight) listed
    have within : Within instrumented function code :=
      (placed_running.mp (here ▸ placed thread)).1
    rw [← split] at here
    obtain ⟨s₁, reached, same, stands⟩ := @exec_created ι μ χ machine instrumented runtime choice
      thread function _ below _ s only here
    refine lifted ?_ reached same ?_ ?_
    · have counted := few function code within
      have all : (code.takeWhile (·.content.isRight)).countP (·.content.isRight) =
          (code.takeWhile (·.content.isRight)).length :=
        List.countP_eq_length.mpr only
      have part := (List.takeWhile_prefix (l := code) (·.content.isRight)).sublist.countP_le
        (p := (·.content.isRight))
      omega
    · have kept : ∀ other, Placed instrumented (s₁.threads other) :=
        invariant_always (fun state => ∀ other, Placed instrumented (state.threads other)) placed
          (fun _ _ _ held taken => step_placed held taken) reached
      exact kept thread
    · simp only [State.callsRuntime, stands]
      cases rest : code.dropWhile (·.content.isRight) with
      | nil => rfl
      | cons i later =>
          have stops := List.head?_dropWhile_not (·.content.isRight) code
          rw [rest] at stops
          simpa using stops

/-- Every run of the plain program comes from a run of the instrumented one. -/
theorem run_lifts (erases : ErasesTo instrumented plain) (tails : KeepsTailCalls instrumented)
    (runtime : LinksRuntime instrumented) {most : Nat}
    (few : ∀ function code, Within instrumented function code →
      code.countP (·.content.isRight) ≤ most)
    {labels : List (Nat × χ)} {s t : State ι μ}
    (placed : ∀ thread, Placed instrumented (s.threads thread))
    (reached : exec (step machine plain) s.erase labels = some t) :
    ∃ extended s', labels.Sublist extended ∧ extended.length ≤ (most + 1) * labels.length ∧
      exec (step machine instrumented) s extended = some s' ∧ s'.erase = t := by
  induction labels generalizing s with
  | nil =>
      obtain rfl : s.erase = t := by simpa using reached
      exact ⟨[], s, List.nil_sublist _, by simp, rfl, rfl⟩
  | cons label labels ih =>
      obtain ⟨u, taken, rest⟩ := Option.bind_eq_some_iff.mp reached
      obtain ⟨calls, s₁, small, first, rfl⟩ := step_lifts erases tails runtime few placed taken
      have kept : ∀ thread, Placed instrumented (s₁.threads thread) :=
        invariant_always (fun state => ∀ thread, Placed instrumented (state.threads thread)) placed
          (fun _ _ _ held taken => step_placed held taken) first
      obtain ⟨extended, s', part, short, lifted, same⟩ := ih kept rest
      refine ⟨.replicate calls label ++ [label] ++ extended, s', ?_, ?_, ?_, same⟩
      · rw [List.append_assoc]
        exact (part.cons_cons label).trans (List.sublist_append_right _ _)
      · simp only [List.length_append, List.length_replicate, List.length_cons, List.length_nil,
          Nat.mul_add]
        omega
      · rw [exec_append, first, Option.bind_some, lifted]

/-! ## What the pass leaves -/

section Pass

variable {env : Environment} {options : Options}
  {decide : Filters.FunctionInfo → Option Filters.InstrumentFunctionResult}

theorem eraseBlock_eq (block : Block (ι ⊕ RuntimeCall)) :
    eraseBlock block = (block.filterMap Instruction.original?).map .original := by
  induction block with
  | nil => rfl
  | cons i rest ih =>
      obtain ⟨kind, content⟩ := i
      cases content with
      | inl content =>
          rw [eraseBlock_inl, ih]
          rfl
      | inr call => rw [eraseBlock_inr, ih, List.filterMap_cons_none rfl]

theorem leaves_name {functions : List (Function ι)} {position : Nat} {f : Function ι}
    {g : Function (ι ⊕ RuntimeCall)} (leaves : Leaves env options decide functions position f g) :
    g.name = f.name ∧ deleteCreated g.blocks = f.blocks := by
  rcases leaves with ⟨-, rfl⟩ | ⟨-, instrumented, -, rfl⟩
  · exact ⟨rfl, deleteCreated_original f⟩
  · cases instrumented with
    | false => exact ⟨rfl, deleteCreated_original f⟩
    | true => exact ⟨rfl, deleteCreated_insertCalls _ _ f.blocks⟩

theorem isDeclaration_original (f : Function ι) : f.original.isDeclaration = f.isDeclaration := by
  simp [Function.isDeclaration, Function.original]

theorem leaves_isDeclaration {functions : List (Function ι)} {position : Nat} {f : Function ι}
    {g : Function (ι ⊕ RuntimeCall)} (leaves : Leaves env options decide functions position f g) :
    g.isDeclaration = f.isDeclaration := by
  have same := (leaves_name leaves).2
  rw [Function.isDeclaration, Function.isDeclaration, ← same]
  cases g.blocks <;> rfl

/-- The function of the program with the name is the one of the module. -/
theorem bodyOf_leaves {functions declarations : List (Function ι)}
    (each : ∀ f ∈ declarations, f.isDeclaration = true) {program : Program ι}
    (length : program.length = (functions ++ declarations).length)
    (leaves : ∀ position f g, (functions ++ declarations)[position]? = some f →
      program[position]? = some g →
        Leaves env options decide (functions ++ declarations) position f g)
    (name : String) : bodyOf program name = bodyOf (functions.map .original) name := by
  have flags : program.map (fun f => f.name = name && !f.isDeclaration) =
      (functions ++ declarations).map fun f => f.name = name && !f.isDeclaration := by
    apply List.ext_getElem (by simpa using length)
    intro position inside inside'
    rw [List.length_map] at inside inside'
    have left := leaves position _ _ (List.getElem?_eq_getElem inside')
      (List.getElem?_eq_getElem inside)
    rw [List.getElem_map, List.getElem_map, (leaves_name left).1, leaves_isDeclaration left]
  have found : ∀ (κ : Type) (listed : List (Function κ)),
      listed.findIdx? (fun f => f.name = name && !f.isDeclaration) =
        (listed.map fun f => f.name = name && !f.isDeclaration).findIdx? id := by
    intro κ listed
    rw [List.findIdx?_map]
    rfl
  have none : declarations.findIdx? (fun f => f.name = name && !f.isDeclaration) = none := by
    rw [List.findIdx?_eq_none_iff]
    intro f listed
    simp [each f listed]
  rw [bodyOf, found, flags, ← found, List.findIdx?_append, none, bodyOf, List.findIdx?_map]
  rw [Option.map_none, Option.or_none]
  refine congrArg (List.findIdx? · functions) (funext fun f => ?_)
  rw [Function.comp_apply, isDeclaration_original]
  rfl

/-- The pass leaves the module with created calls. -/
theorem instrumentModule_erases {m : Module ι} {result : InstrumentModuleResult ι}
    (returned : instrumentModule env options decide m = some result) :
    ErasesTo result.functions (m.functions.map .original) := by
  obtain ⟨declarations, progress, each, -, same, -, passed⟩ := instrumentModule_passed returned
  constructor
  · rw [same]
    exact bodyOf_leaves each passed.length passed.leaves
  · intro function index
    have erased : ∀ blocks : List (Block (ι ⊕ RuntimeCall)),
        (blocks[index]?).map eraseBlock =
          ((deleteCreated blocks)[index]?).map (·.map .original) := by
      intro blocks
      rw [deleteCreated, List.getElem?_map, Option.map_map]
      exact congrFun (congrArg Option.map (funext eraseBlock_eq)) _
    by_cases past : m.functions.length ≤ function
    · have plain : blockAt (m.functions.map .original) function index = none := by
        simp [blockAt, past]
      rw [plain]
      cases left : result.functions[function]? with
      | none => simp [blockAt, left]
      | some g =>
          have declared := instrumentModule_declared returned past left
          rw [Function.isDeclaration, List.isEmpty_iff] at declared
          simp [blockAt, left, declared]
    · have found := List.getElem?_eq_getElem (Nat.lt_of_not_le past)
      obtain ⟨g, left, leaves⟩ := instrumentModule_leaves returned found
      rw [blockAt, left, Option.bind_some, erased, (leaves_name leaves).2]
      simp [blockAt, found, Function.original]

/-- A function that holds at most three calls at its entry and two at each return,
    and these only if the function it comes from was accepted. -/
def CarriesCalls (accepted : Function ι → Prop) (functions : List (Function ι))
    (g : Function (ι ⊕ RuntimeCall)) : Prop :=
  g.blocks = [] ∨ ∃ f ∈ functions, g = f.original ∨ accepted f ∧
    ∃ opening closing, opening.length ≤ 3 ∧ closing.length ≤ 2 ∧ g = f.insertCalls opening closing

theorem within_block {program : Program ι} {function : Nat} {code : Block (ι ⊕ RuntimeCall)}
    (within : Within program function code) :
    ∃ g ∈ program, ∃ block ∈ g.blocks, code <:+ block := by
  obtain ⟨index, block, found, part⟩ := within
  obtain ⟨g, inProgram, inBlocks⟩ := Option.bind_eq_some_iff.mp found
  exact ⟨g, List.mem_of_getElem? inProgram, block, List.mem_of_getElem? inBlocks, part⟩

theorem countP_map_original (block : Block ι) :
    (block.map Instruction.original).countP (·.content.isRight) = 0 := by
  rw [List.countP_map]
  exact List.countP_eq_zero.mpr fun i _ => by simp [Instruction.original]

theorem countP_map_createCall (calls : List RuntimeCall) :
    (calls.map (Instruction.createCall ι)).countP (·.content.isRight) = calls.length := by
  rw [List.countP_map]
  exact List.countP_eq_length.mpr fun call _ => rfl

theorem countP_insertBeforeReturns (calls : List RuntimeCall) (block : Block (ι ⊕ RuntimeCall)) :
    (insertBeforeReturns calls block).countP (·.content.isRight) =
      block.countP (·.content.isRight) + calls.length * block.countP (·.isReturn) := by
  induction block with
  | nil => rfl
  | cons i rest ih =>
      have split : insertBeforeReturns calls (i :: rest) =
          (if i.isReturn then calls.map (.createCall ι) ++ [i] else [i]) ++
            insertBeforeReturns calls rest := by
        simp [insertBeforeReturns]
      rw [split, List.countP_append, ih, List.countP_cons, List.countP_cons]
      by_cases returns : i.isReturn = true
      · rw [if_pos returns, if_pos returns, List.countP_append, countP_map_createCall,
          List.countP_singleton, Nat.mul_add, Nat.mul_one]
        omega
      · rw [if_neg returns, if_neg returns, List.countP_singleton, Nat.add_zero]
        omega

theorem Terminated.countP_isReturn_le {block : Block ι} (terminated : Terminated block) :
    block.countP (·.isReturn) ≤ 1 := by
  obtain ⟨body, last, rfl, -, inner⟩ := terminated
  have none : body.countP (·.isReturn) = 0 := by
    apply List.countP_eq_zero.mpr
    intro i listed returns
    have plain := inner i listed
    have kind : i.kind = .ret := by simpa [Instruction.isReturn] using returns
    simp [kind, Kind.isTerminator] at plain
  rw [List.countP_append, none, List.countP_singleton]
  split <;> omega

theorem length_entryCalls_le (f : Function ι) (id : FunctionId) :
    (entryCalls options f id).length ≤ 3 := by
  rw [entryCalls, List.length_append]
  split
  · cases options.enableRuntime <;> simp
  · simp

theorem length_returnCalls_le (f : Function ι) (id : FunctionId) :
    (returnCalls f id).length ≤ 2 := by
  rw [returnCalls]
  split <;> simp

theorem countP_insertCalls_le {f : Function ι} {opening closing : List RuntimeCall}
    {block : Block (ι ⊕ RuntimeCall)} (listed : block ∈ (f.insertCalls opening closing).blocks) :
    block.countP (·.content.isRight) ≤ opening.length + closing.length := by
  have counted : ∀ plain ∈ f.blocks, ∀ calls : List RuntimeCall, calls.length ≤ opening.length →
      ∀ front back, front ++ back = plain →
      (insertBeforeReturns closing (front.map .original ++ calls.map (.createCall ι) ++
        back.map .original)).countP (·.content.isRight) ≤ opening.length + closing.length := by
    rintro plain inBlocks calls short front back rfl
    have once := Terminated.countP_isReturn_le (f.terminated _ inBlocks)
    have marked : (calls.map (Instruction.createCall ι)).countP (·.isReturn) = 0 := by
      rw [List.countP_map]
      exact List.countP_eq_zero.mpr fun call _ => by
        simp [Instruction.createCall, Instruction.isReturn]
    have same : ∀ part : Block ι, (part.map Instruction.original).countP (·.isReturn) =
        part.countP (·.isReturn) := by
      intro part
      rw [List.countP_map]
      rfl
    rw [List.countP_append] at once
    rw [countP_insertBeforeReturns]
    simp only [List.countP_append, countP_map_original, countP_map_createCall, marked, same]
    have product : closing.length * (front.countP (·.isReturn) + 0 + back.countP (·.isReturn)) ≤
        closing.length * 1 := Nat.mul_le_mul_left _ (by omega)
    omega
  cases blocks : f.blocks with
  | nil => simp [Function.insertCalls, insertCalls, insertAtEntry, blocks] at listed
  | cons entry others =>
      have placed : block ∈ insertCalls opening closing (entry :: others) := blocks ▸ listed
      rw [insertCalls_cons, List.mem_cons] at placed
      rcases placed with rfl | inOthers
      · exact counted entry (by simp [blocks]) _ (Nat.le_refl _) _ _
          (getFirstInsertionPt_append entry)
      · obtain ⟨plain, inPlain, rfl⟩ := List.mem_map.mp inOthers
        simpa using counted plain (by simp [blocks, inPlain]) [] (by simp) [] plain rfl

section Carried

variable {accepted : Function ι → Prop} {functions : List (Function ι)}

/-- A block has at most five created calls. -/
theorem CarriesCalls.few {g : Function (ι ⊕ RuntimeCall)}
    (carries : CarriesCalls accepted functions g)
    {block : Block (ι ⊕ RuntimeCall)} (listed : block ∈ g.blocks) :
    block.countP (·.content.isRight) ≤ 5 := by
  rcases carries with none | ⟨f, -, rfl | ⟨-, opening, closing, short, brief, rfl⟩⟩
  · simp [none] at listed
  · obtain ⟨plain, -, rfl⟩ := List.mem_map.mp listed
    rw [countP_map_original]
    omega
  · have counted := countP_insertCalls_le listed
    omega

theorem CarriesCalls.returns_original {g : Function (ι ⊕ RuntimeCall)}
    (carries : CarriesCalls accepted functions g) {block : Block (ι ⊕ RuntimeCall)}
    (listed : block ∈ g.blocks) {i : Instruction (ι ⊕ RuntimeCall)} (inside : i ∈ block)
    (returns : i.isReturn = true) : ∃ j : Instruction ι, i = j.original := by
  rcases carries with none | ⟨f, -, rfl | ⟨-, opening, closing, -, -, rfl⟩⟩
  · simp [none] at listed
  · obtain ⟨plain, -, rfl⟩ := List.mem_map.mp listed
    obtain ⟨j, -, rfl⟩ := List.mem_map.mp inside
    exact ⟨j, rfl⟩
  · rcases mem_insertCalls listed inside with ⟨plain, -, j, -, rfl⟩ | ⟨call, -, rfl⟩
    · exact ⟨j, rfl⟩
    · simp [Instruction.isReturn, Instruction.createCall] at returns

theorem CarriesCalls.tailCallsReturn {g : Function (ι ⊕ RuntimeCall)}
    (carries : CarriesCalls accepted functions g)
    (wellFormed : ∀ f ∈ functions, TailCallsReturn f)
    (without : ∀ f ∈ functions, accepted f → ¬ HasMustTail f) : TailCallsReturn g := by
  rcases carries with none | ⟨f, inModule, rfl | ⟨taken, opening, closing, -, -, rfl⟩⟩
  · intro block listed
    simp [none] at listed
  · exact (wellFormed f inModule).original
  · exact tailCallsReturn_insertCalls (without f inModule taken) _ _

theorem carried_few {program : Program ι}
    (carries : ∀ g ∈ program, CarriesCalls accepted functions g) {function : Nat}
    {code : Block (ι ⊕ RuntimeCall)} (within : Within program function code) :
    code.countP (·.content.isRight) ≤ 5 := by
  obtain ⟨g, inProgram, block, listed, part⟩ := within_block within
  exact Nat.le_trans part.sublist.countP_le ((carries g inProgram).few listed)

theorem carried_keepsTailCalls {program : Program ι}
    (carries : ∀ g ∈ program, CarriesCalls accepted functions g)
    (wellFormed : ∀ f ∈ functions, TailCallsReturn f)
    (without : ∀ f ∈ functions, accepted f → ¬ HasMustTail f) : KeepsTailCalls program := by
  intro function i rest within mustTail
  obtain ⟨g, inProgram, block, listed, before, split⟩ := within_block within
  obtain ⟨last, later, rfl, returns⟩ := (carries g inProgram).tailCallsReturn wellFormed without
    block listed before i.original rest split.symm mustTail
  obtain ⟨j, rfl⟩ := (carries g inProgram).returns_original listed (by simp [← split]) returns
  have returns' : j.isReturn = true := returns
  simp [callable, Instruction.original?, Instruction.original, returns']

end Carried

theorem instrumentModule_carries {m : Module ι} {result : InstrumentModuleResult ι}
    (returned : instrumentModule env options decide m = some result) :
    ∀ g ∈ result.functions, CarriesCalls
      (fun f => f.isDeclaration = false ∧ accepts env decide f = some true) m.functions g := by
  intro g listed
  obtain ⟨position, left⟩ := List.mem_iff_getElem?.mp listed
  by_cases past : m.functions.length ≤ position
  · have declared := instrumentModule_declared returned past left
    exact .inl (by simpa [Function.isDeclaration, List.isEmpty_iff] using declared)
  · have found := List.getElem?_eq_getElem (Nat.lt_of_not_le past)
    obtain ⟨g', left', leaves⟩ := instrumentModule_leaves returned found
    obtain rfl : g = g' := Option.some.inj (left.symm.trans left')
    refine .inr ⟨_, List.mem_of_getElem? found, ?_⟩
    rcases leaves with ⟨-, rfl⟩ | ⟨body, instrumented, decided, rfl⟩
    · exact .inl rfl
    · cases instrumented with
      | false => exact .inl rfl
      | true =>
          exact .inr
            ⟨⟨body, decided⟩, _, _, length_entryCalls_le _ _, length_returnCalls_le _ _, rfl⟩

theorem bodyOf_eq_none {functions : List (Function ι)} {name : String}
    (declared : ∀ f ∈ functions, f.name = name → f.isDeclaration = true) :
    bodyOf (functions.map .original) name = none := by
  rw [bodyOf, List.findIdx?_eq_none_iff]
  intro g listed
  obtain ⟨f, inFunctions, rfl⟩ := List.mem_map.mp listed
  rw [isDeclaration_original]
  by_cases named : f.name = name
  · simp [declared f inFunctions named]
  · have other : f.original.name ≠ name := named
    simp [other]

theorem callee_mem (call : RuntimeCall) : callee call ∈ runtimeFunctionNames := by
  cases call <;> simp [callee, runtimeFunctionNames]

end Pass

/-! ## The pass as a whole -/

section Run

variable {env : Environment} {options : Options}
  {regexMatch : String → String → Option Bool} {read : String → Except String (List Filters.Filter)}
  {write : String → SymbolsTable → Except SymbolsWriterError Unit}

theorem erasesTo_original (functions : List (Function ι)) :
    ErasesTo (functions.map .original) (functions.map .original) := by
  refine ⟨fun name => rfl, fun function index => ?_⟩
  cases found : blockAt (functions.map Function.original) function index with
  | none => rfl
  | some block =>
      obtain ⟨g, inProgram, inBlocks⟩ := Option.bind_eq_some_iff.mp found
      obtain ⟨f, -, rfl⟩ := List.mem_map.mp (List.mem_of_getElem? inProgram)
      obtain ⟨plain, -, rfl⟩ := List.mem_map.mp (List.mem_of_getElem? inBlocks)
      rw [Option.map_some, eraseBlock_eq, filterMap_original]

theorem run_erases {m : Module ι} {all : Bool} {functions : Program ι}
    (finished : run env options regexMatch read write m = some (.preserved all functions)) :
    ErasesTo functions (m.functions.map .original) := by
  rcases run_cases finished with ⟨-, -, rfl⟩ | ⟨-, filters, result, -, returned, -, rfl⟩
  · exact erasesTo_original m.functions
  · exact instrumentModule_erases returned

/-- Whatever the threads of the program do after the pass, with the created calls
    taken out they do in the program before it. -/
theorem run_refines {m : Module ι} {all : Bool} {functions : Program ι}
    (finished : run env options regexMatch read write m = some (.preserved all functions))
    (machine : Machine ι μ χ) (memory : μ) (labels : List (Nat × χ)) (s : State ι μ)
    (reached : exec (step machine functions) (start ι memory) labels = some s) :
    ∃ kept, kept.Sublist labels ∧
      exec (step machine (m.functions.map .original)) (start ι memory) kept = some s.erase :=
  run_projects (run_erases finished) reached

/-- The functions that the run accepts with the rules of the filters file. -/
def Accepted (env : Environment) (options : Options) (regexMatch : String → String → Option Bool)
    (read : String → Except String (List Filters.Filter)) (f : Function ι) : Prop :=
  f.isDeclaration = false ∧ ∃ filters, fileFilters options read = .ok filters ∧
    accepts env (Filters.instrumentFunction regexMatch (Filters.defaultFilters ++ filters)) f =
      some true

theorem run_carries {m : Module ι} {all : Bool} {functions : Program ι}
    (finished : run env options regexMatch read write m = some (.preserved all functions)) :
    ∀ g ∈ functions, CarriesCalls (Accepted env options regexMatch read) m.functions g := by
  rcases run_cases finished with ⟨-, -, rfl⟩ | ⟨-, filters, result, listed, returned, -, rfl⟩
  · intro g inProgram
    obtain ⟨f, inModule, rfl⟩ := List.mem_map.mp inProgram
    exact .inr ⟨f, inModule, .inl rfl⟩
  · intro g inProgram
    refine (instrumentModule_carries returned g inProgram).imp_right ?_
    rintro ⟨f, inModule, same | ⟨⟨body, decided⟩, carried⟩⟩
    · exact ⟨f, inModule, .inl same⟩
    · exact ⟨f, inModule, .inr ⟨⟨body, filters, listed, decided⟩, carried⟩⟩

/-- A machine that leaves the memory alone and does what the label says. -/
def obedient (ι : Type) : Machine ι Unit Outcome where
  perform _ outcome _ _ memory := some (outcome, memory)
  outside _ outcome memory := some (outcome, memory)

/-- The first thread calls main, which compares, branches to its first return and returns. -/
def mainRun (opening closing : Nat) : List (Nat × Outcome) :=
  (0, .call "main") :: .replicate opening (0, .proceed) ++ [(0, .proceed), (0, .branch 1)] ++
    .replicate closing (0, .proceed) ++ [(0, .leave)]

/-- Three created calls come at the entry of the sample and two before its return. -/
theorem run_refines_mainRun :
    ∃ all functions s, run sampleEnvironment sampleOptions (fun _ _ => some false)
        (fun _ => .ok []) (fun _ _ => .ok ()) sampleModule = some (.preserved all functions) ∧
      exec (step (obedient String) functions) (start String ()) (mainRun 3 2) = some s ∧
      ∃ kept, kept.Sublist (mainRun 3 2) ∧
        exec (step (obedient String) (sampleModule.functions.map .original)) (start String ())
          kept = some s.erase := by
  have finished : ∃ all functions, run sampleEnvironment sampleOptions (fun _ _ => some false)
      (fun _ => .ok []) (fun _ _ => .ok ()) sampleModule = some (.preserved all functions) ∧
      (exec (step (obedient String) functions) (start String ()) (mainRun 3 2)).isSome = true :=
    ⟨_, _, rfl, rfl⟩
  obtain ⟨all, functions, finished, runs⟩ := finished
  obtain ⟨s, reached⟩ := Option.isSome_iff_exists.mp runs
  exact ⟨all, functions, s, finished, reached,
    run_refines finished (obedient String) () (mainRun 3 2) s reached⟩

/-- Whatever the threads of the program can do before the pass they can do after
    it, with at most five created calls before each step.  No accepted function
    may have a musttail call, and the program must not define the runtime. -/
theorem run_preserves {m : Module ι} {all : Bool} {functions : Program ι}
    (finished : run env options regexMatch read write m = some (.preserved all functions))
    (wellFormed : ∀ f ∈ m.functions, TailCallsReturn f)
    (without : ∀ f ∈ m.functions, Accepted env options regexMatch read f → ¬ HasMustTail f)
    (runtime : ∀ f ∈ m.functions, f.name ∈ runtimeFunctionNames → f.isDeclaration = true)
    (machine : Machine ι μ χ) (memory : μ) (labels : List (Nat × χ)) (t : State ι μ)
    (reached : exec (step machine (m.functions.map .original)) (start ι memory) labels = some t) :
    ∃ extended s, labels.Sublist extended ∧ extended.length ≤ 6 * labels.length ∧
      exec (step machine functions) (start ι memory) extended = some s ∧ s.erase = t := by
  have carries := run_carries finished
  have erases := run_erases finished
  have links : LinksRuntime functions := by
    intro call
    rw [erases.bodies]
    exact bodyOf_eq_none fun f listed named => runtime f listed (named ▸ callee_mem call)
  exact run_lifts erases (carried_keepsTailCalls carries wellFormed without) links
    (fun _ _ within => carried_few carries within) (start_placed memory) reached

theorem run_preserves_mainRun :
    ∃ all functions t, run sampleEnvironment sampleOptions (fun _ _ => some false)
        (fun _ => .ok []) (fun _ _ => .ok ()) sampleModule = some (.preserved all functions) ∧
      exec (step (obedient String) (sampleModule.functions.map .original)) (start String ())
        (mainRun 0 0) = some t ∧
      ∃ extended s, (mainRun 0 0).Sublist extended ∧
        extended.length ≤ 6 * (mainRun 0 0).length ∧
        exec (step (obedient String) functions) (start String ()) extended = some s ∧
        s.erase = t := by
  have finished : ∃ all functions, run sampleEnvironment sampleOptions (fun _ _ => some false)
      (fun _ => .ok []) (fun _ _ => .ok ()) sampleModule = some (.preserved all functions) :=
    ⟨_, _, rfl⟩
  obtain ⟨all, functions, finished⟩ := finished
  obtain ⟨t, reached⟩ := Option.isSome_iff_exists.mp
    (show (exec (step (obedient String) (sampleModule.functions.map .original)) (start String ())
      (mainRun 0 0)).isSome = true from rfl)
  have without : ∀ f ∈ sampleModule.functions, ¬ HasMustTail f := by
    intro f listed
    rcases List.mem_cons.mp listed with rfl | last
    · exact sampleMain_without
    · obtain rfl := List.mem_singleton.mp last
      simp [HasMustTail, declare]
  refine ⟨all, functions, t, finished, reached, run_preserves finished ?_ ?_ ?_ (obedient String) ()
    (mainRun 0 0) t reached⟩
  · exact fun f listed => tailCallsReturn_of_without (without f listed)
  · exact fun f listed _ => without f listed
  · intro f listed named
    rcases List.mem_cons.mp listed with rfl | last
    · simp [sampleMain, runtimeFunctionNames] at named
    · obtain rfl := List.mem_singleton.mp last
      rfl

end Run

end Spoor.Instrumentation.Execution
