import Mathlib.Data.List.Basic
import Spoor.Instrumentation.Bracketing

/-! # Tail calls that must stay tail calls

A call marked musttail is followed by the return of its block.  The pass places
the exit's calls directly before every return, so it separates such a call from
its return in every function it instruments.
-/

namespace Spoor.Instrumentation

variable {ι : Type}

/-- Every call marked musttail is followed by a return. -/
def TailCallsReturn (f : Function ι) : Prop :=
  ∀ block ∈ f.blocks, ∀ before call after, block = before ++ call :: after →
    call.isMustTail = true → ∃ last rest, after = last :: rest ∧ last.isReturn = true

/-- Some call of the function is marked musttail. -/
def HasMustTail (f : Function ι) : Prop :=
  ∃ block ∈ f.blocks, ∃ i ∈ block, i.isMustTail = true

theorem tailCallsReturn_of_without {f : Function ι} (without : ¬ HasMustTail f) :
    TailCallsReturn f := by
  intro block listed before call after split mustTail
  exact absurd ⟨block, listed, call, by simp [split], mustTail⟩ without

theorem TailCallsReturn.original {f : Function ι} (wellFormed : TailCallsReturn f) :
    TailCallsReturn f.original := by
  intro block listed before call after split mustTail
  obtain ⟨plain, inBlocks, rfl⟩ := List.mem_map.mp listed
  obtain ⟨plainBefore, rest, rfl, rfl, tail⟩ := List.map_eq_append_iff.mp split
  obtain ⟨plainCall, plainAfter, rfl, rfl, rfl⟩ := List.map_eq_cons_iff.mp tail
  obtain ⟨last, later, rfl, returns⟩ :=
    wellFormed _ inBlocks plainBefore plainCall plainAfter rfl mustTail
  exact ⟨last.original, later.map .original, rfl, returns⟩

theorem tailCallsReturn_insertCalls {f : Function ι} (without : ¬ HasMustTail f)
    (atEntry beforeReturns : List RuntimeCall) :
    TailCallsReturn (f.insertCalls atEntry beforeReturns) := by
  intro block listed before call after split mustTail
  have inside : call ∈ block := by simp [split]
  rcases mem_insertCalls listed inside with ⟨plain, inBlocks, i, inPlain, rfl⟩ | ⟨created, -, rfl⟩
  · exact absurd ⟨plain, inBlocks, i, inPlain, mustTail⟩ without
  · simp [Instruction.isMustTail, Instruction.createCall] at mustTail

/-- The calls stand between a musttail call and its return. -/
theorem insertBeforeReturns_separates (pre : Block (ι ⊕ RuntimeCall)) (body rest : Block ι)
    {i last : Instruction ι} (mustTail : i.isMustTail = true) (returns : last.isReturn = true)
    (first : RuntimeCall) (more : List RuntimeCall) :
    ∃ before after, insertBeforeReturns (first :: more)
        (pre ++ (body ++ i :: last :: rest).map Instruction.original) =
      before ++ i.original :: .createCall ι first :: after := by
  have stays : i.original.isReturn = false := by
    have kind : i.kind = .call true := by simpa [Instruction.isMustTail] using mustTail
    simp [Instruction.isReturn, Instruction.original, kind]
  have leaves : last.original.isReturn = true := returns
  refine ⟨insertBeforeReturns (first :: more) (pre ++ body.map .original),
    more.map (.createCall ι) ++ last.original ::
      insertBeforeReturns (first :: more) (rest.map .original), ?_⟩
  rw [List.map_append, ← List.append_assoc, insertBeforeReturns_append]
  congr 1
  simp [insertBeforeReturns, stays, leaves]

theorem not_tailCallsReturn_of_separated {g : Function (ι ⊕ RuntimeCall)} {i : Instruction ι}
    {first : RuntimeCall} {before after : Block (ι ⊕ RuntimeCall)} (mustTail : i.isMustTail = true)
    (listed : before ++ i.original :: .createCall ι first :: after ∈ g.blocks) :
    ¬ TailCallsReturn g := by
  intro wellFormed
  obtain ⟨last, rest, same, returns⟩ := wellFormed _ listed before i.original _ rfl mustTail
  obtain ⟨rfl, rfl⟩ := List.cons_eq_cons.mp same
  simp [Instruction.isReturn, Instruction.createCall] at returns

theorem not_tailCallsReturn_insertCalls {f : Function ι} (wellFormed : TailCallsReturn f)
    (hasMustTail : HasMustTail f) (atEntry : List RuntimeCall) (first : RuntimeCall)
    (more : List RuntimeCall) : ¬ TailCallsReturn (f.insertCalls atEntry (first :: more)) := by
  obtain ⟨block, listed, i, inside, mustTail⟩ := hasMustTail
  cases blocks : f.blocks with
  | nil => simp [blocks] at listed
  | cons entry others =>
      have instrumented : (f.insertCalls atEntry (first :: more)).blocks =
          insertCalls atEntry (first :: more) (entry :: others) := by
        simp only [Function.insertCalls, blocks]
      rw [insertCalls_cons] at instrumented
      have placed := listed
      rw [blocks, List.mem_cons] at placed
      rcases placed with rfl | inOthers
      · have opens := opens_of_notCatchSwitch (f.entryNotCatchSwitch block (by simp [blocks]))
        have behind : i ∈ (getFirstInsertionPt block).2 := by
          rw [← getFirstInsertionPt_append block, List.mem_append] at inside
          refine inside.resolve_left fun inFront => ?_
          rcases opens i inFront with kind | kind <;>
            simp [Instruction.isMustTail, kind] at mustTail
        obtain ⟨body, after, split⟩ := List.append_of_mem behind
        have whole : block = (getFirstInsertionPt block).1 ++ body ++ i :: after := by
          rw [List.append_assoc, ← split, getFirstInsertionPt_append]
        obtain ⟨last, rest, rfl, returns⟩ := wellFormed block listed _ i after whole mustTail
        obtain ⟨before, later, separated⟩ := insertBeforeReturns_separates
          ((getFirstInsertionPt block).1.map .original ++ atEntry.map (.createCall ι)) body rest
          mustTail returns first more
        rw [← split] at separated
        apply not_tailCallsReturn_of_separated mustTail
        rw [instrumented, ← separated]
        exact List.mem_cons_self
      · obtain ⟨body, after, split⟩ := List.append_of_mem inside
        obtain ⟨last, rest, rfl, returns⟩ := wellFormed block listed body i after split mustTail
        obtain ⟨before, later, separated⟩ :=
          insertBeforeReturns_separates [] body rest mustTail returns first more
        rw [← split, List.nil_append] at separated
        apply not_tailCallsReturn_of_separated mustTail
        rw [instrumented, ← separated]
        exact List.mem_cons_of_mem _ (List.mem_map_of_mem inOthers)

section Module

variable {env : Environment} {options : Options}
  {decide : Filters.FunctionInfo → Option Filters.InstrumentFunctionResult}

/-- The pass keeps musttail calls in front of their returns exactly when it
    instruments no function that has one. -/
theorem instrumentModule_tailCalls {m : Module ι} {result : InstrumentModuleResult ι}
    (wellFormed : ∀ f ∈ m.functions, TailCallsReturn f)
    (returned : instrumentModule env options decide m = some result) :
    (∀ g ∈ result.functions, TailCallsReturn g) ↔
      ∀ f ∈ m.functions, f.isDeclaration = false → accepts env decide f = some true →
        ¬ HasMustTail f := by
  constructor
  · intro kept f listed body accepted hasMustTail
    obtain ⟨position, found⟩ := List.mem_iff_getElem?.mp listed
    obtain ⟨g, left, leaves⟩ := instrumentModule_leaves returned found
    have instrumented : g = f.insertCalls
        (entryCalls options f (functionIdAt env.moduleHash m.functions position))
        (returnCalls f (functionIdAt env.moduleHash m.functions position)) := by
      rcases leaves with ⟨declaration, -⟩ | ⟨-, instrumented, decided, rfl⟩
      · rw [body] at declaration
        contradiction
      · obtain rfl : true = instrumented := Option.some.inj (accepted.symm.trans decided)
        rfl
    have broken : ¬ TailCallsReturn g := by
      rw [instrumented, returnCalls]
      exact not_tailCallsReturn_insertCalls (wellFormed f listed) hasMustTail _ _ _
    exact broken (kept g (List.mem_of_getElem? left))
  · intro without g listed
    obtain ⟨position, left⟩ := List.mem_iff_getElem?.mp listed
    by_cases past : m.functions.length ≤ position
    · have declared := instrumentModule_declared returned past left
      simp only [Function.isDeclaration, List.isEmpty_iff] at declared
      intro block inBlocks
      simp [declared] at inBlocks
    · have found := List.getElem?_eq_getElem (Nat.lt_of_not_le past)
      have inModule := List.mem_of_getElem? found
      obtain ⟨h, left', leaves⟩ := instrumentModule_leaves returned found
      obtain rfl : g = h := Option.some.inj (left.symm.trans left')
      rcases leaves with ⟨-, rfl⟩ | ⟨body, instrumented, decided, rfl⟩
      · exact (wellFormed _ inModule).original
      · cases instrumented with
        | false => exact (wellFormed _ inModule).original
        | true => exact tailCallsReturn_insertCalls (without _ inModule body decided) _ _

/-- A function that hands over to another one by a tail call. -/
def forwarder : Function String where
  name := "forward"
  subprogram := none
  blocks := [[⟨.call true, "musttail call target"⟩, ⟨.ret, "return"⟩]]
  terminated := by
    intro block listed
    obtain rfl := List.mem_singleton.mp listed
    exact ⟨[⟨.call true, "musttail call target"⟩], _, rfl, rfl, by simp [Kind.isTerminator]⟩
  entryWithoutPredecessors := by decide
  entryNotCatchSwitch := by simp [Kind.isEhPad]

theorem forwarder_tailCallsReturn : TailCallsReturn forwarder := by
  intro block listed before call after split mustTail
  obtain rfl := List.mem_singleton.mp listed
  cases before with
  | nil =>
      obtain ⟨rfl, rfl⟩ := List.cons_eq_cons.mp split
      exact ⟨_, [], rfl, rfl⟩
  | cons first before =>
      obtain ⟨-, rest⟩ := List.cons_eq_cons.mp split
      cases before with
      | nil =>
          obtain ⟨rfl, -⟩ := List.cons_eq_cons.mp rest
          simp [Instruction.isMustTail] at mustTail
      | cons second before => simp at rest

/-- The instrumented function has the exit call between its tail call and the return. -/
theorem forwarder_separated :
    (∀ f ∈ (⟨"forward.ll", [forwarder]⟩ : Module String).functions, TailCallsReturn f) ∧
      ∃ result, instrumentModule sampleEnvironment sampleOptions (fun _ => some ⟨true, none⟩)
          ⟨"forward.ll", [forwarder]⟩ = some result ∧
        ¬ ∀ g ∈ result.functions, TailCallsReturn g := by
  refine ⟨?_, _, rfl, ?_⟩
  · intro f listed
    obtain rfl := List.mem_singleton.mp listed
    exact forwarder_tailCallsReturn
  · intro kept
    obtain ⟨last, rest, same, returns⟩ := kept _ List.mem_cons_self _ List.mem_cons_self
      [.createCall String (.logFunctionEntry 0x89ABCDEF00000000)] _ _ rfl rfl
    obtain ⟨rfl, -⟩ := List.cons_eq_cons.mp same
    simp [Instruction.isReturn, Instruction.createCall] at returns

theorem sampleMain_without : ¬ HasMustTail sampleMain := by
  simp [HasMustTail, sampleMain, Instruction.isMustTail]

/-- Rejecting the function with the tail call keeps it in order. -/
theorem forwarder_rejected :
    ∃ result, instrumentModule sampleEnvironment sampleOptions
        (fun info => some ⟨info.linkageName = "main", none⟩)
        ⟨"forward.ll", [forwarder, sampleMain]⟩ = some result ∧
      ∀ g ∈ result.functions, TailCallsReturn g := by
  obtain ⟨result, returned⟩ := Option.isSome_iff_exists.mp
    (show (instrumentModule sampleEnvironment sampleOptions
      (fun info => some ⟨info.linkageName = "main", none⟩)
      ⟨"forward.ll", [forwarder, sampleMain]⟩).isSome = true from rfl)
  refine ⟨result, returned, (instrumentModule_tailCalls ?_ returned).mpr ?_⟩
  · intro f listed
    rcases List.mem_cons.mp listed with rfl | last
    · exact forwarder_tailCallsReturn
    · obtain rfl := List.mem_singleton.mp last
      exact tailCallsReturn_of_without sampleMain_without
  · intro f listed _ accepted
    rcases List.mem_cons.mp listed with rfl | last
    · have rejected : accepts sampleEnvironment
          (fun info => some ⟨info.linkageName = "main", none⟩) forwarder = some false := rfl
      rw [rejected] at accepted
      contradiction
    · obtain rfl := List.mem_singleton.mp last
      exact sampleMain_without

end Module

end Spoor.Instrumentation
