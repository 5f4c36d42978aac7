import Mathlib.Data.List.Perm.Basic
import Spoor.Buffer.Accounting
import Spoor.Lib.Transition

/-! # Runs of the combined pool

Clients borrow slices, push into them, move the pointers to them around, return
them one at a time or as a collection, or just let the pointers go out of scope.
A pointer knows its owner, so the pool can tell its own slices from those of
other pools and send each back to the part of it that lent it.  A pointer that
was moved from is null and owns nothing; only the others are kept track of here.
-/

namespace Spoor.Buffer

open Lib.Transition

variable {α φ : Type}

/-- `OwnedPtr` to a slice of the combined pool or of some other pool. -/
abbrev SlicePtr (φ α : Type) : Type := OwnedSlicePtr (Owner ⊕ φ) α

/-- The pointer, if the combined pool is its owner. -/
def OwnedSlicePtr.own? (ptr : SlicePtr φ α) : Option (OwnedSlicePtr Owner α) :=
  match ptr.owner with
  | .inl owner => some ⟨owner, ptr.slice⟩
  | .inr _ => none

/-- A slice of the combined pool, as its clients see it. -/
def OwnedSlicePtr.lent (ptr : OwnedSlicePtr Owner α) : SlicePtr φ α :=
  ⟨.inl ptr.owner, ptr.slice⟩

namespace CombinedBufferSlicePool

/-- `Return` of an `OwnedPtr`.  The error is the pointer, which is null if the
    slice was taken from it before the reserved pool refused its address. -/
def returnSlice (p : CombinedBufferSlicePool α) (slice : SlicePtr φ α) :
    Except (Option (SlicePtr φ α)) Unit × CombinedBufferSlicePool α :=
  match slice.owner with
  | .inl (.reserved index) =>
      (if p.reserved.capacity ≤ index then .error none else .ok (),
        p.giveBack ⟨.reserved index, slice.slice⟩)
  | .inl .dynamic => (.ok (), p.giveBack ⟨.dynamic, slice.slice⟩)
  | .inr _ => (.error (some slice), p)

/-- `Return` of a collection, with the slices owned by other pools. -/
def returnSlices (p : CombinedBufferSlicePool α) :
    List (SlicePtr φ α) → List (Option (SlicePtr φ α)) × CombinedBufferSlicePool α
  | [] => ([], p)
  | slice :: slices =>
      match p.returnSlice slice with
      | (.ok (), p) => p.returnSlices slices
      | (.error err, p) =>
          let (slicesOwnedByOtherPools, p) := p.returnSlices slices
          (err :: slicesOwnedByOtherPools, p)

/-- The destructor of an `OwnedPtr`, as far as it concerns this pool. -/
def destroy (p : CombinedBufferSlicePool α) (ptr : SlicePtr φ α) : CombinedBufferSlicePool α :=
  match ptr.own? with
  | some own => p.giveBack own
  | none => p

/-- Moving pointers out of some others, by their positions among those left. -/
def takeAll : List (SlicePtr φ α) → List Nat → Option (List (SlicePtr φ α) × List (SlicePtr φ α))
  | held, [] => some ([], held)
  | held, index :: indices => do
      let ptr ← held[index]?
      let (ptrs, rest) ← takeAll (held.eraseIdx index) indices
      pure (ptr :: ptrs, rest)

/-- The pool and all pointers to slices, those to slices of other pools included. -/
structure System (φ α : Type) where
  pool : CombinedBufferSlicePool α
  held : List (SlicePtr φ α)

/-- `borrow` carries how many exchanges fail for no reason; `adopt` is a pointer
    that comes from another pool. -/
inductive Action (φ α : Type) where
  | borrow (preferredSliceCapacity failures : Nat)
  | adopt (owner : φ) (slice : Slice α)
  | push (position : Nat) (item : α)
  | giveBack (position : Nat)
  | giveBackAll (positions : List Nat)
  | destroy (position : Nat)

namespace System

def start (o : Options) (value : α) : System φ α := ⟨.new o value, []⟩

def step (s : System φ α) : Action φ α → Option (System φ α)
  | .borrow preferredSliceCapacity failures =>
      match CombinedBufferSlicePool.borrow ⟨0, failures⟩ preferredSliceCapacity s.pool with
      | (.ok ptr, pool) => some ⟨pool, s.held ++ [ptr.lent]⟩
      | (.error _, pool) => some { s with pool }
  | .adopt owner slice => some { s with held := s.held ++ [⟨.inr owner, slice⟩] }
  | .push position item =>
      s.held[position]?.map fun ptr =>
        { s with held := s.held.set position { ptr with slice := ptr.slice.push item } }
  | .giveBack position =>
      s.held[position]?.map fun ptr =>
        match s.pool.returnSlice ptr with
        | (.ok (), pool) => ⟨pool, s.held.eraseIdx position⟩
        | (.error err, pool) => ⟨pool, s.held.eraseIdx position ++ err.toList⟩
  | .giveBackAll positions =>
      (takeAll s.held positions).map fun taken =>
        let (others, pool) := s.pool.returnSlices taken.1
        ⟨pool, taken.2 ++ others.filterMap id⟩
  | .destroy position =>
      s.held[position]?.map fun ptr => ⟨s.pool.destroy ptr, s.held.eraseIdx position⟩

end System

/-- The slices of the combined pool among some pointers, as the pool knows them. -/
def tokensOf (ptrs : List (SlicePtr φ α)) : Multiset Token :=
  ptrs.filterMap fun ptr => ptr.own?.map OwnedSlicePtr.token

theorem tokensOf_perm {left right : List (SlicePtr φ α)} (same : left.Perm right) :
    tokensOf left = tokensOf right :=
  Multiset.coe_eq_coe.mpr (same.filterMap _)

theorem tokensOf_append (left right : List (SlicePtr φ α)) :
    tokensOf (left ++ right) = tokensOf left + tokensOf right := by
  simp [tokensOf]

theorem tokensOf_own {ptr : SlicePtr φ α} {own : OwnedSlicePtr Owner α}
    (owned : ptr.own? = some own) (rest : List (SlicePtr φ α)) :
    tokensOf (ptr :: rest) = own.token ::ₘ tokensOf rest := by
  simp [tokensOf, owned]

theorem tokensOf_foreign {ptr : SlicePtr φ α} (foreign : ptr.own? = none)
    (rest : List (SlicePtr φ α)) : tokensOf (ptr :: rest) = tokensOf rest := by
  simp [tokensOf, foreign]

theorem own?_lent (ptr : OwnedSlicePtr Owner α) : (ptr.lent : SlicePtr φ α).own? = some ptr := rfl

theorem takeAll_perm {held ptrs rest : List (SlicePtr φ α)} {positions : List Nat}
    (taken : takeAll held positions = some (ptrs, rest)) : held.Perm (ptrs ++ rest) := by
  induction positions generalizing held ptrs with
  | nil =>
      obtain ⟨rfl, rfl⟩ : [] = ptrs ∧ held = rest := by simpa [takeAll] using taken
      exact .refl _
  | cons position positions ih =>
      simp only [takeAll, Option.bind_eq_bind, Option.bind_eq_some_iff] at taken
      obtain ⟨ptr, found, ⟨others, left⟩, rested, made⟩ := taken
      obtain ⟨rfl, rfl⟩ : ptr :: others = ptrs ∧ left = rest := by simpa using made
      obtain ⟨inside, rfl⟩ := List.getElem?_eq_some_iff.mp found
      have moved := List.getElem_cons_eraseIdx_perm inside
      exact moved.symm.trans ((ih rested).cons _)

/-- The slices of the combined pool are well formed. -/
def Formed (ptrs : List (SlicePtr φ α)) : Prop :=
  ∀ ptr ∈ ptrs, ∀ own, ptr.own? = some own → own.slice.WellFormed

theorem Formed.perm {left right : List (SlicePtr φ α)} (same : left.Perm right)
    (formed : Formed left) : Formed right :=
  fun ptr member => formed ptr (same.mem_iff.mpr member)

/-- The pool accounts for its slices among the pointers, and what it has is as
    it is to be lent. -/
structure Keeps (p : CombinedBufferSlicePool α) (ptrs : List (SlicePtr φ α)) : Prop where
  accounts : p.Accounts (tokensOf ptrs)
  clean : p.reserved.Clean
  formed : Formed ptrs

variable {p : CombinedBufferSlicePool α} {ptr : SlicePtr φ α} {ptrs rest : List (SlicePtr φ α)}

theorem Keeps.perm (same : ptrs.Perm rest) (keeps : p.Keeps ptrs) : p.Keeps rest :=
  ⟨tokensOf_perm same ▸ keeps.accounts, keeps.clean, keeps.formed.perm same⟩

/-- Taking one pointer out of the others. -/
theorem Keeps.take {position : Nat} (keeps : p.Keeps ptrs) (held : ptrs[position]? = some ptr) :
    p.Keeps (ptr :: ptrs.eraseIdx position) := by
  obtain ⟨inside, rfl⟩ := List.getElem?_eq_some_iff.mp held
  exact keeps.perm (List.getElem_cons_eraseIdx_perm inside).symm

/-- A slice of the combined pool goes back. -/
theorem Keeps.giveBack {own : OwnedSlicePtr Owner α} (keeps : p.Keeps (ptr :: rest))
    (owned : ptr.own? = some own) : (p.giveBack own).Keeps rest := by
  have accounts := keeps.accounts
  rw [tokensOf_own owned] at accounts
  refine ⟨accounts.returned, ?_, fun other member => keeps.formed other (by simp [member])⟩
  exact giveBack_clean keeps.clean (keeps.formed ptr (by simp) own owned)

theorem Keeps.foreign (keeps : p.Keeps (ptr :: rest)) (foreign : ptr.own? = none) :
    p.Keeps rest :=
  ⟨tokensOf_foreign foreign rest ▸ keeps.accounts, keeps.clean,
    fun other member => keeps.formed other (by simp [member])⟩

/-- A flag is set for as long as there is a pointer to the slice. -/
theorem Keeps.borrowed_iff {index : Nat} (keeps : p.Keeps ptrs) :
    index ∈ p.reserved.borrowed ↔ ∃ ptr ∈ ptrs, ptr.owner = .inl (.reserved index) := by
  have lent : ∀ capacity, (index, capacity) ∈ (tokensOf ptrs).filterMap Token.reserved? ↔
      ∃ ptr ∈ ptrs, ptr.owner = .inl (.reserved index) ∧ ptr.slice.capacity = capacity := by
    intro capacity
    simp only [Multiset.mem_filterMap, tokensOf, Multiset.mem_coe, List.mem_filterMap]
    constructor
    · rintro ⟨token, ⟨ptr, member, owned⟩, known⟩
      obtain ⟨own, mine, rfl⟩ := Option.map_eq_some_iff.mp owned
      refine ⟨ptr, member, ?_⟩
      unfold OwnedSlicePtr.own? at mine
      split at mine
      · rename_i owner names
        obtain rfl := Option.some.inj mine
        cases owner with
        | reserved other => simpa [names, OwnedSlicePtr.token, Token.reserved?] using known
        | dynamic => simp [OwnedSlicePtr.token, Token.reserved?] at known
      · cases mine
    · rintro ⟨ptr, member, names, rfl⟩
      refine ⟨(.reserved index, ptr.slice.capacity), ⟨ptr, member, ?_⟩, rfl⟩
      simp [OwnedSlicePtr.own?, names, OwnedSlicePtr.token]
  constructor
  · intro borrowed
    have listed : (index, p.reserved.sliceCapacity index) ∈
        (tokensOf ptrs).filterMap Token.reserved? := by
      rw [keeps.accounts.reserved.lent]
      exact Multiset.mem_map_of_mem _ borrowed
    obtain ⟨ptr, member, names, -⟩ := (lent _).mp listed
    exact ⟨ptr, member, names⟩
  · rintro ⟨ptr, member, names⟩
    have listed := (lent _).mpr ⟨ptr, member, names, rfl⟩
    rw [keeps.accounts.reserved.lent] at listed
    obtain ⟨other, borrowed, same⟩ := Multiset.mem_map.mp listed
    obtain ⟨rfl, -⟩ := Prod.mk.inj same
    exact borrowed

/-- The reserved pool never refuses the address of a slice it lent. -/
theorem Keeps.addressed {index : Nat} (keeps : p.Keeps ptrs) (held : ptr ∈ ptrs)
    (owner : ptr.owner = .inl (.reserved index)) : ¬ p.reserved.capacity ≤ index := by
  have borrowed := keeps.borrowed_iff.mpr ⟨ptr, held, owner⟩
  have inside := Finset.mem_range.mp (keeps.accounts.reserved.inside borrowed)
  have countable := keeps.accounts.reserved.countable
  omega

/-- A slice is taken back from a pointer of this pool, and given back with any
    other pointer. -/
theorem Keeps.returnSlice_eq (keeps : p.Keeps ptrs) (held : ptr ∈ ptrs) :
    p.returnSlice ptr =
      match ptr.own? with
      | some own => (.ok (), p.giveBack own)
      | none => (.error (some ptr), p) := by
  unfold returnSlice OwnedSlicePtr.own?
  cases names : ptr.owner with
  | inr other => rfl
  | inl owner =>
      cases owner with
      | dynamic => rfl
      | reserved index => simp [keeps.addressed held names]

/-- Returning a collection takes back the slices of this pool and gives back the
    other ones in order. -/
theorem Keeps.returnSlices (keeps : p.Keeps (ptrs ++ rest)) :
    (p.returnSlices ptrs).1 = (ptrs.filter fun ptr => ptr.own?.isNone).map some ∧
      (p.returnSlices ptrs).2.Keeps rest := by
  induction ptrs generalizing p with
  | nil => exact ⟨rfl, keeps⟩
  | cons ptr ptrs ih =>
      have first : ptr ∈ ptr :: ptrs ++ rest := by simp
      rw [CombinedBufferSlicePool.returnSlices, keeps.returnSlice_eq first]
      cases owned : ptr.own? with
      | some own =>
          obtain ⟨others, kept⟩ := ih (keeps.giveBack owned)
          simpa [owned] using ⟨others, kept⟩
      | none =>
          obtain ⟨others, kept⟩ := ih (keeps.foreign owned)
          simpa [owned] using ⟨others, kept⟩

/-- A pointer the pool does not own may be anywhere. -/
theorem Keeps.adopt (keeps : p.Keeps ptrs) {others : List (SlicePtr φ α)}
    (foreign : ∀ ptr ∈ others, ptr.own? = none) : p.Keeps (ptrs ++ others) := by
  have unknown : tokensOf others = 0 := by
    simpa [tokensOf, List.filterMap_eq_nil_iff] using foreign
  refine ⟨?_, keeps.clean, ?_⟩
  · rw [tokensOf_append, unknown, add_zero]
    exact keeps.accounts
  · intro ptr member own owned
    rcases List.mem_append.mp member with held | other
    · exact keeps.formed ptr held own owned
    · rw [foreign ptr other] at owned
      cases owned

theorem Keeps.lend {overtaken : Overtaken} {preferred : Nat} {lent : OwnedSlicePtr Owner α}
    {p' : CombinedBufferSlicePool α} (keeps : p.Keeps ptrs)
    (lends : borrow overtaken preferred p = (.ok lent, p')) :
    p'.Keeps (ptrs ++ [lent.lent]) ∧ lent.slice.Fresh := by
  obtain ⟨clean, fresh⟩ := borrow_fresh keeps.clean lends
  refine ⟨⟨?_, clean, ?_⟩, fresh lent rfl⟩
  · rw [tokensOf_append, tokensOf_own (own?_lent lent), add_comm, Multiset.cons_add]
    simpa [tokensOf] using keeps.accounts.lend lends
  · intro ptr member own owned
    rcases List.mem_append.mp member with held | new
    · exact keeps.formed ptr held own owned
    · obtain rfl := List.mem_singleton.mp new
      obtain rfl := Option.some.inj ((own?_lent lent).symm.trans owned)
      exact (fresh _ rfl).formed

theorem Keeps.refuse {overtaken : Overtaken} {preferred : Nat} {error : BorrowError}
    {p' : CombinedBufferSlicePool α} (keeps : p.Keeps ptrs)
    (refuses : borrow overtaken preferred p = (.error error, p')) : p'.Keeps ptrs :=
  ⟨keeps.accounts.refuse refuses, (borrow_fresh keeps.clean refuses).1, keeps.formed⟩

theorem own?_push (ptr : SlicePtr φ α) (item : α) :
    OwnedSlicePtr.own? { ptr with slice := ptr.slice.push item } =
      ptr.own?.map fun own => { own with slice := own.slice.push item } := by
  unfold OwnedSlicePtr.own?
  cases ptr.owner <;> rfl

theorem Keeps.push {position : Nat} (keeps : p.Keeps ptrs) (held : ptrs[position]? = some ptr)
    (item : α) : p.Keeps (ptrs.set position { ptr with slice := ptr.slice.push item }) := by
  have before := keeps.take held
  have inside := (List.getElem?_eq_some_iff.mp held).1
  have pushed := own?_push ptr item
  refine Keeps.perm (List.set_perm_cons_eraseIdx inside _).symm ⟨?_, keeps.clean, ?_⟩
  · cases owned : ptr.own? with
    | some own =>
        rw [owned, Option.map_some] at pushed
        rw [tokensOf_own pushed, OwnedSlicePtr.token, Slice.capacity_push]
        exact tokensOf_own owned _ ▸ before.accounts
    | none =>
        rw [owned, Option.map_none] at pushed
        rw [tokensOf_foreign pushed]
        exact tokensOf_foreign owned _ ▸ before.accounts
  · intro other member own owned
    rcases List.mem_cons.mp member with rfl | left
    · rw [pushed] at owned
      obtain ⟨earlier, mine, rfl⟩ := Option.map_eq_some_iff.mp owned
      exact ((before.formed _ (by simp) earlier mine).push item).1
    · exact before.formed other (by simp [left]) own owned

/-- Clients return pointers they hold and keep the ones they get back. -/
theorem Keeps.returned (keeps : p.Keeps (ptrs ++ rest)) :
    (p.returnSlices ptrs).2.Keeps (rest ++ (p.returnSlices ptrs).1.filterMap id) := by
  obtain ⟨others, kept⟩ := keeps.returnSlices
  apply kept.adopt
  intro ptr member
  simp only [others, List.filterMap_map, Function.comp_def, id, List.filterMap_some] at member
  simpa using (List.mem_filter.mp member).2

theorem Keeps.destroy (keeps : p.Keeps (ptr :: rest)) : (p.destroy ptr).Keeps rest := by
  unfold CombinedBufferSlicePool.destroy
  cases owned : ptr.own? with
  | some own => exact keeps.giveBack owned
  | none => exact keeps.foreign owned

/-- The items in reserved slices that some pointers lead to. -/
def reservedLent (ptrs : List (SlicePtr φ α)) : Nat :=
  (((tokensOf ptrs).filterMap Token.reserved?).map Prod.snd).sum

def dynamicLent (ptrs : List (SlicePtr φ α)) : Nat :=
  ((tokensOf ptrs).filterMap Token.dynamic?).sum

theorem Keeps.sizes (keeps : p.Keeps ptrs) :
    p.reserved.size + reservedLent ptrs = p.reserved.capacity ∧
      p.dynamic.size + dynamicLent ptrs = p.dynamic.capacity :=
  ⟨keeps.accounts.reserved.size_add_lent, keeps.accounts.dynamic.size_add_lent⟩

theorem reservedLent_cons {index : Nat} (owner : ptr.owner = .inl (.reserved index)) :
    reservedLent (ptr :: rest) = ptr.slice.capacity + reservedLent rest := by
  have owned : ptr.own? = some ⟨.reserved index, ptr.slice⟩ := by simp [OwnedSlicePtr.own?, owner]
  rw [reservedLent, tokensOf_own owned, OwnedSlicePtr.token,
    Multiset.filterMap_cons_some Token.reserved? _ _ rfl, Multiset.map_cons, Multiset.sum_cons]
  rfl

theorem dynamicLent_cons (owner : ptr.owner = .inl .dynamic) :
    dynamicLent (ptr :: rest) = ptr.slice.capacity + dynamicLent rest := by
  have owned : ptr.own? = some ⟨.dynamic, ptr.slice⟩ := by simp [OwnedSlicePtr.own?, owner]
  rw [dynamicLent, tokensOf_own owned, OwnedSlicePtr.token,
    Multiset.filterMap_cons_some Token.dynamic? _ _ rfl, Multiset.sum_cons]
  rfl

/-- Nobody passes a borrower by in a sequential run, so the reserved pool only
    refuses when every slice is away. -/
theorem borrowed_of_refused {p p' : ReservedBufferSlicePool α} {failures : Nat}
    {error : BorrowError} (refuses : p.borrow ⟨0, failures⟩ = (.error error, p')) :
    ∀ index < p.pool.length, index ∈ p.borrowed := by
  unfold ReservedBufferSlicePool.borrow at refuses
  simp only [Nat.sub_zero] at refuses
  split at refuses
  · rename_i all
    simpa using all
  · rename_i index found
    have inside : index < p.pool.length := by simpa using List.mem_of_find?_eq_some found
    simp [List.getElem?_eq_getElem inside] at refuses

/-- What a granted slice tells about the pool it comes from. -/
theorem borrow_granted {p' : CombinedBufferSlicePool α} {failures preferred : Nat}
    {lent : OwnedSlicePtr Owner α} (lends : borrow ⟨0, failures⟩ preferred p = (.ok lent, p')) :
    (∃ index, lent.owner = .reserved index ∧ index < p.reserved.pool.length ∧
        index ∉ p.reserved.borrowed ∧ p'.dynamic = p.dynamic ∧
        p'.reserved.capacity = p.reserved.capacity) ∨
      lent.owner = .dynamic ∧ (∀ index < p.reserved.pool.length, index ∈ p.reserved.borrowed) ∧
        p'.reserved = p.reserved ∧ p'.dynamic.capacity = p.dynamic.capacity := by
  rcases borrow_ok lends with ⟨lends', same⟩ | ⟨⟨error, refuses⟩, same, lends'⟩
  · obtain ⟨index, slice, stored, free, rfl, reserved⟩ :=
      ReservedBufferSlicePool.borrow_ok lends'
    have inside := (List.getElem?_eq_some_iff.mp stored).1
    refine .inl ⟨index, rfl, inside, free, same, ?_⟩
    simp only [reserved, ReservedBufferSlicePool.capacity]
  · obtain ⟨-, rfl, exchanged⟩ := DynamicBufferSlicePool.borrow_ok lends'
    refine .inr ⟨rfl, borrowed_of_refused refuses, same, ?_⟩
    simp only [exchanged, DynamicBufferSlicePool.capacity]

theorem capacity_giveBack (p : CombinedBufferSlicePool α) (own : OwnedSlicePtr Owner α) :
    (p.giveBack own).reserved.capacity = p.reserved.capacity ∧
      (p.giveBack own).dynamic.capacity = p.dynamic.capacity := by
  unfold CombinedBufferSlicePool.giveBack
  split
  · unfold ReservedBufferSlicePool.giveBack
    split <;> exact ⟨rfl, rfl⟩
  · exact ⟨rfl, rfl⟩

namespace System

variable {s s' : System φ α} {action : Action φ α}

theorem step_keeps (keeps : s.pool.Keeps s.held) (taken : s.step action = some s') :
    s'.pool.Keeps s'.held := by
  cases action with
  | borrow preferred failures =>
      simp only [step] at taken
      split at taken
      · rename_i ptr pool lends
        obtain rfl := Option.some.inj taken
        exact (keeps.lend lends).1
      · rename_i error pool refuses
        obtain rfl := Option.some.inj taken
        exact keeps.refuse refuses
  | adopt owner slice =>
      obtain rfl := Option.some.inj taken
      exact keeps.adopt (by simp [OwnedSlicePtr.own?])
  | push position item =>
      obtain ⟨ptr, held, rfl⟩ := Option.map_eq_some_iff.mp taken
      exact keeps.push held item
  | giveBack position =>
      obtain ⟨ptr, held, rfl⟩ := Option.map_eq_some_iff.mp taken
      have first := keeps.take held
      rw [first.returnSlice_eq (by simp)]
      cases owned : ptr.own? with
      | some own => exact first.giveBack owned
      | none => exact (first.foreign owned).adopt (by simpa using owned)
  | giveBackAll positions =>
      obtain ⟨⟨ptrs, rest⟩, moved, rfl⟩ := Option.map_eq_some_iff.mp taken
      exact (keeps.perm (takeAll_perm moved)).returned
  | destroy position =>
      obtain ⟨ptr, held, rfl⟩ := Option.map_eq_some_iff.mp taken
      exact (keeps.take held).destroy

theorem exec_keeps {o : Options} {value : α} {actions : List (Action φ α)}
    (reached : exec step (start o value) actions = some s) : s.pool.Keeps s.held := by
  refine invariant_always (fun s => s.pool.Keeps s.held) ?_ (fun _ _ _ => step_keeps) reached
  exact ⟨.initially o value, .initially o.reserved value, by simp [Formed, start]⟩

/-- No pointer leads to this slice of the reserved pool. -/
def Free (s : System φ α) (index : Nat) : Prop :=
  index < s.pool.reserved.pool.length ∧ ∀ ptr ∈ s.held, ptr.owner ≠ .inl (.reserved index)

/-- The pool that grants a slice is its owner, and the dynamic pool grants none
    while a reserved one is free. -/
def Grants (s : System φ α) (ptr : OwnedSlicePtr Owner α) (pool' : CombinedBufferSlicePool α) :
    Prop :=
  match ptr.owner with
  | .reserved index =>
      s.Free index ∧ pool'.dynamic = s.pool.dynamic ∧
        pool'.reserved.size + ptr.slice.capacity = s.pool.reserved.size
  | .dynamic =>
      (∀ index, ¬ s.Free index) ∧ pool'.reserved = s.pool.reserved ∧
        pool'.dynamic.size + ptr.slice.capacity = s.pool.dynamic.size

/-- A slice goes back to its owner and to nowhere else. -/
def GoesBack (s : System φ α) (ptr : SlicePtr φ α) (pool' : CombinedBufferSlicePool α) : Prop :=
  match ptr.owner with
  | .inl (.reserved index) =>
      index ∉ pool'.reserved.borrowed ∧ pool'.dynamic = s.pool.dynamic ∧
        pool'.reserved.size = s.pool.reserved.size + ptr.slice.capacity
  | .inl .dynamic =>
      pool'.reserved = s.pool.reserved ∧
        pool'.dynamic.size = s.pool.dynamic.size + ptr.slice.capacity
  | .inr _ => pool' = s.pool

/-- What holds whenever the pool is not in a call. -/
structure Conserves (s : System φ α) : Prop where
  borrow : ∀ preferredSliceCapacity failures ptr pool',
    CombinedBufferSlicePool.borrow ⟨0, failures⟩ preferredSliceCapacity s.pool = (.ok ptr, pool') →
      ptr.slice.empty = true ∧ s.Grants ptr pool'
  returnOne : ∀ ptr ∈ s.held, ∃ pool',
    s.pool.returnSlice ptr =
        (if ptr.owner.isRight then .error (some ptr) else .ok (), pool') ∧
      s.GoesBack ptr pool'
  destroy : ∀ ptr ∈ s.held, s.GoesBack ptr (s.pool.destroy ptr)
  returnMany : ∀ positions ptrs rest, takeAll s.held positions = some (ptrs, rest) →
    (s.pool.returnSlices ptrs).1 = (ptrs.filter fun ptr => ptr.owner.isRight).map some
  sizes : s.pool.reserved.size + reservedLent s.held = s.pool.reserved.capacity ∧
    s.pool.dynamic.size + dynamicLent s.held = s.pool.dynamic.capacity
  full : (∀ ptr ∈ s.held, ptr.owner.isRight) →
    s.pool.reserved.full = true ∧ s.pool.dynamic.full = true

theorem free_iff (keeps : s.pool.Keeps s.held) {index : Nat} :
    s.Free index ↔ index < s.pool.reserved.pool.length ∧ index ∉ s.pool.reserved.borrowed := by
  rw [Free, keeps.borrowed_iff]
  simp

theorem grants {preferred failures : Nat} {ptr : OwnedSlicePtr Owner α}
    {pool' : CombinedBufferSlicePool α} (keeps : s.pool.Keeps s.held)
    (lends : CombinedBufferSlicePool.borrow ⟨0, failures⟩ preferred s.pool = (.ok ptr, pool')) :
    s.Grants ptr pool' := by
  have lent : pool'.Keeps (ptr.lent :: s.held) :=
    (keeps.lend lends).1.perm (List.perm_append_singleton _ _)
  obtain ⟨reserved, dynamic⟩ := keeps.sizes
  obtain ⟨reserved', dynamic'⟩ := lent.sizes
  unfold Grants
  rcases borrow_granted lends with
    ⟨index, owner, inside, free, same, capacity⟩ | ⟨owner, none, same, capacity⟩
  · rw [reservedLent_cons (congrArg Sum.inl owner)] at reserved'
    simp only [owner]
    refine ⟨(free_iff keeps).mpr ⟨inside, free⟩, same, ?_⟩
    simp only [OwnedSlicePtr.lent] at reserved'
    omega
  · rw [dynamicLent_cons (congrArg Sum.inl owner)] at dynamic'
    simp only [owner]
    refine ⟨?_, same, ?_⟩
    · intro index free
      exact ((free_iff keeps).mp free).2 (none index free.1)
    · simp only [OwnedSlicePtr.lent] at dynamic'
      omega

theorem goesBack {ptr : SlicePtr φ α} (keeps : s.pool.Keeps s.held) (held : ptr ∈ s.held) :
    s.GoesBack ptr (s.pool.destroy ptr) := by
  obtain ⟨before, after, split⟩ := List.append_of_mem held
  have first : s.pool.Keeps (ptr :: (before ++ after)) :=
    keeps.perm (split ▸ List.perm_middle)
  obtain ⟨reserved, dynamic⟩ := first.sizes
  obtain ⟨reserved', dynamic'⟩ := first.destroy.sizes
  unfold GoesBack
  unfold CombinedBufferSlicePool.destroy OwnedSlicePtr.own? at *
  cases names : ptr.owner with
  | inr other => rfl
  | inl owner =>
      simp only [names] at reserved' dynamic' ⊢
      obtain ⟨reservedCapacity, dynamicCapacity⟩ := s.pool.capacity_giveBack ⟨owner, ptr.slice⟩
      cases owner with
      | reserved index =>
          rw [reservedLent_cons names] at reserved
          refine ⟨?_, rfl, by omega⟩
          simp [CombinedBufferSlicePool.giveBack, ReservedBufferSlicePool.giveBack,
            keeps.addressed held names]
      | dynamic =>
          rw [dynamicLent_cons names] at dynamic
          exact ⟨rfl, by omega⟩

theorem own?_isNone (ptr : SlicePtr φ α) : ptr.own?.isNone = ptr.owner.isRight := by
  unfold OwnedSlicePtr.own?
  cases ptr.owner <;> rfl

/-- Returning a slice does to the pool what the end of its pointer does. -/
theorem returnSlice_destroy {ptr : SlicePtr φ α} (keeps : s.pool.Keeps s.held)
    (held : ptr ∈ s.held) : s.pool.returnSlice ptr =
      (if ptr.owner.isRight then .error (some ptr) else .ok (), s.pool.destroy ptr) := by
  rw [keeps.returnSlice_eq held, ← own?_isNone, CombinedBufferSlicePool.destroy]
  cases ptr.own? <;> rfl

/-- In every sequential run of the combined pool, with any other pools around,
    a slice is granted empty and by the reserved pool if it has one, goes back to
    the pool that granted it, and the slices of other pools come back from a
    return as they were and in their order.  The pools are full once all their
    slices are back. -/
theorem combinedPool_conserves {o : Options} {value : α} {actions : List (Action φ α)}
    (reached : exec step (start o value) actions = some s) : s.Conserves := by
  have keeps := exec_keeps reached
  constructor
  case borrow =>
    intro preferred failures ptr pool' lends
    exact ⟨(keeps.lend lends).2.isEmpty, grants keeps lends⟩
  case returnOne =>
    intro ptr held
    exact ⟨s.pool.destroy ptr, returnSlice_destroy keeps held, goesBack keeps held⟩
  case destroy => exact fun ptr held => goesBack keeps held
  case returnMany =>
    intro positions ptrs rest taken
    have others := (keeps.perm (takeAll_perm taken)).returnSlices.1
    simpa only [own?_isNone] using others
  case sizes => exact keeps.sizes
  case full =>
    intro foreign
    have none : tokensOf s.held = 0 := by
      simpa [tokensOf, List.filterMap_eq_nil_iff, ← own?_isNone] using foreign
    have accounts := keeps.accounts
    rw [none] at accounts
    exact ⟨accounts.reserved.isFull, accounts.dynamic.isFull⟩

def smallOptions : Options :=
  ⟨⟨2, 2, by decide⟩, ⟨3, 3, 1, by decide⟩⟩

/-- A reserved and a dynamic slice are returned along with one of another pool. -/
def mixedReturn : List (Action Unit Nat) :=
  [.borrow 3 0, .borrow 3 0, .push 0 7, .adopt () (.owned (.new 1)), .push 2 9,
    .giveBackAll [1, 1, 0]]

theorem mixedReturn_conserves :
    ∃ s : System Unit Nat, exec step (start smallOptions 0) mixedReturn = some s ∧
      s.held = [⟨.inr (), .owned ⟨1, [9], 1⟩⟩] ∧ s.pool.reserved.full = true ∧
      s.pool.dynamic.full = true := by
  obtain ⟨s, reached⟩ := Option.isSome_iff_exists.mp
    (show (exec step (start smallOptions 0) mixedReturn : Option (System Unit Nat)).isSome = true
      from rfl)
  have held : (exec step (start smallOptions 0) mixedReturn).map System.held =
      some [(⟨.inr (), .owned ⟨1, [9], 1⟩⟩ : SlicePtr Unit Nat)] := rfl
  rw [reached, Option.map_some, Option.some.injEq] at held
  obtain ⟨reserved, dynamic⟩ := (combinedPool_conserves reached).full (by simp [held])
  exact ⟨s, reached, held, reserved, dynamic⟩

end System

end CombinedBufferSlicePool

end Spoor.Buffer
