import Spoor.Buffer.Accounting
import Spoor.Buffer.Contents
import Spoor.Lib.Transition

/-! # The capacity of a buffer

A buffer asks its pool for a slice of the size that it has room for.  The dynamic
pool lends no more than that.  The reserved pool lends the first slice that is
free, whatever its size, and the buffer writes through all of it.  So a buffer
stays within its capacity as long as the slices that it finds in a reserved pool
have room in it.
-/

namespace Spoor.Buffer

open Lib.RingWindow Lib.Transition

variable {α ω π : Type}

namespace CircularSliceBuffer

variable {b : CircularSliceBuffer ω α} {window : List α}

/-! ## One push -/

/-- A pool that gives this answer, whatever it is asked for. -/
def replying (answer : Except BorrowError (OwnedSlicePtr ω α) × π) : Borrow ω π α :=
  fun _ _ => answer

theorem lends_replying {answer : Except BorrowError (OwnedSlicePtr ω α) × π}
    (fresh : ∀ ptr pool', answer = (.ok ptr, pool') → ptr.slice.Fresh) :
    Lends (replying answer) :=
  fun _ _ => fresh

/-- The pool is asked for the room that is left, and for nothing else. -/
theorem prepareToPush_replying (borrow : Borrow ω π α) (pool : π) :
    b.prepareToPush borrow pool =
      b.prepareToPush (replying (borrow (b.capacity - b.size) pool)) pool := by
  have advanced := b.advance_eq
  have capacity : b.advance.capacity = b.capacity := by rw [advanced]
  have size : b.advance.size = b.size := by rw [advanced]
  simp only [prepareToPush, replying, capacity, size]

theorem push_replying (borrow : Borrow ω π α) (pool : π) (item : α) :
    b.push borrow pool item =
      b.push (replying (borrow (b.capacity - b.size) pool)) pool item := by
  rw [push, push, ← prepareToPush_replying]

/-- A push into a buffer that the pool answers with a fresh slice or not at all. -/
theorem Holds.push {borrow : Borrow ω π α} {pool : π} (holds : b.Holds window)
    (fresh : ∀ ptr pool', borrow (b.capacity - b.size) pool = (.ok ptr, pool') →
      ptr.slice.Fresh) (item : α) :
    ∃ window', (b.push borrow pool item).1.Holds window' := by
  rw [push_replying]
  obtain ⟨window', _, _, holds'⟩ | ⟨_, same⟩ :=
    push_holds pool (lends_replying fresh) holds item
  · exact ⟨window', holds'⟩
  · rw [same]
    exact ⟨window, holds⟩

/-- A buffer at the end of its slices has written through all of them. -/
theorem Holds.size_of_ended (holds : b.Holds window)
    (ended : b.advance.insertionIterator = b.slices.length) :
    b.size = b.acquiredSlicesCapacity := by
  cases holds with
  | unused _ _ size acquired => rw [size, acquired]
  | turning before ptr after turning =>
      obtain ⟨rfl, lapped⟩ := turning.of_ended ended
      have written := totalSize_of_lapped turning.formed (turning.all_lapped lapped)
      rw [turning.size, turning.acquired, written]

theorem Holds.formed (holds : b.Holds window) : ∀ ptr ∈ b.slices, ptr.slice.WellFormed := by
  cases holds with
  | unused slices => simp [slices]
  | turning before ptr after turning => exact turning.formed

theorem holds_new (capacity : Nat) : (new capacity : CircularSliceBuffer ω α).Holds [] :=
  .unused rfl rfl rfl rfl

@[simp] theorem acquiredSlicesCapacity_insert (item : α) :
    (b.insert item).acquiredSlicesCapacity = b.acquiredSlicesCapacity := by
  unfold insert
  split <;> rfl

/-- The buffer is not larger than its capacity, and as large when it is full. -/
def WithinCapacity (b : CircularSliceBuffer ω α) : Prop :=
  b.size ≤ b.capacity ∧ (b.full = true → b.size = b.capacity)

instance (b : CircularSliceBuffer ω α) : Decidable b.WithinCapacity :=
  inferInstanceAs (Decidable (_ ∧ _))

theorem Holds.withinCapacity (holds : b.Holds window)
    (acquired : b.acquiredSlicesCapacity ≤ b.capacity) : b.WithinCapacity := by
  have size := holds.size_le.trans acquired
  refine ⟨size, ?_⟩
  intro full
  exact Nat.le_antisymm size (of_decide_eq_true full)

theorem push_eq_insert {borrow : Borrow ω π α} {pool : π} (positive : b.capacity ≠ 0) (item : α) :
    (b.push borrow pool item).1 = (b.prepareToPush borrow pool).1.insert item := by
  simp [CircularSliceBuffer.push, positive]

/-- A push keeps the slices within the capacity if the one that the pool lends has
    room in the buffer. -/
theorem Holds.push_acquired {borrow : Borrow ω π α} {pool : π} (holds : b.Holds window)
    (acquired : b.acquiredSlicesCapacity ≤ b.capacity)
    (fits : b.borrows = true → ∀ ptr pool',
      borrow (b.capacity - b.size) pool = (.ok ptr, pool') →
        ptr.slice.capacity ≤ b.capacity - b.size) (item : α) :
    (b.push borrow pool item).1.acquiredSlicesCapacity ≤ (b.push borrow pool item).1.capacity := by
  by_cases zero : b.capacity = 0
  · simpa [CircularSliceBuffer.push, zero] using acquired
  · rw [push_eq_insert zero, acquiredSlicesCapacity_insert, capacity_insert]
    have advanced := b.advance_eq
    have prepared := b.prepareToPush_prepared borrow pool
    generalize b.prepareToPush borrow pool = result at prepared ⊢
    cases prepared with
    | inside =>
        rw [advanced]
        exact acquired
    | wrapped | refused => exact acquired
    | lent ptr pool' ended room answer =>
        have asks : b.borrows = true := by simp [borrows, ended, room]
        have small := fits asks ptr pool' answer
        have written := holds.size_of_ended ended
        simp only [acquire]
        omega

/-- The slices of a buffer, and the room in them, become no less. -/
structure Grows (b b' : CircularSliceBuffer ω α) : Prop where
  capacity : b'.capacity = b.capacity
  slices : b'.slices ≠ []
  acquired : b.acquiredSlicesCapacity ≤ b'.acquiredSlicesCapacity
  size : b'.size = min (b.size + 1) b'.acquiredSlicesCapacity

theorem grows_insert {b' : CircularSliceBuffer ω α} (item : α) (capacity : b'.capacity = b.capacity)
    (acquired : b.acquiredSlicesCapacity ≤ b'.acquiredSlicesCapacity) (size : b'.size = b.size)
    (some : b'.current.isSome) : b.Grows (b'.insert item) := by
  obtain ⟨ptr, current⟩ := Option.isSome_iff_exists.mp some
  have inside := (List.getElem?_eq_some_iff.mp current).1
  have inserted : (b'.insert item).slices.length = b'.slices.length ∧
      (b'.insert item).size = min (b'.size + 1) b'.acquiredSlicesCapacity := by
    simp [insert, current]
  constructor
  · rw [capacity_insert, capacity]
  · apply List.ne_nil_of_length_pos
    omega
  · rw [acquiredSlicesCapacity_insert]
    exact acquired
  · rw [acquiredSlicesCapacity_insert, inserted.2, size]

/-- A buffer with slices takes every item. -/
theorem Holds.push_grows {borrow : Borrow ω π α} {pool : π} (holds : b.Holds window)
    (fresh : ∀ ptr pool', borrow (b.capacity - b.size) pool = (.ok ptr, pool') →
      ptr.slice.Fresh) (positive : b.capacity ≠ 0) (some : b.slices ≠ []) (item : α) :
    b.Grows (b.push borrow pool item).1 := by
  have accepted := holds.accepts pool (lends_replying fresh) positive some
  rw [accepts_iff positive, ← prepareToPush_replying] at accepted
  rw [push_eq_insert positive]
  have advanced := b.advance_eq
  have prepared := b.prepareToPush_prepared borrow pool
  generalize b.prepareToPush borrow pool = result at accepted prepared ⊢
  cases prepared with
  | inside =>
      rw [advanced] at accepted ⊢
      exact grows_insert item rfl (Nat.le_refl _) rfl accepted
  | wrapped | refused => exact grows_insert item rfl (Nat.le_refl _) rfl accepted
  | lent ptr pool' _ _ answer => exact grows_insert item rfl (Nat.le_add_right _ _) rfl accepted

/-- A push that borrows has the slice that the pool lends. -/
theorem push_lent {borrow : Borrow ω π α} {pool pool' : π} {ptr : OwnedSlicePtr ω α}
    (asks : b.borrows = true) (answer : borrow (b.capacity - b.size) pool = (.ok ptr, pool'))
    (item : α) : (b.push borrow pool item).1 = (b.acquire ptr).insert item := by
  rw [borrows, Bool.and_eq_true, beq_iff_eq, decide_eq_true_eq] at asks
  have positive : b.capacity ≠ 0 := by omega
  rw [push_eq_insert positive]
  have prepared := b.prepareToPush_prepared borrow pool
  generalize b.prepareToPush borrow pool = result at prepared ⊢
  cases prepared with
  | inside inner => exact absurd asks.1 inner
  | wrapped _ full => exact absurd asks.2 (Nat.not_lt.mpr full)
  | refused _ _ _ _ refuses => simp [answer] at refuses
  | lent _ _ _ _ lends =>
      rw [answer] at lends
      cases lends
      rfl

end CircularSliceBuffer

/-! ## The pools a buffer can have -/

/-- The slice that `Borrow` finds: the first one behind the passed ones that is not
    borrowed. -/
def ReservedBufferSlicePool.firstFree (p : ReservedBufferSlicePool α) (overtaken : Overtaken) :
    Option (Slice α) :=
  ((List.range' overtaken.passed (p.pool.length - overtaken.passed)).find?
    (· ∉ p.borrowed)).bind (p.pool[·]?)

theorem ReservedBufferSlicePool.firstFree_of_borrow {p p' : ReservedBufferSlicePool α}
    {overtaken : Overtaken} {ptr : OwnedSlicePtr Owner α}
    (lends : p.borrow overtaken = (.ok ptr, p')) : p.firstFree overtaken = some ptr.slice := by
  rw [firstFree]
  simp only [borrow] at lends
  split at lends
  · cases lends
  · rename_i index found
    split at lends
    · cases lends
    · rename_i slice stored
      cases lends
      rw [found, Option.bind_some, stored]

theorem ReservedBufferSlicePool.borrow_of_firstFree {p : ReservedBufferSlicePool α}
    {overtaken : Overtaken} {slice : Slice α} (free : p.firstFree overtaken = some slice) :
    ∃ ptr p', p.borrow overtaken = (.ok ptr, p') ∧ ptr.slice = slice := by
  obtain ⟨index, found, stored⟩ := Option.bind_eq_some_iff.mp free
  have lends : (p.borrow overtaken).1 = .ok ⟨.reserved index, slice⟩ := by
    simp only [borrow, found, stored]
  exact ⟨_, (p.borrow overtaken).2, Prod.ext lends rfl, rfl⟩

inductive SlicePool (α : Type) where
  | reserved (pool : ReservedBufferSlicePool α)
  | dynamic (pool : DynamicBufferSlicePool)
  | combined (pool : CombinedBufferSlicePool α)

namespace SlicePool

inductive Options where
  | reserved (options : ReservedBufferSlicePool.Options)
  | dynamic (options : DynamicBufferSlicePool.Options)
  | combined (options : CombinedBufferSlicePool.Options)

def new (value : α) : Options → SlicePool α
  | .reserved options => .reserved (.new options value)
  | .dynamic options => .dynamic (.new options)
  | .combined options => .combined (.new options value)

def borrow (overtaken : Overtaken) : Borrow Owner (SlicePool α) α
  | _, .reserved pool => (pool.borrow overtaken).map id .reserved
  | preferred, .dynamic pool => (pool.borrow overtaken preferred).map id .dynamic
  | preferred, .combined pool =>
      (CombinedBufferSlicePool.borrow overtaken preferred pool).map id .combined

/-- The slice of a pointer goes back to the pool; a pool has no slices of owners
    that it is not. -/
def giveBack (p : SlicePool α) (ptr : OwnedSlicePtr Owner α) : SlicePool α :=
  match p with
  | .reserved pool =>
      match ptr.owner with
      | .reserved index => .reserved (pool.giveBack index ptr.slice)
      | .dynamic => .reserved pool
  | .dynamic pool =>
      match ptr.owner with
      | .reserved _ => .dynamic pool
      | .dynamic => .dynamic (pool.giveBack ptr.slice)
  | .combined pool => .combined (pool.giveBack ptr)

/-- The reserved pool in it. -/
def reservedPool : SlicePool α → Option (ReservedBufferSlicePool α)
  | .reserved pool => some pool
  | .dynamic _ => none
  | .combined pool => some pool.reserved

/-- The slice that the reserved pool in it lends to a borrower. -/
def firstFree (p : SlicePool α) (overtaken : Overtaken) : Option (Slice α) :=
  p.reservedPool.bind (·.firstFree overtaken)

/-- The slices in memory are as they are to be lent. -/
def Clean (p : SlicePool α) : Prop := ∀ pool, p.reservedPool = some pool → pool.Clean

theorem clean_new (value : α) (o : Options) : (new value o).Clean := by
  intro pool found
  cases o with
  | reserved options | combined options =>
      cases found
      exact .initially _ _
  | dynamic options => cases found

/-- What `Borrow` does to the pool, and what it lends: a fresh slice, which is the
    first free one of the reserved pool or one of at most the preferred size. -/
structure Answers (p : SlicePool α) (overtaken : Overtaken) (preferred : Nat)
    (answer : Except BorrowError (OwnedSlicePtr Owner α)) (p' : SlicePool α) : Prop where
  clean : p'.Clean
  fresh : ∀ ptr, answer = .ok ptr → ptr.slice.Fresh
  source : ∀ ptr, answer = .ok ptr →
    ptr.slice.capacity ≤ preferred ∨ p.firstFree overtaken = some ptr.slice

theorem capacity_borrow_dynamic {p p' : DynamicBufferSlicePool} {overtaken : Overtaken}
    {preferred : Nat} {ptr : OwnedSlicePtr Owner α}
    (lends : p.borrow overtaken preferred = (.ok ptr, p')) : ptr.slice.capacity ≤ preferred := by
  obtain ⟨_, rfl, _⟩ := DynamicBufferSlicePool.borrow_ok lends
  exact (Nat.min_le_left _ _).trans (Nat.min_le_left _ _)

theorem borrow_answers {p : SlicePool α} (clean : p.Clean) (overtaken : Overtaken)
    (preferred : Nat) {answer : Except BorrowError (OwnedSlicePtr Owner α)} {p' : SlicePool α}
    (answers : borrow overtaken preferred p = (answer, p')) :
    p.Answers overtaken preferred answer p' := by
  cases p with
  | reserved pool =>
      cases borrowed : pool.borrow overtaken with
      | mk lent pool' =>
          rw [borrow, borrowed] at answers
          cases answers
          obtain ⟨clean', fresh⟩ := (clean pool rfl).lend borrowed
          refine ⟨?_, fresh, ?_⟩
          · rintro _ ⟨⟩
            exact clean'
          · rintro ptr rfl
            exact .inr (pool.firstFree_of_borrow borrowed)
  | dynamic pool =>
      cases borrowed : (pool.borrow overtaken preferred :
          Except BorrowError (OwnedSlicePtr Owner α) × DynamicBufferSlicePool) with
      | mk lent pool' =>
          rw [borrow, borrowed] at answers
          cases answers
          refine ⟨fun _ found => (nomatch found), ?_, ?_⟩
          · rintro ptr rfl
            exact DynamicBufferSlicePool.borrow_fresh borrowed
          · rintro ptr rfl
            exact .inl (capacity_borrow_dynamic borrowed)
  | combined pool =>
      cases borrowed : CombinedBufferSlicePool.borrow overtaken preferred pool with
      | mk lent pool' =>
          rw [borrow, borrowed] at answers
          cases answers
          obtain ⟨clean', fresh⟩ :=
            CombinedBufferSlicePool.borrow_fresh (clean pool.reserved rfl) borrowed
          refine ⟨?_, fresh, ?_⟩
          · rintro _ ⟨⟩
            exact clean'
          · rintro ptr rfl
            obtain ⟨lends, _⟩ | ⟨_, _, lends⟩ := CombinedBufferSlicePool.borrow_ok borrowed
            · exact .inr (pool.reserved.firstFree_of_borrow lends)
            · exact .inl (capacity_borrow_dynamic lends)

theorem borrow_of_firstFree {p : SlicePool α} {overtaken : Overtaken} {slice : Slice α}
    (free : p.firstFree overtaken = some slice) (preferred : Nat) :
    ∃ ptr p', borrow overtaken preferred p = (.ok ptr, p') ∧ ptr.slice = slice := by
  cases p with
  | reserved pool =>
      obtain ⟨ptr, pool', lends, same⟩ := pool.borrow_of_firstFree free
      exact ⟨ptr, .reserved pool', by simp [borrow, lends], same⟩
  | dynamic pool => cases free
  | combined pool =>
      obtain ⟨ptr, pool', lends, same⟩ := pool.reserved.borrow_of_firstFree free
      exact ⟨ptr, .combined { pool with reserved := pool' },
        by simp [borrow, CombinedBufferSlicePool.borrow, lends], same⟩

theorem Clean.giveBack {p : SlicePool α} {ptr : OwnedSlicePtr Owner α} (clean : p.Clean)
    (formed : ptr.slice.WellFormed) : (p.giveBack ptr).Clean := by
  obtain ⟨owner, slice⟩ := ptr
  cases p with
  | reserved pool =>
      cases owner with
      | reserved index =>
          rintro _ ⟨⟩
          exact (clean pool rfl).returned index formed
      | dynamic => exact clean
  | dynamic pool =>
      cases owner with
      | reserved index => exact clean
      | dynamic => exact fun _ found => nomatch found
  | combined pool =>
      rintro _ ⟨⟩
      exact CombinedBufferSlicePool.giveBack_clean (clean pool.reserved rfl) formed

end SlicePool

/-! ## Runs -/

/-- A buffer and its pool, and the slices that others have borrowed from it. -/
structure BufferSystem (α : Type) where
  buffer : CircularSliceBuffer Owner α
  pool : SlicePool α
  others : List (OwnedSlicePtr Owner α)

/-- `overtaken` says what happens to a borrower while it looks for a slice; the
    last three are steps of the others. -/
inductive BufferAction (α : Type) where
  | push (overtaken : Overtaken) (item : α)
  | clear
  | borrow (overtaken : Overtaken) (preferredSliceCapacity : Nat)
  | write (position : Nat) (item : α)
  | giveBack (position : Nat)

namespace BufferSystem

def start (capacity : Nat) (o : SlicePool.Options) (value : α) : BufferSystem α :=
  ⟨.new capacity, .new value o, []⟩

def step (s : BufferSystem α) : BufferAction α → Option (BufferSystem α)
  | .push overtaken item =>
      let pushed := s.buffer.push (SlicePool.borrow overtaken) s.pool item
      some { s with buffer := pushed.1, pool := pushed.2 }
  | .clear =>
      let cleared := s.buffer.clear
      some { s with buffer := cleared.1, pool := cleared.2.foldl SlicePool.giveBack s.pool }
  | .borrow overtaken preferredSliceCapacity =>
      match SlicePool.borrow overtaken preferredSliceCapacity s.pool with
      | (.ok ptr, pool) => some { s with pool, others := s.others ++ [ptr] }
      | (.error _, pool) => some { s with pool }
  | .write position item =>
      s.others[position]?.map fun ptr =>
        { s with others := s.others.set position { ptr with slice := ptr.slice.push item } }
  | .giveBack position =>
      s.others[position]?.map fun ptr =>
        { s with pool := s.pool.giveBack ptr, others := s.others.eraseIdx position }

/-- A push that has to borrow finds no slice of the reserved pool that is larger
    than the room in the buffer. -/
def Fits (s : BufferSystem α) : BufferAction α → Prop
  | .push overtaken _ => s.buffer.borrows = true → ∀ slice ∈ s.pool.firstFree overtaken,
      slice.capacity ≤ s.buffer.capacity - s.buffer.size
  | .clear | .borrow _ _ | .write _ _ | .giveBack _ => True

instance (s : BufferSystem α) (action : BufferAction α) : Decidable (s.Fits action) :=
  match action with
  | .push overtaken _ =>
      inferInstanceAs (Decidable (_ → ∀ slice ∈ s.pool.firstFree overtaken, _ ≤ _))
  | .clear | .borrow _ _ | .write _ _ | .giveBack _ => inferInstanceAs (Decidable True)

/-- The buffer has the items of some window in its slices, and all slices are as
    their holders leave them. -/
structure Sound (s : BufferSystem α) : Prop where
  buffer : ∃ window, s.buffer.Holds window
  pool : s.pool.Clean
  others : ∀ ptr ∈ s.others, ptr.slice.WellFormed

theorem sound_start (capacity : Nat) (o : SlicePool.Options) (value : α) :
    (start capacity o value).Sound :=
  ⟨⟨[], CircularSliceBuffer.holds_new capacity⟩, SlicePool.clean_new value o, by simp [start]⟩

theorem foldl_giveBack_clean {slices : List (OwnedSlicePtr Owner α)} {p : SlicePool α}
    (clean : p.Clean) (formed : ∀ ptr ∈ slices, ptr.slice.WellFormed) :
    (slices.foldl SlicePool.giveBack p).Clean := by
  induction slices generalizing p with
  | nil => exact clean
  | cons ptr slices ih =>
      obtain ⟨first, rest⟩ := List.forall_mem_cons.mp formed
      exact ih (clean.giveBack first) rest

/-- The pool's part in a push: nothing, or a borrow. -/
theorem push_clean {b : CircularSliceBuffer Owner α} {p : SlicePool α} (clean : p.Clean)
    (overtaken : Overtaken) (item : α) :
    (b.push (SlicePool.borrow overtaken) p item).2.Clean := by
  unfold CircularSliceBuffer.push
  split
  · exact clean
  · have prepared := b.prepareToPush_prepared (SlicePool.borrow overtaken) p
    generalize b.prepareToPush (SlicePool.borrow overtaken) p = result at prepared ⊢
    cases prepared with
    | inside | wrapped => exact clean
    | refused _ _ _ _ answers | lent _ _ _ _ answers =>
        exact (SlicePool.borrow_answers clean _ _ answers).clean

theorem Sound.step {s s' : BufferSystem α} {action : BufferAction α} (sound : s.Sound)
    (taken : s.step action = some s') : s'.Sound := by
  obtain ⟨window, holds⟩ := sound.buffer
  cases action with
  | push overtaken item =>
      cases taken
      refine ⟨holds.push ?_ item, push_clean sound.pool overtaken item, sound.others⟩
      intro ptr pool' answer
      exact (SlicePool.borrow_answers sound.pool _ _ answer).fresh ptr rfl
  | clear =>
      cases taken
      exact ⟨⟨[], CircularSliceBuffer.holds_new _⟩, foldl_giveBack_clean sound.pool holds.formed,
        sound.others⟩
  | borrow overtaken preferredSliceCapacity =>
      rw [BufferSystem.step] at taken
      split at taken
      · rename_i ptr pool answer
        cases taken
        have answers := SlicePool.borrow_answers sound.pool _ _ answer
        refine ⟨sound.buffer, answers.clean, ?_⟩
        intro other listed
        obtain before | own := List.mem_append.mp listed
        · exact sound.others other before
        · obtain rfl := List.mem_singleton.mp own
          exact (answers.fresh other rfl).formed
      · rename_i error pool answer
        cases taken
        exact ⟨sound.buffer, (SlicePool.borrow_answers sound.pool _ _ answer).clean, sound.others⟩
  | write position item =>
      obtain ⟨ptr, found, rfl⟩ := Option.map_eq_some_iff.mp taken
      refine ⟨sound.buffer, sound.pool, ?_⟩
      intro other listed
      obtain before | rfl := List.mem_or_eq_of_mem_set listed
      · exact sound.others other before
      · exact ((sound.others ptr (List.mem_of_getElem? found)).push item).1
  | giveBack position =>
      obtain ⟨ptr, found, rfl⟩ := Option.map_eq_some_iff.mp taken
      refine ⟨sound.buffer, sound.pool.giveBack (sound.others ptr (List.mem_of_getElem? found)), ?_⟩
      intro other listed
      exact sound.others other (List.mem_of_mem_eraseIdx listed)

/-- The slices of the buffer have no more room together than the buffer. -/
def Bounded (s : BufferSystem α) : Prop :=
  s.Sound ∧ s.buffer.acquiredSlicesCapacity ≤ s.buffer.capacity

theorem Bounded.step {s s' : BufferSystem α} {action : BufferAction α} (bounded : s.Bounded)
    (fits : s.Fits action) (taken : s.step action = some s') : s'.Bounded := by
  obtain ⟨sound, acquired⟩ := bounded
  refine ⟨sound.step taken, ?_⟩
  cases action with
  | push overtaken item =>
      cases taken
      obtain ⟨window, holds⟩ := sound.buffer
      apply holds.push_acquired acquired
      intro borrows ptr pool' answer
      obtain small | free := (SlicePool.borrow_answers sound.pool _ _ answer).source ptr rfl
      · exact small
      · exact fits borrows ptr.slice free
  | clear =>
      cases taken
      exact Nat.zero_le _
  | borrow overtaken preferredSliceCapacity =>
      rw [BufferSystem.step] at taken
      split at taken <;> cases taken <;> exact acquired
  | write _ _ | giveBack _ =>
      obtain ⟨_, _, rfl⟩ := Option.map_eq_some_iff.mp taken
      exact acquired

/-! ## Beyond the capacity -/

/-- Pushes go on to fill the slices that the buffer has. -/
theorem Sound.pushes_fill (count : Nat) {s : BufferSystem α} (sound : s.Sound)
    (positive : s.buffer.capacity ≠ 0) (some : s.buffer.slices ≠ []) (item : α) :
    ∃ s', exec BufferSystem.step s (List.replicate count (.push ⟨0, 0⟩ item)) = .some s' ∧
      s'.buffer.capacity = s.buffer.capacity ∧
      min (s.buffer.size + count) s.buffer.acquiredSlicesCapacity ≤ s'.buffer.size := by
  induction count generalizing s with
  | zero => exact ⟨s, rfl, rfl, Nat.min_le_left _ _⟩
  | succ count ih =>
      obtain ⟨window, holds⟩ := sound.buffer
      have grows := holds.push_grows (fun ptr pool' answer =>
        (SlicePool.borrow_answers sound.pool ⟨0, 0⟩ _ answer).fresh ptr rfl) positive some item
      have sound' := @Sound.step _ s _ (.push ⟨0, 0⟩ item) sound rfl
      rw [← grows.capacity] at positive
      obtain ⟨s', reached, capacity, filled⟩ := ih sound' positive grows.slices
      refine ⟨s', reached, capacity.trans grows.capacity, ?_⟩
      have acquired := grows.acquired
      have size := grows.size
      simp only at filled
      omega

/-- A push that does not fit leaves the buffer with more room than its capacity. -/
theorem Sound.push_unfit {s : BufferSystem α} {overtaken : Overtaken} {item : α}
    (sound : s.Sound) (unfit : ¬s.Fits (.push overtaken item)) :
    ∃ s', s.step (.push overtaken item) = some s' ∧ s'.Sound ∧ s'.buffer.slices ≠ [] ∧
      s'.buffer.capacity ≠ 0 ∧ s'.buffer.capacity < s'.buffer.acquiredSlicesCapacity := by
  obtain ⟨window, holds⟩ := sound.buffer
  simp only [Fits, Classical.not_imp, not_forall, Nat.not_le] at unfit
  obtain ⟨asks, slice, free, large⟩ := unfit
  obtain ⟨ptr, pool', lends, rfl⟩ :=
    SlicePool.borrow_of_firstFree free (s.buffer.capacity - s.buffer.size)
  refine ⟨_, rfl, @Sound.step _ s _ (.push overtaken item) sound rfl, ?_⟩
  have lent := CircularSliceBuffer.push_lent asks lends item
  rw [CircularSliceBuffer.borrows, Bool.and_eq_true, beq_iff_eq, decide_eq_true_eq] at asks
  have written := holds.size_of_ended asks.1
  have grows : s.buffer.Grows ((s.buffer.acquire ptr).insert item) :=
    CircularSliceBuffer.grows_insert item rfl (Nat.le_add_right _ _) rfl
      (by simp [CircularSliceBuffer.current, CircularSliceBuffer.acquire])
  have capacity := grows.capacity
  refine ⟨?_, ?_, ?_⟩
  · rw [lent]
    exact grows.slices
  · rw [lent, capacity]
    exact Nat.ne_zero_of_lt asks.2
  · rw [lent, CircularSliceBuffer.acquiredSlicesCapacity_insert, capacity]
    simp only [CircularSliceBuffer.acquire]
    omega

/-- After a push that does not fit, further pushes lead beyond the capacity. -/
theorem Sound.exceeds {s : BufferSystem α} {action : BufferAction α} (sound : s.Sound)
    (unfit : ¬s.Fits action) :
    ∃ more s', exec BufferSystem.step s (action :: more) = some s' ∧
      ¬s'.buffer.WithinCapacity := by
  cases action with
  | push overtaken item =>
      obtain ⟨t, taken, sound', slices, positive, large⟩ := sound.push_unfit unfit
      obtain ⟨s', reached, capacity, filled⟩ :=
        sound'.pushes_fill (t.buffer.capacity + 1) positive slices item
      refine ⟨_, s', by rw [exec_cons, taken, Option.bind_some, reached], ?_⟩
      intro within
      have size := within.1
      omega
  | clear | borrow _ _ | write _ _ | giveBack _ => exact absurd trivial unfit

/-- The buffer is within its capacity in every state of a run whose pushes find no
    slice of the reserved pool that is too large for the room they ask for; and a
    run with another push can be continued to a state in which it is not. -/
theorem buffer_withinCapacity (capacity : Nat) (o : SlicePool.Options) (value : α) :
    (∀ actions s, Meets step Fits (start capacity o value) actions →
      exec step (start capacity o value) actions = some s → s.buffer.WithinCapacity) ∧
    ∀ actions s action, exec step (start capacity o value) actions = some s → ¬s.Fits action →
      ∃ more s', exec step (start capacity o value) (actions ++ action :: more) = some s' ∧
        ¬s'.buffer.WithinCapacity := by
  have initially := sound_start capacity o value
  constructor
  · intro actions s fits reached
    have bounded : s.Bounded :=
      invariant Fits Bounded ⟨initially, Nat.zero_le _⟩
        (fun _ _ _ bounded fits taken => bounded.step fits taken) fits reached
    obtain ⟨window, holds⟩ := bounded.1.buffer
    exact holds.withinCapacity bounded.2
  · intro actions s action reached unfit
    have sound : s.Sound :=
      invariant_always Sound initially (fun _ _ _ sound taken => sound.step taken) reached
    obtain ⟨more, s', continued, exceeds⟩ := sound.exceeds unfit
    refine ⟨more, s', ?_, exceeds⟩
    rw [exec_append, reached, Option.bind_some, continued]

theorem two_representable : 2 < Lib.MachineInteger.sizeModulus := by decide

/-- A combined pool with a slice of two in the reserved part. -/
def smallCombined : SlicePool.Options :=
  .combined ⟨⟨2, 2, two_representable⟩, ⟨2, 10, 1, by decide⟩⟩

/-- More pushes than a buffer of three has room for. -/
def fivePushes : List (BufferAction Nat) :=
  [0, 1, 2, 3, 4].map fun item => .push ⟨0, 0⟩ item

theorem fivePushes_withinCapacity :
    ∃ s, exec step (start 3 smallCombined 0) fivePushes = some s ∧ s.buffer.WithinCapacity := by
  have runs : (exec step (start 3 smallCombined 0) fivePushes).isSome = true := by decide
  obtain ⟨s, reached⟩ := Option.isSome_iff_exists.mp runs
  exact ⟨s, reached, (buffer_withinCapacity 3 smallCombined 0).1 _ s (by decide) reached⟩

/-- A buffer of one in a reserved pool with a slice of two. -/
theorem largeSlice_exceeds :
    ∃ s, exec step (start 1 (.reserved ⟨2, 2, by decide⟩) 0)
      [.push ⟨0, 0⟩ 1, .push ⟨0, 0⟩ 2] = some s ∧ ¬s.buffer.WithinCapacity := by
  have seen : ((exec step (start 1 (.reserved ⟨2, 2, by decide⟩) 0)
      [.push ⟨0, 0⟩ 1, .push ⟨0, 0⟩ 2]).map fun s => decide s.buffer.WithinCapacity) =
        some false := by decide
  obtain ⟨s, reached, exceeds⟩ := Option.map_eq_some_iff.mp seen
  exact ⟨s, reached, of_decide_eq_false exceeds⟩

end BufferSystem

end Spoor.Buffer
