import Mathlib.Data.List.Induction
import Spoor.Buffer.CircularSliceBuffer

/-! # What a circular slice buffer holds

The slices form a ring, read from the slice under the insertion iterator on.
Every other slice has been written through to its end, so the ring is the
window over the accepted items that the buffer is meant to be.
-/

namespace Spoor.Buffer

open Lib.RingWindow

variable {α ω π : Type}

def views (ptrs : List (OwnedSlicePtr ω α)) : List (Segment α) :=
  ptrs.map fun ptr => ptr.slice.view

theorem views_nil : views ([] : List (OwnedSlicePtr ω α)) = [] := rfl

/-- The sum of the capacities of some slices. -/
def totalCapacity (ptrs : List (OwnedSlicePtr ω α)) : Nat :=
  (ptrs.map fun ptr => ptr.slice.capacity).sum

/-- The sum of the sizes of some slices. -/
def totalSize (ptrs : List (OwnedSlicePtr ω α)) : Nat :=
  (ptrs.map fun ptr => ptr.slice.size).sum

namespace CircularSliceBuffer

/-- The buffer turns round its slices: `ptr` is the slice under the insertion
    iterator, and all others have been written through. -/
structure Turning (b : CircularSliceBuffer ω α) (before : List (OwnedSlicePtr ω α))
    (ptr : OwnedSlicePtr ω α) (after : List (OwnedSlicePtr ω α)) : Prop where
  slices : b.slices = before ++ ptr :: after
  position : b.insertionIterator = before.length
  formed : ∀ p ∈ b.slices, p.slice.WellFormed
  lapped : ∀ p ∈ before ++ after, p.slice.view.Lapped
  size : b.size = totalSize b.slices
  acquired : b.acquiredSlicesCapacity = totalCapacity b.slices

/-- The buffer holds this window of items. -/
inductive Holds (b : CircularSliceBuffer ω α) : List α → Prop where
  | unused : b.slices = [] → b.insertionIterator = 0 → b.size = 0 →
      b.acquiredSlicesCapacity = 0 → Holds b []
  | turning (before : List (OwnedSlicePtr ω α)) (ptr : OwnedSlicePtr ω α)
      (after : List (OwnedSlicePtr ω α)) : b.Turning before ptr after →
      ptr.slice.view.newer ≠ [] → Holds b (ring (views before) ptr.slice.view (views after))

/-- The buffer holds this window and its insertion iterator points to the slice
    the next item goes to. -/
inductive Ready (b : CircularSliceBuffer ω α) : List α → Prop where
  | inside (before : List (OwnedSlicePtr ω α)) (ptr : OwnedSlicePtr ω α)
      (after : List (OwnedSlicePtr ω α)) : b.Turning before ptr after →
      ¬ ptr.slice.view.Lapped → Ready b (ring (views before) ptr.slice.view (views after))
  | entering (before : List (OwnedSlicePtr ω α)) (ptr : OwnedSlicePtr ω α)
      (after : List (OwnedSlicePtr ω α)) : b.Turning before ptr after →
      ptr.slice.view.Lapped → Ready b (ring (views before) ptr.slice.view.reopen (views after))

variable {b : CircularSliceBuffer ω α} {before after : List (OwnedSlicePtr ω α)}
  {ptr : OwnedSlicePtr ω α} {window : List α}

theorem Turning.current (turning : b.Turning before ptr after) : b.current = some ptr := by
  rw [CircularSliceBuffer.current, turning.slices, turning.position]
  simp

theorem Turning.ptr_formed (turning : b.Turning before ptr after) : ptr.slice.WellFormed :=
  turning.formed ptr (by simp [turning.slices])

theorem totalSize_of_lapped {ptrs : List (OwnedSlicePtr ω α)}
    (formed : ∀ p ∈ ptrs, p.slice.WellFormed) (lapped : ∀ p ∈ ptrs, p.slice.view.Lapped) :
    totalSize ptrs = totalCapacity ptrs := by
  induction ptrs with
  | nil => rfl
  | cons ptr rest ih =>
      have size : ptr.slice.size = ptr.slice.capacity := by
        rw [← (formed ptr (by simp)).size_view, (lapped ptr (by simp)).size, Slice.capacity_view]
      have tail := ih (fun p member => formed p (by simp [member]))
        (fun p member => lapped p (by simp [member]))
      simp only [totalSize, totalCapacity, List.map_cons, List.sum_cons] at tail ⊢
      omega

/-- All slices but the current one are filled up. -/
theorem Turning.room (turning : b.Turning before ptr after) :
    b.acquiredSlicesCapacity + ptr.slice.size = b.size + ptr.slice.capacity := by
  have formed := turning.formed
  rw [turning.slices] at formed
  have front : totalSize before = totalCapacity before :=
    totalSize_of_lapped (fun p member => formed p (by simp [member]))
      (fun p member => turning.lapped p (by simp [member]))
  have back : totalSize after = totalCapacity after :=
    totalSize_of_lapped (fun p member => formed p (by simp [member]))
      (fun p member => turning.lapped p (by simp [member]))
  have size := turning.size
  have acquired := turning.acquired
  simp only [turning.slices, totalSize, totalCapacity, List.map_append, List.map_cons,
    List.sum_append, List.sum_cons] at front back size acquired
  omega

theorem Turning.size_le (turning : b.Turning before ptr after) :
    b.size ≤ b.acquiredSlicesCapacity := by
  have room := turning.room
  have bounded := turning.ptr_formed.view_formed.bounded
  rw [turning.ptr_formed.size_view, Slice.capacity_view] at bounded
  omega

theorem Turning.all_lapped (turning : b.Turning before ptr []) (lapped : ptr.slice.view.Lapped) :
    ∀ p ∈ b.slices, p.slice.view.Lapped := by
  intro p member
  rw [turning.slices, List.mem_append, List.mem_singleton] at member
  rcases member with inFront | rfl
  · exact turning.lapped p (by simp [inFront])
  · exact lapped

theorem Turning.row (turning : b.Turning before ptr []) (lapped : ptr.slice.view.Lapped) :
    ring (views before) ptr.slice.view [] = (views b.slices).flatMap Segment.contents := by
  rw [ring_last lapped, turning.slices, views, views, List.map_append]
  rfl

theorem Turning.toFirst {first : OwnedSlicePtr ω α} {rest : List (OwnedSlicePtr ω α)}
    (turning : b.Turning before ptr []) (lapped : ptr.slice.view.Lapped)
    (slices : b.slices = first :: rest) : b.begin.Turning [] first rest := by
  refine ⟨slices, rfl, turning.formed, ?_, turning.size, turning.acquired⟩
  intro p member
  exact turning.all_lapped lapped p (by simp_all)

/-- Going back to the first slice. -/
theorem Turning.begin (turning : b.Turning before ptr []) (lapped : ptr.slice.view.Lapped) :
    b.begin.Ready (ring (views before) ptr.slice.view []) := by
  have allLapped := turning.all_lapped lapped
  rw [turning.row lapped]
  cases slices : b.slices with
  | nil => simp [turning.slices] at slices
  | cons first rest =>
      have firstLapped := allLapped first (by simp [slices])
      rw [views, List.map_cons, ← ring_first firstLapped]
      exact .entering [] first rest (turning.toFirst lapped slices) firstLapped

theorem Turning.toNext {next : OwnedSlicePtr ω α} (turning : b.Turning before ptr (next :: after))
    (lapped : ptr.slice.view.Lapped) :
    ({ b with insertionIterator := b.insertionIterator + 1 }).Turning
      (before ++ [ptr]) next after := by
  refine ⟨?_, ?_, turning.formed, ?_, turning.size, turning.acquired⟩
  · simp [turning.slices]
  · simp [turning.position]
  · intro p member
    simp only [List.append_assoc, List.singleton_append, List.mem_append, List.mem_cons] at member
    rcases member with inFront | rfl | behind
    · exact turning.lapped p (by simp [inFront])
    · exact lapped
    · exact turning.lapped p (by simp [behind])

/-- Going on to the next slice. -/
theorem Turning.next {next : OwnedSlicePtr ω α} (turning : b.Turning before ptr (next :: after))
    (lapped : ptr.slice.view.Lapped) :
    ({ b with insertionIterator := b.insertionIterator + 1 }).Ready
      (ring (views before) ptr.slice.view (views (next :: after))) := by
  have nextLapped := turning.lapped next (by simp)
  have rotated : ring (views before) ptr.slice.view (next.slice.view :: views after) =
      ring (views before ++ [ptr.slice.view]) next.slice.view.reopen (views after) :=
    ring_next lapped nextLapped
  have grown : views before ++ [ptr.slice.view] = views (before ++ [ptr]) := by simp [views]
  rw [show views (next :: after) = next.slice.view :: views after from rfl, rotated, grown]
  exact .entering (before ++ [ptr]) next after (turning.toNext lapped) nextLapped

/-- Putting a borrowed slice behind slices that have all been written through. -/
theorem acquire_turning {fresh : OwnedSlicePtr ω α} (lent : fresh.slice.Fresh)
    (formed : ∀ p ∈ b.slices, p.slice.WellFormed)
    (lapped : ∀ p ∈ b.slices, p.slice.view.Lapped) (size : b.size = totalSize b.slices)
    (acquired : b.acquiredSlicesCapacity = totalCapacity b.slices) :
    (b.acquire fresh).Turning b.slices fresh [] := by
  refine ⟨rfl, rfl, ?_, ?_, ?_, ?_⟩
  · intro p member
    simp only [acquire, List.mem_append, List.mem_singleton] at member
    rcases member with old | rfl
    · exact formed p old
    · exact lent.formed
  · simpa using lapped
  · simp [acquire, size, totalSize, lent.empty]
  · simp [acquire, acquired, totalCapacity]

theorem acquire_ready {fresh : OwnedSlicePtr ω α} (lent : fresh.slice.Fresh)
    (formed : ∀ p ∈ b.slices, p.slice.WellFormed)
    (lapped : ∀ p ∈ b.slices, p.slice.view.Lapped) (size : b.size = totalSize b.slices)
    (acquired : b.acquiredSlicesCapacity = totalCapacity b.slices) :
    (b.acquire fresh).Ready ((views b.slices).flatMap Segment.contents) := by
  rw [← ring_extend fresh.slice.capacity, ← lent.view_eq]
  exact .inside b.slices fresh [] (acquire_turning lent formed lapped size acquired) lent.unlapped

/-- The pool lends slices that are empty and have room. -/
def Lends (borrow : Borrow ω π α) : Prop :=
  ∀ preferred pool ptr pool', borrow preferred pool = (.ok ptr, pool') → ptr.slice.Fresh

theorem Turning.advance_eq (turning : b.Turning before ptr after) :
    (ptr.slice.view.Lapped ∧
      b.advance = { b with insertionIterator := b.insertionIterator + 1 }) ∨
    ¬ ptr.slice.view.Lapped ∧ b.advance = b := by
  by_cases lapped : ptr.slice.view.Lapped
  · have wraps := turning.ptr_formed.willWrap_iff.mpr lapped
    exact .inl ⟨lapped, by simp [advance, turning.current, wraps]⟩
  · have unwrapped := mt turning.ptr_formed.willWrap_iff.mp lapped
    exact .inr ⟨lapped, by simp [advance, turning.current, unwrapped]⟩

/-- The insertion iterator only comes to the end behind a last slice that has
    been written through. -/
theorem Turning.of_ended (turning : b.Turning before ptr after)
    (ended : b.advance.insertionIterator = b.slices.length) :
    after = [] ∧ ptr.slice.view.Lapped := by
  rcases turning.advance_eq with ⟨lapped, moves⟩ | ⟨-, stays⟩
  · simp only [moves, turning.position, turning.slices, List.length_append,
      List.length_cons] at ended
    exact ⟨List.eq_nil_of_length_eq_zero (by omega), lapped⟩
  · simp only [stays, turning.position, turning.slices, List.length_append,
      List.length_cons] at ended
    omega

/-- `PrepareToPush` finds the slice for the next item, unless there is none and
    the pool refuses one. -/
theorem prepareToPush_ready {borrow : Borrow ω π α} (pool : π) (lends : Lends borrow)
    (positive : b.capacity ≠ 0) (holds : b.Holds window) :
    (b.prepareToPush borrow pool).1.Ready window ∨
      b.slices = [] ∧ (b.prepareToPush borrow pool).1 = b := by
  have prepared := b.prepareToPush_prepared borrow pool
  generalize b.prepareToPush borrow pool = result at prepared ⊢
  cases holds with
  | unused slices position size acquired =>
      have stays : b.advance = b := by simp [advance, current, slices]
      cases prepared with
      | inside inner => simp [stays, position, slices] at inner
      | wrapped _ full => omega
      | refused => exact .inr ⟨slices, by rw [CircularSliceBuffer.begin, ← position]⟩
      | lent ptr pool' _ _ answer =>
          have ready : (b.acquire ptr).Ready ((views b.slices).flatMap Segment.contents) :=
            acquire_ready (lends _ _ _ _ answer) (by simp [slices]) (by simp [slices])
              (by rw [size, slices]; rfl) (by rw [acquired, slices]; rfl)
          rw [slices] at ready
          exact .inl ready
  | turning before ptr after turning written =>
      refine .inl ?_
      cases prepared with
      | inside inner =>
          rcases turning.advance_eq with ⟨lapped, moves⟩ | ⟨unlapped, stays⟩
          · cases after with
            | nil => simp [moves, turning.position, turning.slices] at inner
            | cons next rest =>
                rw [moves]
                exact turning.next lapped
          · rw [stays]
            exact .inside before ptr after turning unlapped
      | wrapped ended =>
          obtain ⟨rfl, lapped⟩ := turning.of_ended ended
          exact turning.begin lapped
      | refused error pool' ended =>
          obtain ⟨rfl, lapped⟩ := turning.of_ended ended
          exact turning.begin lapped
      | lent fresh pool' ended _ answer =>
          obtain ⟨rfl, lapped⟩ := turning.of_ended ended
          rw [views_nil, turning.row lapped]
          exact acquire_ready (lends _ _ _ _ answer) turning.formed (turning.all_lapped lapped)
            turning.size turning.acquired

/-- Pushing the item to the current slice of a turning buffer. -/
theorem Turning.insert (turning : b.Turning before ptr after) (item : α) :
    (b.insert item).Turning before { ptr with slice := ptr.slice.push item } after := by
  have formed := turning.ptr_formed
  have pushed := formed.push item
  have room := turning.room
  have inserted : (b.insert item).slices =
      before ++ { ptr with slice := ptr.slice.push item } :: after := by
    simp [CircularSliceBuffer.insert, turning.current, turning.slices, turning.position]
  have grows : (ptr.slice.push item).size = min (ptr.slice.size + 1) ptr.slice.capacity := by
    rw [← pushed.1.size_view, pushed.2, formed.view_formed.push_size, formed.size_view,
      Slice.capacity_view]
  have keeps : (ptr.slice.push item).capacity = ptr.slice.capacity := by
    rw [← Slice.capacity_view, pushed.2, push_capacity, Slice.capacity_view]
  have oldSize := turning.size
  have oldAcquired := turning.acquired
  refine ⟨inserted, ?_, ?_, turning.lapped, ?_, ?_⟩
  · simpa [CircularSliceBuffer.insert, turning.current] using turning.position
  · intro p member
    rw [inserted, List.mem_append, List.mem_cons] at member
    rcases member with inFront | rfl | behind
    · exact turning.formed p (by simp [turning.slices, inFront])
    · exact pushed.1
    · exact turning.formed p (by simp [turning.slices, behind])
  · have size : (b.insert item).size = min (b.size + 1) b.acquiredSlicesCapacity := by
      simp [CircularSliceBuffer.insert, turning.current]
    rw [size, inserted]
    simp only [turning.slices, totalSize, List.map_append, List.map_cons, List.sum_append,
      List.sum_cons, grows] at oldSize ⊢
    omega
  · have acquired : (b.insert item).acquiredSlicesCapacity = b.acquiredSlicesCapacity := by
      simp [CircularSliceBuffer.insert, turning.current]
    rw [acquired, inserted, oldAcquired, turning.slices]
    simp [totalCapacity, keeps]

theorem Ready.insert (ready : b.Ready window) (item : α) :
    ∃ window', Slide item window window' ∧ (b.insert item).Holds window' := by
  cases ready with
  | inside before ptr after turning unlapped =>
      have pushed := (turning.ptr_formed.push item).2
      refine ⟨_, ?_, .turning before _ after (turning.insert item) ?_⟩
      · rw [pushed]
        exact slide_push turning.ptr_formed.view_formed unlapped
      · rw [pushed]
        exact push_newer_ne_nil _ item
  | entering before ptr after turning lapped =>
      have pushed := (turning.ptr_formed.push item).2
      have positive := turning.ptr_formed.view_formed.positive
      have reopened := lapped.reopen_formed positive
      refine ⟨_, ?_, .turning before _ after (turning.insert item) ?_⟩
      · rw [pushed, lapped.push_eq positive]
        exact slide_push reopened.1 reopened.2
      · rw [pushed]
        exact push_newer_ne_nil _ item

theorem Ready.current_isSome (ready : b.Ready window) : b.current.isSome := by
  cases ready with
  | inside before ptr after turning => simp [turning.current]
  | entering before ptr after turning => simp [turning.current]

/-- Whether a push is accepted, for a buffer with a capacity. -/
theorem accepts_iff {borrow : Borrow ω π α} {pool : π} (positive : b.capacity ≠ 0) :
    b.accepts borrow pool ↔ (b.prepareToPush borrow pool).1.current.isSome := by
  simp [accepts, positive]

/-- A buffer that has a slice accepts every item. -/
theorem Holds.accepts {borrow : Borrow ω π α} (pool : π) (holds : b.Holds window)
    (lends : Lends borrow) (positive : b.capacity ≠ 0) (some : b.slices ≠ []) :
    b.accepts borrow pool := by
  rw [accepts_iff positive]
  rcases prepareToPush_ready pool lends positive holds with ready | ⟨none, -⟩
  · exact ready.current_isSome
  · exact absurd none some

/-- A push slides the window, or is refused by a buffer without slices. -/
theorem push_holds {borrow : Borrow ω π α} (pool : π) (lends : Lends borrow)
    (holds : b.Holds window) (item : α) :
    (∃ window', b.accepts borrow pool ∧ Slide item window window' ∧
        (b.push borrow pool item).1.Holds window') ∨
      b.accepts borrow pool = false ∧ (b.push borrow pool item).1 = b := by
  by_cases zero : b.capacity = 0
  · exact .inr ⟨by simp [CircularSliceBuffer.accepts, zero], by simp [push, zero]⟩
  · have pushed : (b.push borrow pool item).1 = (b.prepareToPush borrow pool).1.insert item := by
      simp [push, zero]
    rw [pushed]
    rcases prepareToPush_ready pool lends zero holds with ready | ⟨slices, stays⟩
    · obtain ⟨window', slide, holds'⟩ := ready.insert item
      exact .inl ⟨window', (accepts_iff zero).mpr ready.current_isSome, slide, holds'⟩
    · have none : b.current = none := by simp [current, slices]
      refine .inr ⟨by simp [CircularSliceBuffer.accepts, stays, none], ?_⟩
      rw [stays, CircularSliceBuffer.insert, none]

theorem sum_sizes_views {ptrs : List (OwnedSlicePtr ω α)}
    (formed : ∀ p ∈ ptrs, p.slice.WellFormed) :
    ((views ptrs).map Segment.size).sum = totalSize ptrs := by
  rw [views, totalSize, List.map_map]
  congr 1
  exact List.map_congr_left fun p member => (formed p member).size_view

theorem flatten_chunks {ptrs : List (OwnedSlicePtr ω α)}
    (formed : ∀ p ∈ ptrs, p.slice.WellFormed) :
    (ptrs.flatMap fun ptr => ptr.slice.contiguousMemoryChunks).flatten =
      (views ptrs).flatMap Segment.contents := by
  induction ptrs with
  | nil => rfl
  | cons ptr rest ih =>
      have tail := ih fun p member => formed p (by simp [member])
      have head : ptr.slice.contiguousMemoryChunks.flatten = ptr.slice.view.contents := by
        rw [(formed ptr (by simp)).chunks_eq, flatten_chunksOf]
      simp only [List.flatMap_cons, List.flatten_append, views, List.map_cons, head]
      rw [tail]
      rfl

theorem Holds.length (holds : b.Holds window) : window.length = b.size := by
  cases holds with
  | unused _ _ size => exact size.symm
  | turning before ptr after turning =>
      rw [length_ring, turning.size, ← sum_sizes_views turning.formed, turning.slices]
      simp [views]

theorem Holds.slices_ne_nil (holds : b.Holds window) (some : window ≠ []) : b.slices ≠ [] := by
  cases holds with
  | unused => exact absurd rfl some
  | turning before ptr after turning => simp [turning.slices]

theorem Holds.size_eq (holds : b.Holds window) : b.size = totalSize b.slices := by
  cases holds with
  | unused slices _ size => rw [slices, size]; rfl
  | turning before ptr after turning => exact turning.size

theorem Holds.size_le (holds : b.Holds window) : b.size ≤ b.acquiredSlicesCapacity := by
  cases holds with
  | unused _ _ size => omega
  | turning before ptr after turning => exact turning.size_le

theorem contiguousMemoryChunks_eq {first : List (List α)} {last : List α} (sized : b.size ≠ 0)
    (current : b.current = some ptr) (short : first.length ≤ 1)
    (own : ptr.slice.contiguousMemoryChunks = first ++ [last]) :
    b.contiguousMemoryChunks = some (first ++
      (b.slices.drop (b.insertionIterator + 1)).flatMap
        (fun ptr => ptr.slice.contiguousMemoryChunks) ++
      (b.slices.take b.insertionIterator).flatMap
        (fun ptr => ptr.slice.contiguousMemoryChunks) ++ [last]) := by
  have front : (if 1 < (first ++ [last]).length then (first ++ [last]).take 1 else []) = first := by
    match first, short with
    | [], _ => rfl
    | [_], _ => rfl
  simp only [contiguousMemoryChunks, empty, beq_iff_eq, sized, if_false, current]
  simp only [Option.bind_eq_bind, Option.bind_some, own, front, List.getLast?_concat]
  rfl

theorem Turning.size_ne_zero (turning : b.Turning before ptr after)
    (written : ptr.slice.view.newer ≠ []) : ptr.slice.view.size ≠ 0 ∧ b.size ≠ 0 := by
  have own := turning.ptr_formed.size_view
  have size := turning.size
  have some := List.length_pos_iff.mpr written
  have parts := ptr.slice.view.size_eq
  simp only [turning.slices, totalSize, List.map_append, List.map_cons, List.sum_append,
    List.sum_cons] at size
  omega

/-- The chunks of a buffer, put together, are the window it holds. -/
theorem Holds.chunks (holds : b.Holds window) :
    ∃ chunks, b.contiguousMemoryChunks = some chunks ∧ chunks.flatten = window := by
  cases holds with
  | unused _ _ size => exact ⟨[], by simp [contiguousMemoryChunks, empty, size], rfl⟩
  | turning before ptr after turning written =>
      obtain ⟨some, sized⟩ := turning.size_ne_zero written
      have formed := turning.formed
      rw [turning.slices] at formed
      have back := flatten_chunks fun p (member : p ∈ after) => formed p (by simp [member])
      have front := flatten_chunks fun p (member : p ∈ before) => formed p (by simp [member])
      have dropped : b.slices.drop (b.insertionIterator + 1) = after := by
        simp [turning.slices, turning.position]
      have taken : b.slices.take b.insertionIterator = before := by
        simp [turning.slices, turning.position]
      obtain ⟨first, short, own, older⟩ : ∃ first, first.length ≤ 1 ∧
          ptr.slice.contiguousMemoryChunks = first ++ [ptr.slice.view.newer] ∧
          first.flatten = ptr.slice.view.older := by
        rw [turning.ptr_formed.chunks_eq, chunksOf, if_neg some]
        by_cases unused : ptr.slice.view.older = []
        · exact ⟨[], by simp, by simp [unused], by simp [unused]⟩
        · exact ⟨[ptr.slice.view.older], by simp, by simp [unused], by simp⟩
      refine ⟨_, contiguousMemoryChunks_eq sized turning.current short own, ?_⟩
      rw [dropped, taken]
      simp [ring, back, front, older]

theorem capacity_insert (b : CircularSliceBuffer ω α) (item : α) :
    (b.insert item).capacity = b.capacity := by
  unfold CircularSliceBuffer.insert
  split <;> rfl

theorem prepareToPush_keeps (b : CircularSliceBuffer ω α) (borrow : Borrow ω π α) (pool : π) :
    (b.prepareToPush borrow pool).1.capacity = b.capacity ∧
      (b.prepareToPush borrow pool).1.size = b.size := by
  have prepared := b.prepareToPush_prepared borrow pool
  generalize b.prepareToPush borrow pool = result at prepared ⊢
  cases prepared with
  | inside =>
      rw [CircularSliceBuffer.advance_eq]
      exact ⟨rfl, rfl⟩
  | _ => exact ⟨rfl, rfl⟩

theorem capacity_push (b : CircularSliceBuffer ω α) (borrow : Borrow ω π α) (pool : π)
    (item : α) : (b.push borrow pool item).1.capacity = b.capacity := by
  by_cases zero : b.capacity = 0
  · simp [push, zero]
  · have kept := (b.prepareToPush_keeps borrow pool).1
    simp [push, zero, capacity_insert, kept]

theorem size_insert (some : b.current.isSome = true) (item : α) :
    (b.insert item).size = min (b.size + 1) (b.insert item).acquiredSlicesCapacity := by
  obtain ⟨ptr, current⟩ := Option.isSome_iff_exists.mp some
  simp [CircularSliceBuffer.insert, current]

theorem size_push {borrow : Borrow ω π α} {pool : π} (accepts : b.accepts borrow pool = true)
    (item : α) : (b.push borrow pool item).1.size =
      min (b.size + 1) (b.push borrow pool item).1.acquiredSlicesCapacity := by
  by_cases zero : b.capacity = 0
  · simp [CircularSliceBuffer.accepts, zero] at accepts
  · have current := (accepts_iff zero).mp accepts
    simp only [push, zero, if_false]
    rw [size_insert current, (b.prepareToPush_keeps borrow pool).2]

/-- What an accepted push leaves: the item is shown last, and the buffer has grown unless
    its slices were full. -/
structure Stores (b after : CircularSliceBuffer ω α) (item : α) : Prop where
  last : ∃ chunks, after.contiguousMemoryChunks = some chunks ∧
    chunks.flatten.getLast? = some item
  size : after.size = min (b.size + 1) after.acquiredSlicesCapacity

theorem Holds.stores {borrow : Borrow ω π α} {pool : π} (holds : b.Holds window)
    (lends : Lends borrow) (accepts : b.accepts borrow pool = true) (item : α) :
    b.Stores (b.push borrow pool item).1 item := by
  refine ⟨?_, size_push accepts item⟩
  rcases push_holds pool lends holds item with ⟨window', -, slide, after⟩ | ⟨rejects, -⟩
  · obtain ⟨chunks, defined, contents⟩ := after.chunks
    exact ⟨chunks, defined, contents ▸ slide.getLast?⟩
  · cases rejects.symm.trans accepts

/-- A slice as a pool hands it out. -/
abbrev FreshSlicePtr (ω α : Type) : Type := { ptr : OwnedSlicePtr ω α // ptr.slice.Fresh }

/-- A pool that gives one prepared answer. -/
def answering (answer : Except BorrowError (FreshSlicePtr ω α)) : Borrow ω Unit α :=
  fun _ _ => (answer.map Subtype.val, ())

theorem answering_lends (answer : Except BorrowError (FreshSlicePtr ω α)) :
    Lends (answering answer) := by
  intro preferred pool ptr pool' lent
  cases answer with
  | error error => simp [answering, Except.map] at lent
  | ok fresh =>
      obtain rfl : fresh.val = ptr := by simpa [answering, Except.map] using lent
      exact fresh.property

/-- An operation on a buffer.  A push comes with what the pool answers if it is
    asked for a slice. -/
inductive Op (ω α : Type) where
  | push (item : α) (answer : Except BorrowError (FreshSlicePtr ω α))
  | clear

/-- A buffer together with the items it accepted since it was last cleared. -/
def apply (state : CircularSliceBuffer ω α × List α) :
    Op ω α → CircularSliceBuffer ω α × List α
  | .push item answer =>
      ((state.1.push (answering answer) () item).1,
        if state.1.accepts (answering answer) () then state.2 ++ [item] else state.2)
  | .clear => (state.1.clear.1, [])

def run (capacity : Nat) (ops : List (Op ω α)) : CircularSliceBuffer ω α × List α :=
  ops.foldl apply (new capacity, [])

/-- The buffer is a window over the accepted items, and it cannot lose its
    ability to accept. -/
structure WindowOf (b : CircularSliceBuffer ω α) (accepted : List α) : Prop where
  window : ∃ window, b.Holds window ∧ window <:+ accepted
  usable : accepted ≠ [] → b.capacity ≠ 0 ∧ b.slices ≠ []

theorem WindowOf.new (capacity : Nat) :
    WindowOf (new capacity : CircularSliceBuffer ω α) ([] : List α) :=
  ⟨⟨[], .unused rfl rfl rfl rfl, List.suffix_refl _⟩, by simp⟩

theorem apply_windowOf {accepted : List α} (held : WindowOf b accepted) (op : Op ω α) :
    WindowOf (apply (b, accepted) op).1 (apply (b, accepted) op).2 := by
  obtain ⟨⟨window, holds, latest⟩, usable⟩ := held
  cases op with
  | clear => exact .new b.capacity
  | push item answer =>
      rcases push_holds () (answering_lends answer) holds item with
        ⟨window', accepts, slide, holds'⟩ | ⟨rejects, stays⟩
      · simp only [apply, accepts, if_true]
        refine ⟨⟨window', holds', slide.suffix latest⟩, ?_⟩
        intro _
        refine ⟨?_, holds'.slices_ne_nil slide.ne_nil⟩
        rw [capacity_push]
        intro zero
        simp [CircularSliceBuffer.accepts, zero] at accepts
      · simp only [apply, rejects, stays]
        exact ⟨⟨window, holds, latest⟩, usable⟩

theorem run_windowOf (capacity : Nat) (ops : List (Op ω α)) :
    WindowOf (run capacity ops).1 (run capacity ops).2 := by
  induction ops using List.reverseRecOn with
  | nil => exact .new capacity
  | append_singleton ops op ih =>
      have last : run capacity (ops ++ [op]) = apply (run capacity ops) op := by
        simp [run]
      rw [last]
      exact apply_windowOf ih op

/-- What a buffer shows after any operations on it. -/
structure ShowsLatest (b : CircularSliceBuffer ω α) (accepted : List α) : Prop where
  chunks : ∃ chunks, b.contiguousMemoryChunks = some chunks ∧
    chunks.flatten = accepted.drop (accepted.length - b.size)
  latest : b.size ≤ accepted.length
  size : b.size = totalSize b.slices
  bounded : b.size ≤ b.acquiredSlicesCapacity
  accepts : accepted ≠ [] → ∀ answer, b.accepts (answering answer) ()
  stores : ∀ answer item, b.accepts (answering answer) () →
    b.Stores (b.push (answering answer) () item).1 item
  preferred : b.borrows → b.size ≤ b.capacity

/-- After any pushes and clears, and whatever the pool answers, a buffer shows
    the latest items it accepted, keeps accepting and storing, and asks its pool for no
    more than its capacity. -/
theorem buffer_shows_latest (capacity : Nat) (ops : List (Op ω α)) :
    ShowsLatest (run capacity ops).1 (run capacity ops).2 := by
  obtain ⟨⟨window, holds, latest⟩, usable⟩ := run_windowOf capacity ops
  generalize (run capacity ops).1 = b, (run capacity ops).2 = accepted at *
  refine ⟨?_, ?_, holds.size_eq, holds.size_le, ?_, ?_, ?_⟩
  · obtain ⟨chunks, defined, contents⟩ := holds.chunks
    refine ⟨chunks, defined, ?_⟩
    rw [contents, ← holds.length]
    exact List.suffix_iff_eq_drop.mp latest
  · rw [← holds.length]
    exact latest.length_le
  · intro some answer
    obtain ⟨positive, slices⟩ := usable some
    exact holds.accepts () (answering_lends answer) positive slices
  · exact fun answer item accepts => holds.stores (answering_lends answer) accepts item
  · intro asks
    rw [borrows, Bool.and_eq_true, decide_eq_true_eq] at asks
    exact Nat.le_trans holds.size_le (Nat.le_of_lt asks.2)

end CircularSliceBuffer

end Spoor.Buffer
