import Spoor.Buffer.Accounting
import Spoor.Buffer.Contents

/-! # Where the items of a buffer come from

A slice is lent empty, and only a push puts an item into it.  So whatever the
pushed items have in common, all items of the buffer have in common, also after
slices went through the pool from one buffer to another.
-/

namespace Spoor.Buffer

open Lib.RingWindow

variable {α ω : Type} {allowed : α → Prop}

/-- The slice is well formed and holds allowed items only. -/
structure Slice.Within (s : Slice α) (allowed : α → Prop) : Prop where
  formed : s.WellFormed
  items : ∀ item ∈ s.view.contents, allowed item

theorem Slice.Fresh.within {s : Slice α} (fresh : s.Fresh) : s.Within allowed where
  formed := fresh.formed
  items := by
    rw [fresh.view_eq]
    intro item member
    cases member

theorem Slice.Within.mono {s : Slice α} {allowed' : α → Prop} (within : s.Within allowed)
    (more : ∀ item, allowed item → allowed' item) : s.Within allowed' :=
  ⟨within.formed, fun item member => more item (within.items item member)⟩

theorem mem_contents_push {s : Segment α} {item other : α}
    (member : other ∈ (s.push item).contents) : other = item ∨ other ∈ s.contents := by
  unfold Segment.push at member
  split at member
  · simp only [Segment.contents, List.mem_append, List.mem_singleton] at member ⊢
    tauto
  · cases older : s.older with
    | nil =>
        simp only [older, Segment.contents, List.mem_append, List.mem_singleton] at member ⊢
        exact member.symm.imp id fun rest => .inr (List.mem_of_mem_tail rest)
    | cons oldest rest =>
        simp only [older, Segment.contents, List.mem_append, List.mem_cons] at member ⊢
        simp only [List.not_mem_nil, or_false] at member
        tauto

theorem Slice.Within.push {s : Slice α} {item : α} (within : s.Within allowed)
    (allows : allowed item) : (s.push item).Within allowed := by
  obtain ⟨formed, view⟩ := within.formed.push item
  refine ⟨formed, ?_⟩
  rw [view]
  intro other member
  rcases mem_contents_push member with rfl | held
  · exact allows
  · exact within.items other held

theorem Slice.Within.chunks {s : Slice α} (within : s.Within allowed) :
    ∀ item ∈ s.contiguousMemoryChunks.flatten, allowed item := by
  rw [within.formed.chunks_eq, flatten_chunksOf]
  exact within.items

namespace CircularSliceBuffer

/-- The items in the slices of the buffer. -/
def items (b : CircularSliceBuffer ω α) : List α :=
  b.slices.flatMap fun ptr => ptr.slice.contiguousMemoryChunks.flatten

/-- All slices of the buffer hold allowed items only. -/
def Within (b : CircularSliceBuffer ω α) (allowed : α → Prop) : Prop :=
  ∀ ptr ∈ b.slices, ptr.slice.Within allowed

/-- What `ContiguousMemoryChunks` returns is in the slices. -/
theorem chunks_subset_items {b : CircularSliceBuffer ω α} {chunks : List (List α)}
    (returned : b.contiguousMemoryChunks = some chunks) :
    ∀ item ∈ chunks.flatten, item ∈ b.items := by
  unfold contiguousMemoryChunks at returned
  split at returned
  · obtain rfl := Option.some.inj returned
    intro item member
    cases member
  · simp only [Option.bind_eq_bind, Option.bind_eq_some_iff, Option.pure_def,
      Option.some.injEq] at returned
    obtain ⟨ptr, current, last, ends, rfl⟩ := returned
    have own : ∀ chunk ∈ ptr.slice.contiguousMemoryChunks, ∀ item ∈ chunk, item ∈ b.items := by
      intro chunk listed item member
      exact List.mem_flatMap.mpr
        ⟨ptr, List.mem_of_getElem? current, List.mem_flatten.mpr ⟨chunk, listed, member⟩⟩
    have others : ∀ ptrs, ptrs ⊆ b.slices → ∀ chunk ∈ ptrs.flatMap
        (fun ptr => ptr.slice.contiguousMemoryChunks), ∀ item ∈ chunk, item ∈ b.items := by
      intro ptrs inside chunk listed item member
      obtain ⟨other, held, listed⟩ := List.mem_flatMap.mp listed
      exact List.mem_flatMap.mpr
        ⟨other, inside held, List.mem_flatten.mpr ⟨chunk, listed, member⟩⟩
    intro item member
    obtain ⟨chunk, listed, held⟩ := List.mem_flatten.mp member
    simp only [List.mem_append, List.mem_singleton] at listed
    obtain ((first | after) | before) | rfl := listed
    · refine own chunk ?_ item held
      split at first
      · exact List.mem_of_mem_take first
      · cases first
    · exact others _ (List.drop_subset _ _) chunk after item held
    · exact others _ (List.take_subset _ _) chunk before item held
    · exact own chunk (List.mem_of_getLast? ends) item held

theorem Within.items {b : CircularSliceBuffer ω α} (within : b.Within allowed) :
    ∀ item ∈ b.items, allowed item := by
  intro item member
  obtain ⟨ptr, slice, held⟩ := List.mem_flatMap.mp member
  exact (within ptr slice).chunks item held

theorem Within.insert {b : CircularSliceBuffer ω α} {item : α} (within : b.Within allowed)
    (allows : allowed item) : (b.insert item).Within allowed := by
  unfold CircularSliceBuffer.insert
  split
  · rename_i ptr current
    intro other member
    rcases List.mem_or_eq_of_mem_set member with before | rfl
    · exact within other before
    · exact (within ptr (List.mem_of_getElem? current)).push allows
  · exact within

end CircularSliceBuffer

/-- A push of an allowed item keeps the buffer within what is allowed. -/
theorem CircularSliceBuffer.push_within {b : CircularSliceBuffer Owner α}
    {p : CombinedBufferSlicePool α} {item : α} (overtaken : Overtaken) (clean : p.reserved.Clean)
    (within : b.Within allowed) (allows : allowed item) :
    (b.push (CombinedBufferSlicePool.borrow overtaken) p item).1.Within allowed ∧
      (b.push (CombinedBufferSlicePool.borrow overtaken) p item).2.reserved.Clean := by
  unfold push
  split
  · exact ⟨within, clean⟩
  · have prepared := prepareToPush_prepared (b := b) (CombinedBufferSlicePool.borrow overtaken) p
    generalize b.prepareToPush (CombinedBufferSlicePool.borrow overtaken) p = result at prepared ⊢
    cases prepared with
    | inside =>
        rw [advance_eq]
        exact ⟨Within.insert within allows, clean⟩
    | wrapped => exact ⟨Within.insert within allows, clean⟩
    | refused error pool' _ _ refuses =>
        exact ⟨Within.insert within allows, (CombinedBufferSlicePool.borrow_fresh clean refuses).1⟩
    | lent ptr pool' _ _ lends =>
        obtain ⟨stays, fresh⟩ := CombinedBufferSlicePool.borrow_fresh clean lends
        refine ⟨Within.insert ?_ allows, stays⟩
        intro other member
        rcases List.mem_append.mp member with before | borrowed
        · exact within other before
        · obtain rfl := List.mem_singleton.mp borrowed
          exact (fresh other rfl).within

end Spoor.Buffer
