import Spoor.Buffer.BufferSlicePool
import Spoor.Lib.Tiling

/-! # The slices of a reserved pool in its memory

The constructor cuts the memory of the pool with pointers into it.  Here every index
is checked for an overflow, and every pointer and span for whether it stays in the
memory.  None of the checks fails, and the spans tile the memory.
-/

namespace Spoor.Buffer.ReservedBufferSlicePool

open Lib.MachineInteger Lib.Tiling

/-- What can go wrong in the constructor. -/
inductive Fault where
  | lengthError
  | overflow
  | outOfBounds
  deriving Repr, DecidableEq

/-- The `max_size` of a vector: a difference of positions is a signed number. -/
structure VectorLimit where
  maxSize : Nat
  representable : maxSize < 2 ^ 63

/-! ## The constructor -/

/-- A value of a 64-bit size. -/
def inSize (value : Nat) : Except Fault Nat :=
  if value < sizeModulus then .ok value else .error .overflow

/-- A difference of 64-bit sizes. -/
def difference (left right : Nat) : Except Fault Nat :=
  if right ≤ left then .ok (left - right) else .error .overflow

/-- `std::vector` of a size. -/
def allocate (limit : VectorLimit) (size : Nat) : Except Fault Nat :=
  if limit.maxSize < size then .error .lengthError else .ok size

/-- `std::next` from the beginning of a memory of this size; the distance is converted
    to a signed number. -/
def next (size distance : Nat) : Except Fault Nat :=
  if 2 ^ 63 ≤ distance then .error .overflow
  else if size < distance then .error .outOfBounds
  else .ok distance

/-- `gsl::span` over a memory of this size. -/
def unownedBuffer (size buffer length : Nat) : Except Fault Span :=
  if size < buffer + length then .error .outOfBounds else .ok ⟨buffer, length⟩

/-- The slice of this length that begins at a multiple of the largest length. -/
def sliceAt (size maxSliceCapacity index length : Nat) : Except Fault Span := do
  let distance ← inSize (maxSliceCapacity * index)
  let buffer ← next size distance
  unownedBuffer size buffer length

/-- The loop over the slices of the largest length. -/
def maximallySizedSlices (size maxSliceCapacity count : Nat) : Except Fault (List Span) :=
  (List.range count).foldlM (fun pool index => do
    let slice ← sliceAt size maxSliceCapacity index maxSliceCapacity
    return pool ++ [slice]) []

/-- The constructor, with the slices as spans of `buffer_`. -/
def construct (limit : VectorLimit) (o : Options) : Except Fault (List Span) := do
  let size ← allocate limit o.capacity
  if o.maxSliceCapacity = 0 then
    return []
  else
    let maximallySizedSlicesSize := o.capacity / o.maxSliceCapacity
    let remainderSliceBufferSize := o.capacity % o.maxSliceCapacity
    let slicesSize ← inSize (maximallySizedSlicesSize + min remainderSliceBufferSize 1)
    let pool ← maximallySizedSlices size o.maxSliceCapacity maximallySizedSlicesSize
    if remainderSliceBufferSize = 0 then
      return pool
    else
      let index ← difference slicesSize 1
      let slice ← sliceAt size o.maxSliceCapacity index remainderSliceBufferSize
      return pool ++ [slice]

/-! ## The spans -/

/-- The spans of the largest length. -/
def maximalSpans (maxSliceCapacity count : Nat) : List Span :=
  (List.range count).map fun index => ⟨maxSliceCapacity * index, maxSliceCapacity⟩

def Options.remainderSpans (o : Options) : List Span :=
  if o.capacity % o.maxSliceCapacity = 0 then []
  else [⟨o.maxSliceCapacity * (o.capacity / o.maxSliceCapacity), o.capacity % o.maxSliceCapacity⟩]

def Options.spans (o : Options) : List Span :=
  maximalSpans o.maxSliceCapacity (o.capacity / o.maxSliceCapacity) ++ o.remainderSpans

theorem maximalSpans_succ (maxSliceCapacity count : Nat) :
    maximalSpans maxSliceCapacity (count + 1) =
      maximalSpans maxSliceCapacity count ++
        [⟨maxSliceCapacity * count, maxSliceCapacity⟩] := by
  rw [maximalSpans, List.range_succ, List.map_append, List.map_singleton, maximalSpans]

theorem sliceAt_eq_ok {size maxSliceCapacity index length : Nat} (small : size < 2 ^ 63)
    (inside : maxSliceCapacity * index + length ≤ size) :
    sliceAt size maxSliceCapacity index length = .ok ⟨maxSliceCapacity * index, length⟩ := by
  have distance : inSize (maxSliceCapacity * index) = .ok (maxSliceCapacity * index) :=
    if_pos (by rw [sizeModulus]; omega)
  have buffer : next size (maxSliceCapacity * index) = .ok (maxSliceCapacity * index) := by
    rw [next, if_neg (by omega), if_neg (by omega)]
  have slice : unownedBuffer size (maxSliceCapacity * index) length =
      .ok ⟨maxSliceCapacity * index, length⟩ := if_neg (by omega)
  simp only [sliceAt, distance, buffer, slice, bind, Except.bind]

theorem maximallySizedSlices_eq_ok {size maxSliceCapacity count : Nat} (small : size < 2 ^ 63)
    (inside : maxSliceCapacity * count ≤ size) :
    maximallySizedSlices size maxSliceCapacity count =
      .ok (maximalSpans maxSliceCapacity count) := by
  induction count with
  | zero => rfl
  | succ count ih =>
      rw [Nat.mul_succ] at inside
      have before := ih (by omega)
      have slice := sliceAt_eq_ok small inside
      rw [maximallySizedSlices] at before ⊢
      rw [List.range_succ, List.foldlM_append, before, maximalSpans_succ]
      simp [slice, bind, Except.bind, pure, Except.pure]

/-- No check fails in a constructor whose memory can be allocated. -/
theorem construct_eq_ok {limit : VectorLimit} {o : Options} (positive : 1 ≤ o.maxSliceCapacity)
    (allocates : o.capacity ≤ limit.maxSize) : construct limit o = .ok o.spans := by
  have small : o.capacity < 2 ^ 63 := Nat.lt_of_le_of_lt allocates limit.representable
  have whole := Nat.div_add_mod o.capacity o.maxSliceCapacity
  have few : o.capacity / o.maxSliceCapacity ≤ o.capacity := Nat.div_le_self _ _
  have size : allocate limit o.capacity = .ok o.capacity := if_neg (Nat.not_lt.mpr allocates)
  have pool := @maximallySizedSlices_eq_ok _ o.maxSliceCapacity
    (o.capacity / o.maxSliceCapacity) small (by omega)
  have slicesSize :
      inSize (o.capacity / o.maxSliceCapacity + min (o.capacity % o.maxSliceCapacity) 1) =
        .ok (o.capacity / o.maxSliceCapacity + min (o.capacity % o.maxSliceCapacity) 1) :=
    if_pos (by rw [sizeModulus]; omega)
  have nonzero : o.maxSliceCapacity ≠ 0 := Nat.ne_of_gt positive
  simp only [construct, size, slicesSize, pool, nonzero, if_false, bind, Except.bind]
  rw [Options.spans, Options.remainderSpans]
  split
  · rw [List.append_nil]
    rfl
  · rename_i remainder
    have one : min (o.capacity % o.maxSliceCapacity) 1 = 1 := by omega
    have index : difference (o.capacity / o.maxSliceCapacity + 1) 1 =
        .ok (o.capacity / o.maxSliceCapacity) := if_pos (Nat.le_add_left 1 _)
    have slice := @sliceAt_eq_ok _ o.maxSliceCapacity (o.capacity / o.maxSliceCapacity)
      (o.capacity % o.maxSliceCapacity) small whole.le
    simp only [one, index, slice]
    rfl

theorem maximalSpans_tiles (maxSliceCapacity count : Nat) :
    Tiles 0 (maximalSpans maxSliceCapacity count) (maxSliceCapacity * count) := by
  induction count with
  | zero => rfl
  | succ count ih =>
      rw [maximalSpans_succ]
      exact ih.append ⟨rfl, rfl⟩

theorem remainderSpans_tiles (o : Options) :
    Tiles (o.maxSliceCapacity * (o.capacity / o.maxSliceCapacity)) o.remainderSpans
      o.capacity := by
  have whole := Nat.div_add_mod o.capacity o.maxSliceCapacity
  rw [Options.remainderSpans]
  split
  · rename_i none
    rw [none] at whole
    exact whole
  · exact ⟨rfl, whole⟩

theorem spans_tiles (o : Options) : Tiles 0 o.spans o.capacity :=
  (maximalSpans_tiles _ _).append (remainderSpans_tiles o)

/-- The spans follow each other from the first to the last position of the memory,
    and all but the last have the largest length. -/
structure Partition (o : Options) (spans : List Span) : Prop where
  consecutive : Tiles 0 spans o.capacity
  disjoint : spans.Pairwise fun left right => left.positions.Disjoint right.positions
  covers : ∀ position, (∃ span ∈ spans, position ∈ span.positions) ↔ position < o.capacity
  full : ∀ span ∈ spans.dropLast, span.length = o.maxSliceCapacity
  last : ∀ span ∈ spans.getLast?, 1 ≤ span.length ∧ span.length ≤ o.maxSliceCapacity

theorem length_of_mem_maximalSpans {maxSliceCapacity count : Nat} {span : Span}
    (listed : span ∈ maximalSpans maxSliceCapacity count) : span.length = maxSliceCapacity := by
  obtain ⟨index, -, rfl⟩ := List.mem_map.mp listed
  rfl

theorem spans_partition {o : Options} (positive : 1 ≤ o.maxSliceCapacity) :
    Partition o o.spans where
  consecutive := spans_tiles o
  disjoint := (spans_tiles o).disjoint
  covers position := by simpa using (spans_tiles o).mem_iff
  full span listed := by
    rw [Options.spans, Options.remainderSpans] at listed
    split at listed
    · rw [List.append_nil] at listed
      exact length_of_mem_maximalSpans (List.mem_of_mem_dropLast listed)
    · rw [List.dropLast_concat] at listed
      exact length_of_mem_maximalSpans listed
  last span listed := by
    rw [Options.spans, Options.remainderSpans] at listed
    split at listed
    · rw [List.append_nil] at listed
      have length := length_of_mem_maximalSpans (List.mem_of_getLast? listed)
      omega
    · rename_i remainder
      rw [List.getLast?_concat] at listed
      cases listed
      exact ⟨Nat.pos_of_ne_zero remainder, (Nat.mod_lt _ positive).le⟩

/-- The constructor throws if its memory cannot be allocated, and else cuts it into
    slices without a fault. -/
theorem construct_partitions (limit : VectorLimit) {o : Options}
    (positive : 1 ≤ o.maxSliceCapacity) :
    (limit.maxSize < o.capacity → construct limit o = .error .lengthError) ∧
      (o.capacity ≤ limit.maxSize →
        ∃ spans, construct limit o = .ok spans ∧ Partition o spans) := by
  constructor
  · intro large
    have throws : allocate limit o.capacity = .error .lengthError := if_pos large
    rw [construct, throws]
    rfl
  · intro allocates
    exact ⟨o.spans, construct_eq_ok positive allocates, spans_partition positive⟩

def largestLimit : VectorLimit := ⟨2 ^ 63 - 1, by decide⟩

/-- Two slices of two and one of one. -/
def fiveInTwos : Options := ⟨2, 5, by decide⟩

theorem fiveInTwos_partitioned :
    ∃ spans, construct largestLimit fiveInTwos = .ok spans ∧ Partition fiveInTwos spans :=
  (construct_partitions largestLimit (by decide)).2 (by decide)

/-! ## The slices -/

theorem map_length_spans {o : Options} (positive : 1 ≤ o.maxSliceCapacity) :
    o.spans.map Span.length = o.sliceCapacities := by
  have maximal : (maximalSpans o.maxSliceCapacity (o.capacity / o.maxSliceCapacity)).map
      Span.length = List.replicate (o.capacity / o.maxSliceCapacity) o.maxSliceCapacity := by
    simp [maximalSpans, Function.comp_def]
  rw [Options.spans, Options.sliceCapacities, if_neg (Nat.ne_of_gt positive), List.map_append,
    maximal, Options.remainderSpans]
  split <;> rfl

/-- What was constructed are the spans, or nothing if slices are to be empty. -/
theorem construct_ok {limit : VectorLimit} {o : Options} {spans : List Span}
    (constructs : construct limit o = .ok spans) :
    spans = if o.maxSliceCapacity = 0 then [] else o.spans := by
  by_cases large : limit.maxSize < o.capacity
  · have throws : allocate limit o.capacity = .error .lengthError := if_pos large
    rw [construct, throws] at constructs
    cases constructs
  · split
    · rename_i zero
      have size : allocate limit o.capacity = .ok o.capacity := if_neg large
      rw [construct, size] at constructs
      simp only [zero, if_true] at constructs
      cases constructs
      rfl
    · rename_i nonzero
      rw [construct_eq_ok (Nat.pos_of_ne_zero nonzero) (Nat.not_lt.mp large)] at constructs
      cases constructs
      rfl

/-- The slices of a new pool are what its memory holds under the spans. -/
theorem pool_new {α : Type} {limit : VectorLimit} {o : Options} {spans : List Span}
    (constructs : construct limit o = .ok spans) (value : α) :
    (new o value).pool =
      spans.map fun span => .unowned (.new (span.read (List.replicate o.capacity value))) := by
  obtain rfl := construct_ok constructs
  split
  · rename_i zero
    rw [new, Options.sliceCapacities, if_pos zero]
    rfl
  · rename_i nonzero
    rw [new, ← map_length_spans (Nat.pos_of_ne_zero nonzero), List.map_map]
    apply List.map_congr_left
    intro span listed
    rw [Span.read_replicate ((spans_tiles o).inside listed)]
    rfl

end Spoor.Buffer.ReservedBufferSlicePool
