import Spoor.Buffer.Accounting
import Spoor.Buffer.Contents

/-! # The circular buffers agree

`CircularBuffer` is the interface of the two kinds of slices and of the circular
slice buffer.  Behind it is always the same thing: the latest items pushed since
the last clear, up to the capacity.  Each of the three is shown to behave as one
segment that is written from its beginning, the circular slice buffer as long as
nobody else takes slices from its pool.
-/

namespace Spoor.Buffer

open Lib.MachineInteger Lib.RingWindow

variable {α β γ : Type}

/-- What a circular buffer shows, with its chunks put together.  There is no
    answer where a buffer would read through an iterator that leads nowhere. -/
@[ext]
structure Observation (α : Type) where
  size : Nat
  capacity : Nat
  empty : Bool
  full : Bool
  willWrapOnNextPush : Option Bool
  contents : Option (List α)

structure CircularBuffer (β α : Type) where
  push : β → α → β
  clear : β → β
  observe : β → Observation α

inductive BufferOp (α : Type) where
  | push (item : α)
  | clear

namespace CircularBuffer

def apply (buffer : CircularBuffer β α) (b : β) : BufferOp α → β
  | .push item => buffer.push b item
  | .clear => buffer.clear b

def run (buffer : CircularBuffer β α) (b : β) (ops : List (BufferOp α)) : β :=
  ops.foldl buffer.apply b

/-- What a circular buffer is for: it has all items since the last clear and
    shows the latest of them. -/
def latest (capacity : Nat) : CircularBuffer (List α) α where
  push items item := items ++ [item]
  clear _ := []
  observe items :=
    { size := min items.length capacity
      capacity
      empty := min items.length capacity == 0
      full := capacity ≤ min items.length capacity
      willWrapOnNextPush := some (capacity == 0 || !items.isEmpty && items.length % capacity == 0)
      contents := some (items.drop (items.length - capacity)) }

/-- Related buffers stay related and show the same. -/
structure Refines (concrete : CircularBuffer β α) (abstract : CircularBuffer γ α)
    (related : β → γ → Prop) : Prop where
  push : ∀ b g item, related b g → related (concrete.push b item) (abstract.push g item)
  clear : ∀ b g, related b g → related (concrete.clear b) (abstract.clear g)
  observe : ∀ b g, related b g → concrete.observe b = abstract.observe g

theorem Refines.run {concrete : CircularBuffer β α} {abstract : CircularBuffer γ α}
    {related : β → γ → Prop} (refines : Refines concrete abstract related) {b : β} {g : γ}
    (initially : related b g) (ops : List (BufferOp α)) :
    concrete.observe (concrete.run b ops) = abstract.observe (abstract.run g ops) := by
  apply refines.observe
  induction ops generalizing b g with
  | nil => exact initially
  | cons op ops ih =>
      apply ih
      cases op with
      | push item => exact refines.push b g item initially
      | clear => exact refines.clear b g initially

/-- Whatever behaves as a segment written with the items shows the latest ones. -/
theorem observe_written {capacity : Nat} {items : List α} {seen : Observation α} {wraps : Bool}
    (positive : 0 < capacity) (sized : seen.size = (Segment.written capacity items).size)
    (same : seen.capacity = capacity) (empty : seen.empty = (seen.size == 0))
    (full : seen.full = decide (seen.capacity ≤ seen.size))
    (defined : seen.willWrapOnNextPush = some wraps)
    (lapped : wraps = true ↔ (Segment.written capacity items).Lapped)
    (contents : seen.contents = some (Segment.written capacity items).contents) :
    seen = (latest capacity).observe items := by
  have size : seen.size = min items.length capacity := by
    rw [sized, Segment.size, contents_written positive, List.length_drop]
    omega
  have wrapped : wraps = (capacity == 0 || !items.isEmpty && items.length % capacity == 0) := by
    rw [Bool.eq_iff_iff, lapped, lapped_written positive]
    simp [Nat.dvd_iff_mod_eq_zero]
    omega
  rw [contents_written positive] at contents
  ext1
  case size => exact size
  case capacity => exact same
  case empty =>
    rw [empty, size]
    rfl
  case full =>
    rw [full, same, size]
    rfl
  case willWrapOnNextPush =>
    rw [defined, wrapped]
    rfl
  case contents => exact contents

end CircularBuffer

namespace Slice

def circularBuffer : CircularBuffer (Slice α) α where
  push := push
  clear := clear
  observe s :=
    { size := s.size
      capacity := s.capacity
      empty := s.empty
      full := s.full
      willWrapOnNextPush := some s.willWrapOnNextPush
      contents := some s.contiguousMemoryChunks.flatten }

/-- A slice without any storage. -/
def Blank : Slice α → Prop
  | .owned s => s = .new 0
  | .unowned s => s = .new []

/-- The slice has been written with these items. -/
def Written (capacity : Nat) (s : Slice α) (items : List α) : Prop :=
  (capacity = 0 ∧ s.Blank) ∨ (s.WellFormed ∧ s.view = .written capacity items)

variable {s : Slice α}

theorem Blank.push (blank : s.Blank) (item : α) : (s.push item).Blank := by
  cases s with
  | owned s =>
      obtain rfl := blank
      rfl
  | unowned s =>
      obtain rfl := blank
      rfl

theorem Blank.clear (blank : s.Blank) : s.clear.Blank := by
  cases s with
  | owned s =>
      obtain rfl := blank
      rfl
  | unowned s =>
      obtain rfl := blank
      rfl

theorem Blank.observe (blank : s.Blank) (items : List α) :
    circularBuffer.observe s = (CircularBuffer.latest 0).observe items := by
  cases s with
  | owned s =>
      obtain rfl := blank
      ext1 <;> simp [circularBuffer, CircularBuffer.latest, size, capacity, empty, full,
        willWrapOnNextPush, contiguousMemoryChunks, OwnedBufferSlice.new, OwnedBufferSlice.size,
        OwnedBufferSlice.empty, OwnedBufferSlice.full, OwnedBufferSlice.willWrapOnNextPush,
        OwnedBufferSlice.contiguousMemoryChunks]
  | unowned s =>
      obtain rfl := blank
      ext1 <;> simp [circularBuffer, CircularBuffer.latest, size, capacity, empty, full,
        willWrapOnNextPush, contiguousMemoryChunks, UnownedBufferSlice.new,
        UnownedBufferSlice.capacity, UnownedBufferSlice.empty, UnownedBufferSlice.full,
        UnownedBufferSlice.willWrapOnNextPush, UnownedBufferSlice.contiguousMemoryChunks]

theorem empty_eq (s : Slice α) : s.empty = (s.size == 0) := by
  cases s with
  | owned s =>
      rw [Bool.eq_iff_iff]
      simp [empty, size, OwnedBufferSlice.empty, OwnedBufferSlice.size]
  | unowned s => rfl

theorem full_eq (s : Slice α) : s.full = decide (s.capacity ≤ s.size) := by
  cases s <;> rfl

theorem refines_latest (capacity : Nat) :
    (circularBuffer : CircularBuffer (Slice α) α).Refines (.latest capacity)
      (Written capacity) where
  push := by
    rintro s items item (⟨none, blank⟩ | ⟨formed, written⟩)
    · exact .inl ⟨none, blank.push item⟩
    · obtain ⟨formed', pushed⟩ := formed.push item
      refine .inr ⟨formed', ?_⟩
      change (s.push item).view = Segment.written capacity (items ++ [item])
      rw [pushed, written, written_concat]
  clear := by
    rintro s items (⟨none, blank⟩ | ⟨formed, written⟩)
    · exact .inl ⟨none, blank.clear⟩
    · have fresh := formed.clear_fresh
      have same : s.clear.capacity = capacity := by
        rw [ReservedBufferSlicePool.capacity_clear, ← capacity_view, written, capacity_written]
      refine .inr ⟨fresh.formed, ?_⟩
      change s.clear.view = Segment.written capacity []
      rw [fresh.view_eq, same]
      rfl
  observe := by
    rintro s items (⟨rfl, blank⟩ | ⟨formed, written⟩)
    · exact blank.observe items
    · have same : s.capacity = capacity := by
        rw [← capacity_view, written, capacity_written]
      have positive : 0 < capacity := by
        have positive := formed.view_formed.positive
        rwa [capacity_view, same] at positive
      apply CircularBuffer.observe_written positive
      case sized =>
        rw [← written]
        exact formed.size_view.symm
      case same => exact same
      case empty => exact s.empty_eq
      case full => exact s.full_eq
      case defined => rfl
      case lapped =>
        rw [← written]
        exact formed.willWrap_iff
      case contents =>
        change some s.contiguousMemoryChunks.flatten = _
        rw [formed.chunks_eq, flatten_chunksOf, written]

theorem written_owned (capacity : Nat) :
    Written capacity (.owned (.new capacity) : Slice α) [] := by
  by_cases none : capacity = 0
  · subst none
    exact .inl ⟨rfl, rfl⟩
  · have fresh : (Slice.owned (.new capacity) : Slice α).Fresh :=
      fresh_owned (Nat.pos_of_ne_zero none)
    exact .inr ⟨fresh.formed, fresh.view_eq⟩

theorem written_unowned (span : List α) : Written span.length (.unowned (.new span)) [] := by
  by_cases none : span = []
  · subst none
    exact .inl ⟨rfl, rfl⟩
  · have fresh := fresh_unowned none
    exact .inr ⟨fresh.formed, fresh.view_eq⟩

end Slice

namespace CircularSliceBuffer

section Revolves

variable {ω π : Type} {b : CircularSliceBuffer ω α} {before after : List (OwnedSlicePtr ω α)}
  {ptr : OwnedSlicePtr ω α} {whole segment : Segment α}

/-- The buffer behaves as this segment. -/
inductive Revolves (b : CircularSliceBuffer ω α) : Segment α → Prop where
  | unused : b.slices = [] → b.insertionIterator = 0 → b.size = 0 →
      b.acquiredSlicesCapacity = 0 → Revolves b ⟨b.capacity, [], []⟩
  | turning (before : List (OwnedSlicePtr ω α)) (ptr : OwnedSlicePtr ω α)
      (after : List (OwnedSlicePtr ω α)) : b.Turning before ptr after →
      ptr.slice.view.newer ≠ [] →
      Revolves b (.join b.capacity (views before) ptr.slice.view (views after))

theorem Revolves.holds (revolves : b.Revolves whole) : b.Holds whole.contents := by
  cases revolves with
  | unused slices position size acquired => exact .unused slices position size acquired
  | turning before ptr after turning written =>
      rw [contents_join]
      exact .turning before ptr after turning written

theorem Revolves.size_eq (revolves : b.Revolves whole) : whole.size = b.size :=
  revolves.holds.length

/-- The place of the current slice in the ring may be taken by anything of its
    size, which its previous lap left or which it wrote. -/
theorem Turning.size_join (turning : b.Turning before ptr after)
    (sized : segment.size = ptr.slice.size) :
    (Segment.join b.capacity (views before) segment (views after)).size = b.size := by
  have formed := turning.formed
  rw [turning.slices] at formed
  have front := sum_sizes_views fun p (member : p ∈ before) => formed p (by simp [member])
  have back := sum_sizes_views fun p (member : p ∈ after) => formed p (by simp [member])
  have size := turning.size
  simp only [turning.slices, totalSize, List.map_append, List.map_cons, List.sum_append,
    List.sum_cons] at front back size
  rw [Segment.size, contents_join, length_ring, List.map_append, List.map_cons, List.sum_append,
    List.sum_cons, front, back, sized, size]

theorem Turning.join_push {item : α} (turning : b.Turning before ptr after)
    (formed : segment.Formed) (unlapped : ¬ segment.Lapped)
    (sized : segment.size = ptr.slice.size) (same : segment.capacity = ptr.slice.capacity)
    (bounded : b.acquiredSlicesCapacity ≤ b.capacity)
    (whole : (Segment.join b.capacity (views before) segment (views after)).Formed) :
    (Segment.join b.capacity (views before) segment (views after)).push item =
      .join b.capacity (views before) (segment.push item) (views after) := by
  apply Lib.RingWindow.join_push formed unlapped
  have room := turning.room
  have size := turning.size_join sized
  rw [size, sized, same]
  constructor
  · intro fits
    change b.size < b.capacity
    omega
  · intro fits
    by_contra filled
    have left : segment.older ≠ [] := by
      intro none
      have parts := segment.size_eq
      have small := formed.bounded
      rw [none, List.length_nil] at parts
      exact unlapped ⟨none, by omega⟩
    have full := whole.filled (by simp [Segment.join, left])
    rw [size] at full
    omega

/-- Writing a slice that has been written through begins its next lap. -/
theorem Turning.reopen_push {item : α} (turning : b.Turning before ptr after)
    (lapped : ptr.slice.view.Lapped) (bounded : b.acquiredSlicesCapacity ≤ b.capacity)
    (whole : (Segment.join b.capacity (views before) ptr.slice.view.reopen (views after)).Formed) :
    (Segment.join b.capacity (views before) ptr.slice.view.reopen (views after)).push item =
      .join b.capacity (views before) (ptr.slice.view.push item) (views after) := by
  have positive := turning.ptr_formed.view_formed.positive
  obtain ⟨formed, unlapped⟩ := lapped.reopen_formed positive
  have sized : ptr.slice.view.reopen.size = ptr.slice.size := by
    rw [← turning.ptr_formed.size_view, Segment.size, Segment.size, lapped.contents]
    simp [Segment.reopen, Segment.contents]
  rw [lapped.push_eq positive]
  exact turning.join_push formed unlapped sized ptr.slice.capacity_view bounded whole

/-- A buffer that has come to the end of all its storage has come to the end of a
    lap. -/
theorem Turning.lapped_join (turning : b.Turning before ptr []) (lapped : ptr.slice.view.Lapped)
    (acquired : b.acquiredSlicesCapacity = b.capacity) :
    (Segment.join b.capacity (views before) ptr.slice.view []).Lapped := by
  have size : (Segment.join b.capacity (views before) ptr.slice.view []).size = b.size :=
    turning.size_join turning.ptr_formed.size_view
  have unused : (Segment.join b.capacity (views before) ptr.slice.view []).older = [] := by
    simp [Segment.join, lapped.1]
  have filled := totalSize_of_lapped turning.formed (turning.all_lapped lapped)
  rw [← turning.size, ← turning.acquired, acquired] at filled
  rw [Segment.size_eq, unused, List.length_nil, Nat.zero_add, filled] at size
  exact ⟨unused, size⟩

theorem views_append (left right : List (OwnedSlicePtr ω α)) :
    views (left ++ right) = views left ++ views right := List.map_append

/-- The buffer will behave as this segment when the item is in its current slice. -/
def Awaits (b : CircularSliceBuffer ω α) (item : α) (whole : Segment α) : Prop :=
  ∃ before ptr after, b.Turning before ptr after ∧
    whole = .join b.capacity (views before) (ptr.slice.view.push item) (views after)

theorem Turning.awaits_next {next : OwnedSlicePtr ω α} {item : α}
    (turning : b.Turning before ptr (next :: after)) (lapped : ptr.slice.view.Lapped)
    (bounded : b.acquiredSlicesCapacity ≤ b.capacity)
    (formed : (Segment.join b.capacity (views before) ptr.slice.view
      (views (next :: after))).Formed) :
    ({ b with insertionIterator := b.insertionIterator + 1 }).Awaits item
      ((Segment.join b.capacity (views before) ptr.slice.view (views (next :: after))).push
        item) := by
  have nextLapped := turning.lapped next (by simp)
  have moved := turning.toNext lapped
  have same : Segment.join b.capacity (views before) ptr.slice.view (views (next :: after)) =
      .join b.capacity (views (before ++ [ptr])) next.slice.view.reopen (views after) := by
    rw [views_append]
    exact join_next lapped nextLapped
  rw [same] at formed ⊢
  exact ⟨before ++ [ptr], next, after, moved, moved.reopen_push nextLapped bounded formed⟩

theorem Turning.awaits_first {item : α} (turning : b.Turning before ptr [])
    (lapped : ptr.slice.view.Lapped) (acquired : b.acquiredSlicesCapacity = b.capacity)
    (positive : 0 < b.capacity) :
    b.begin.Awaits item
      ((Segment.join b.capacity (views before) ptr.slice.view []).push item) := by
  have whole := turning.lapped_join lapped acquired
  cases slices : b.slices with
  | nil => simp [turning.slices] at slices
  | cons first rest =>
      have moved := turning.toFirst lapped slices
      have firstLapped := turning.all_lapped lapped first (by simp [slices])
      have split : views before ++ [ptr.slice.view] = first.slice.view :: views rest := by
        have row := congrArg views (turning.slices.symm.trans slices)
        simpa [views] using row
      have same := @join_first _ (views before) ptr.slice.view b.capacity _ _ split lapped
        firstLapped
      have formed := (whole.reopen_formed positive).1
      rw [same] at formed
      refine ⟨[], first, rest, moved, ?_⟩
      rw [whole.push_eq positive, same]
      exact moved.reopen_push firstLapped (Nat.le_of_eq acquired) formed

theorem acquire_awaits {fresh : OwnedSlicePtr ω α} {item : α} (lent : fresh.slice.Fresh)
    (formed : ∀ p ∈ b.slices, p.slice.WellFormed)
    (lapped : ∀ p ∈ b.slices, p.slice.view.Lapped) (size : b.size = totalSize b.slices)
    (acquired : b.acquiredSlicesCapacity = totalCapacity b.slices)
    (bounded : (b.acquire fresh).acquiredSlicesCapacity ≤ b.capacity)
    (whole : (⟨b.capacity, [], (views b.slices).flatMap Segment.contents⟩ : Segment α).Formed) :
    (b.acquire fresh).Awaits item
      ((⟨b.capacity, [], (views b.slices).flatMap Segment.contents⟩ : Segment α).push item) := by
  have turning := acquire_turning lent formed lapped size acquired
  have same : (⟨b.capacity, [], (views b.slices).flatMap Segment.contents⟩ : Segment α) =
      .join b.capacity (views b.slices) fresh.slice.view [] := by
    simp [Segment.join, lent.view_eq]
  rw [same] at whole ⊢
  exact ⟨b.slices, fresh, [], turning, turning.join_push lent.formed.view_formed lent.unlapped
    lent.formed.size_view fresh.slice.capacity_view bounded whole⟩

/-- Getting ready for a push in a pool that grants what is asked for. -/
theorem Prepared.awaits {borrow : Borrow ω π α} {pool : π}
    {result : CircularSliceBuffer ω α × π} {item : α} (prepared : b.Prepared borrow pool result)
    (revolves : b.Revolves whole) (formed : whole.Formed)
    (grants : b.acquiredSlicesCapacity < b.capacity → ∃ ptr pool',
      borrow (b.capacity - b.size) pool = (.ok ptr, pool') ∧ ptr.slice.Fresh)
    (bounded : result.1.acquiredSlicesCapacity ≤ b.capacity) :
    result.1.Awaits item (whole.push item) := by
  have never : ∀ error pool', b.acquiredSlicesCapacity < b.capacity →
      borrow (b.capacity - b.size) pool ≠ (.error error, pool') := by
    intro error pool' room refuses
    obtain ⟨ptr, pool'', lends, -⟩ := grants room
    simp [refuses] at lends
  have lendsFresh : ∀ ptr pool', b.acquiredSlicesCapacity < b.capacity →
      borrow (b.capacity - b.size) pool = (.ok ptr, pool') → ptr.slice.Fresh := by
    intro ptr pool' room lends
    obtain ⟨ptr', pool'', lends', fresh⟩ := grants room
    rw [lends] at lends'
    obtain rfl := Except.ok.inj (Prod.mk.inj lends').1
    exact fresh
  cases revolves with
  | unused slices position size acquired =>
      have stays : b.advance = b := by simp [advance, current, slices]
      have positive : 0 < b.capacity := formed.positive
      cases prepared with
      | inside inner => simp [stays, position, slices] at inner
      | wrapped _ full => omega
      | refused error pool' _ room refuses => exact absurd refuses (never error pool' room)
      | lent ptr pool' _ room lends =>
          have none : (views b.slices).flatMap Segment.contents = [] := by simp [slices, views]
          have awaits : (b.acquire ptr).Awaits item _ :=
            acquire_awaits (lendsFresh ptr pool' room lends) (by simp [slices]) (by simp [slices])
              (by rw [size, slices]; rfl) (by rw [acquired, slices]; rfl) bounded (none ▸ formed)
          rwa [none] at awaits
  | turning before ptr after turning written =>
      cases prepared with
      | inside inner =>
          rcases turning.advance_eq with ⟨lapped, moves⟩ | ⟨unlapped, stays⟩
          · cases after with
            | nil => simp [moves, turning.position, turning.slices] at inner
            | cons next rest =>
                rw [moves] at bounded ⊢
                exact turning.awaits_next lapped bounded formed
          · rw [stays] at bounded ⊢
            exact ⟨before, ptr, after, turning,
              turning.join_push turning.ptr_formed.view_formed unlapped
                turning.ptr_formed.size_view ptr.slice.capacity_view bounded formed⟩
      | wrapped ended full =>
          obtain ⟨rfl, lapped⟩ := turning.of_ended ended
          exact turning.awaits_first lapped (Nat.le_antisymm bounded full) formed.positive
      | refused error pool' _ room refuses => exact absurd refuses (never error pool' room)
      | lent fresh pool' ended room lends =>
          obtain ⟨rfl, lapped⟩ := turning.of_ended ended
          have same : Segment.join b.capacity (views before) ptr.slice.view [] =
              ⟨b.capacity, [], (views b.slices).flatMap Segment.contents⟩ := by
            simp [Segment.join, turning.slices, views, lapped.1, lapped.contents]
          rw [views_nil, same] at formed ⊢
          exact acquire_awaits (lendsFresh fresh pool' room lends) turning.formed
            (turning.all_lapped lapped) turning.size turning.acquired bounded formed

theorem Awaits.insert {item : α} (awaits : b.Awaits item whole) :
    (b.insert item).Revolves whole := by
  obtain ⟨before, ptr, after, turning, rfl⟩ := awaits
  have pushed := (turning.ptr_formed.push item).2
  rw [← pushed, ← capacity_insert b item]
  refine .turning before _ after (turning.insert item) ?_
  rw [pushed]
  exact push_newer_ne_nil _ item

/-- A ring that has come to the end of a lap has come to the end of its last slice. -/
theorem Turning.lapped_of_join (turning : b.Turning before ptr [])
    (acquired : b.acquiredSlicesCapacity = b.capacity)
    (lapped : (Segment.join b.capacity (views before) ptr.slice.view []).Lapped) :
    ptr.slice.view.Lapped := by
  have size : (Segment.join b.capacity (views before) ptr.slice.view []).size = b.size :=
    turning.size_join turning.ptr_formed.size_view
  have filled : (Segment.join b.capacity (views before) ptr.slice.view []).size = b.capacity :=
    lapped.size
  have left : ptr.slice.view.older = [] := by simpa [Segment.join] using lapped.1
  have parts := ptr.slice.view.size_eq
  have own := turning.ptr_formed.size_view
  have room := turning.room
  rw [left, List.length_nil] at parts
  refine ⟨left, ?_⟩
  rw [Slice.capacity_view]
  omega

/-- A ring is in the middle of a lap while there are slices behind the current one. -/
theorem Turning.unlapped_join {next : OwnedSlicePtr ω α}
    (turning : b.Turning before ptr (next :: after)) :
    ¬ (Segment.join b.capacity (views before) ptr.slice.view (views (next :: after))).Lapped := by
  have nextLapped := turning.lapped next (by simp)
  have positive := (turning.formed next (by simp [turning.slices])).view_formed.positive
  rintro ⟨none, -⟩
  have empty : next.slice.view.contents = [] := by
    simp only [Segment.join, views, List.map_cons, List.flatMap_cons,
      List.append_eq_nil_iff] at none
    exact none.2.1
  have filled := nextLapped.size
  rw [Segment.size, empty, List.length_nil] at filled
  omega

/-- A buffer is about to wrap where the segment it behaves as is. -/
theorem Revolves.willWrap (revolves : b.Revolves whole) (formed : whole.Formed)
    (bounded : b.acquiredSlicesCapacity ≤ b.capacity) :
    ∃ wraps, b.willWrapOnNextPush = some wraps ∧ (wraps = true ↔ whole.Lapped) := by
  have size := revolves.size_eq
  cases revolves with
  | unused slices position _ acquired =>
      have positive : 0 < b.capacity := formed.positive
      refine ⟨false, ?_, ?_⟩
      · rw [willWrapOnNextPush, if_neg (by omega), if_pos (by omega)]
      · simp only [Bool.false_eq_true, Segment.Lapped, List.length_nil, false_iff]
        omega
  | turning before ptr after turning written =>
      have positive : 0 < b.capacity := formed.positive
      have held := turning.size_le
      rw [willWrapOnNextPush, if_neg (by omega)]
      by_cases room : b.acquiredSlicesCapacity < b.capacity
      · rw [if_pos room]
        refine ⟨false, rfl, ?_⟩
        simp only [Bool.false_eq_true, false_iff]
        intro lapped
        have filled : (Segment.join b.capacity (views before) ptr.slice.view
          (views after)).size = b.capacity := lapped.size
        omega
      · rw [if_neg room, turning.slices, turning.position]
        cases after with
        | nil =>
            have acquired : b.acquiredSlicesCapacity = b.capacity := by omega
            refine ⟨ptr.slice.willWrapOnNextPush, by simp, ?_⟩
            rw [turning.ptr_formed.willWrap_iff]
            exact ⟨fun lapped => turning.lapped_join lapped acquired,
              fun lapped => turning.lapped_of_join acquired lapped⟩
        | cons next rest =>
            refine ⟨false, by simp [List.getLast?_cons], ?_⟩
            simp only [Bool.false_eq_true, false_iff]
            exact turning.unlapped_join

end Revolves

section SoleClient

/-- `Borrow` of a reserved pool that nobody else uses. -/
def soleBorrow : Borrow Owner (ReservedBufferSlicePool α) α := fun _ pool => pool.borrow ⟨0, 0⟩

/-- `Clear` returns the slices one after the other; a reserved pool takes its own. -/
def returnAll (pool : ReservedBufferSlicePool α) (slices : List (OwnedSlicePtr Owner α)) :
    ReservedBufferSlicePool α :=
  slices.foldl (fun pool ptr =>
    match ptr.owner with
    | .reserved index => pool.giveBack index ptr.slice
    | .dynamic => pool) pool

/-- A buffer with the pool it is the only client of. -/
def circularBuffer :
    CircularBuffer (CircularSliceBuffer Owner α × ReservedBufferSlicePool α) α where
  push s item := s.1.push soleBorrow s.2 item
  clear s := (s.1.clear.1, returnAll s.2 s.1.clear.2)
  observe s :=
    { size := s.1.size
      capacity := s.1.capacity
      empty := s.1.empty
      full := s.1.full
      willWrapOnNextPush := s.1.willWrapOnNextPush
      contents := s.1.contiguousMemoryChunks.map List.flatten }

variable {o : ReservedBufferSlicePool.Options} {pool : ReservedBufferSlicePool α}
  {b : CircularSliceBuffer Owner α}

/-- The slices of a pool in the order it lends them. -/
def lendingOrder (o : ReservedBufferSlicePool.Options) : List Token :=
  o.sliceCapacities.mapIdx fun index capacity => (.reserved index, capacity)

/-- The pool lent the buffer its slices and nobody else any. -/
structure Serves (o : ReservedBufferSlicePool.Options) (pool : ReservedBufferSlicePool α)
    (b : CircularSliceBuffer Owner α) : Prop where
  options : pool.options = o
  capacities : pool.pool.map Slice.capacity = o.sliceCapacities
  clean : pool.Clean
  borrowed : pool.borrowed = Finset.range b.slices.length
  lent : b.slices.map OwnedSlicePtr.token = (lendingOrder o).take b.slices.length

theorem Serves.new (o : ReservedBufferSlicePool.Options) (value : α) (capacity : Nat) :
    Serves o (.new o value) (new capacity) where
  options := rfl
  capacities := by
    simp [ReservedBufferSlicePool.new, Slice.capacity, UnownedBufferSlice.capacity,
      UnownedBufferSlice.new, Function.comp_def]
  clean := .initially o value
  borrowed := rfl
  lent := rfl

/-- Only the slices of the buffer matter to the pool. -/
theorem Serves.of_slices {other : CircularSliceBuffer Owner α} (serves : Serves o pool b)
    (same : other.slices = b.slices) : Serves o pool other := by
  refine ⟨serves.options, serves.capacities, serves.clean, ?_, ?_⟩
  · rw [same]
    exact serves.borrowed
  · rw [same]
    exact serves.lent

theorem Serves.insert (serves : Serves o pool b) (item : α) : Serves o pool (b.insert item) := by
  have same := b.map_token_insert item
  have length : (b.insert item).slices.length = b.slices.length := by
    simpa using congrArg List.length same
  refine ⟨serves.options, serves.capacities, serves.clean, ?_, ?_⟩
  · rw [length]
    exact serves.borrowed
  · rw [length, same]
    exact serves.lent

theorem lendingOrder_get {index capacity : Nat}
    (listed : o.sliceCapacities[index]? = some capacity) :
    (lendingOrder o)[index]? = some (.reserved index, capacity) := by
  simp [lendingOrder, listed]

/-- The buffer gets the next slice as long as there is one. -/
theorem Serves.lend (serves : Serves o pool b) (preferred : Nat)
    (left : b.slices.length < o.sliceCapacities.length) :
    ∃ ptr pool', soleBorrow preferred pool = (.ok ptr, pool') ∧ ptr.slice.Fresh ∧
      Serves o pool' (b.acquire ptr) := by
  have inside : b.slices.length < pool.pool.length := by
    rw [← List.length_map (f := Slice.capacity), serves.capacities]
    exact left
  have found : (List.range' 0 (pool.pool.length - 0)).find? (· ∉ pool.borrowed) =
      some b.slices.length := by
    simp only [List.find?_range'_eq_some, serves.borrowed, Finset.mem_range]
    simpa using inside
  have stored := List.getElem?_eq_getElem inside
  have listed : o.sliceCapacities[b.slices.length]? =
      some (pool.pool.get ⟨b.slices.length, inside⟩).capacity := by
    rw [← serves.capacities, List.getElem?_map, stored]
    rfl
  let slice := pool.pool.get ⟨b.slices.length, inside⟩
  refine ⟨⟨.reserved b.slices.length, slice⟩,
    { pool with
      borrowed := Insert.insert b.slices.length pool.borrowed
      size := subSize pool.size slice.capacity },
    ?_, serves.clean _ (List.getElem_mem inside), serves.options, serves.capacities, serves.clean,
    ?_, ?_⟩
  · unfold soleBorrow ReservedBufferSlicePool.borrow
    simp only [found, stored]
    rfl
  · simp only [acquire, List.length_append, List.length_singleton, Finset.range_add_one,
      serves.borrowed]
  · have next := lendingOrder_get listed
    simp only [acquire, List.map_append, List.length_append, List.length_singleton,
      List.take_add_one, next, serves.lent]
    rfl

/-- The first of the slices that are away, and the others. -/
theorem lent_cons {ptr : OwnedSlicePtr Owner α} {ptrs : List (OwnedSlicePtr Owner α)}
    {first : Nat} (lent : (ptr :: ptrs).map OwnedSlicePtr.token =
      ((lendingOrder o).drop first).take (ptr :: ptrs).length) :
    o.sliceCapacities[first]? = some ptr.slice.capacity ∧ ptr.owner = .reserved first ∧
      ptrs.map OwnedSlicePtr.token = ((lendingOrder o).drop (first + 1)).take ptrs.length := by
  cases listed : o.sliceCapacities[first]? with
  | none =>
      have none : (lendingOrder o).drop first = [] := by
        simpa [lendingOrder] using listed
      simp [none] at lent
  | some size =>
      obtain ⟨inside, named⟩ := List.getElem?_eq_some_iff.mp (lendingOrder_get listed)
      have split := List.drop_eq_getElem_cons inside
      rw [split, named, List.length_cons, List.take_succ_cons, List.map_cons,
        List.cons.injEq, OwnedSlicePtr.token, Prod.mk.injEq] at lent
      obtain ⟨⟨owner, sized⟩, rest⟩ := lent
      exact ⟨by rw [sized], owner, rest⟩

/-- The pool gets all slices back. -/
theorem returnAll_serves {ptrs : List (OwnedSlicePtr Owner α)} (first capacity : Nat)
    (options : pool.options = o) (capacities : pool.pool.map Slice.capacity = o.sliceCapacities)
    (clean : pool.Clean)
    (borrowed : ∀ index, index ∈ pool.borrowed ↔ first ≤ index ∧ index < first + ptrs.length)
    (lent : ptrs.map OwnedSlicePtr.token = ((lendingOrder o).drop first).take ptrs.length)
    (formed : ∀ ptr ∈ ptrs, ptr.slice.WellFormed) :
    Serves o (returnAll pool ptrs) (new capacity) := by
  induction ptrs generalizing pool first with
  | nil =>
      refine ⟨options, capacities, clean, ?_, rfl⟩
      ext index
      simp only [borrowed, List.length_nil, returnAll, List.foldl_nil, new, Finset.range_zero,
        Finset.notMem_empty, iff_false]
      omega
  | cons ptr ptrs ih =>
      obtain ⟨listed, owner, rest⟩ := lent_cons lent
      have fits : first < pool.pool.length := by
        rw [← List.length_map (f := Slice.capacity), capacities]
        exact (List.getElem?_eq_some_iff.mp listed).1
      have counted := ReservedBufferSlicePool.length_sliceCapacities o
      have addressed : ¬ pool.capacity ≤ first := by
        rw [ReservedBufferSlicePool.capacity, options]
        rw [← List.length_map (f := Slice.capacity), capacities] at fits
        omega
      have same : pool.sliceCapacity first = ptr.slice.capacity := by
        rw [ReservedBufferSlicePool.sliceCapacity, capacities, List.getD_eq_getElem?_getD, listed]
        rfl
      have returned : returnAll pool (ptr :: ptrs) =
          returnAll (pool.giveBack first ptr.slice) ptrs := by
        simp [returnAll, owner]
      rw [returned]
      apply ih (first + 1)
      case options => simp [ReservedBufferSlicePool.giveBack, addressed, options]
      case capacities =>
        rw [ReservedBufferSlicePool.giveBack, if_neg addressed, ← capacities]
        exact ReservedBufferSlicePool.map_capacity_set fits same
      case clean => exact clean.returned first (formed ptr (by simp))
      case borrowed =>
        intro index
        simp only [ReservedBufferSlicePool.giveBack, if_neg addressed, Finset.mem_erase, borrowed,
          List.length_cons]
        omega
      case lent => exact rest
      case formed => exact fun other member => formed other (by simp [member])

theorem Serves.totalCapacity_eq (serves : Serves o pool b) :
    totalCapacity b.slices = (o.sliceCapacities.take b.slices.length).sum := by
  have named : (lendingOrder o).map Prod.snd = o.sliceCapacities := by
    apply List.ext_getElem?
    intro index
    cases listed : o.sliceCapacities[index]? <;> simp [lendingOrder, listed]
  have capacities : b.slices.map (fun ptr => ptr.slice.capacity) =
      o.sliceCapacities.take b.slices.length := by
    calc b.slices.map (fun ptr => ptr.slice.capacity)
        = (b.slices.map OwnedSlicePtr.token).map Prod.snd := by
          rw [List.map_map]
          rfl
      _ = o.sliceCapacities.take b.slices.length := by rw [serves.lent, List.map_take, named]
  rw [totalCapacity, capacities]

theorem Serves.totalCapacity_le (serves : Serves o pool b) :
    totalCapacity b.slices ≤ o.capacity := by
  have parts := List.sum_take_add_sum_drop o.sliceCapacities b.slices.length
  have whole := ReservedBufferSlicePool.sum_sliceCapacities o
  rw [serves.totalCapacity_eq]
  omega

/-- There is a slice left until the buffer has all of the pool. -/
theorem Serves.left (serves : Serves o pool b) (positive : o.maxSliceCapacity ≠ 0)
    (room : totalCapacity b.slices < o.capacity) :
    b.slices.length < o.sliceCapacities.length := by
  by_contra all
  rw [serves.totalCapacity_eq, List.take_of_length_le (Nat.le_of_not_lt all),
    ReservedBufferSlicePool.sum_sliceCapacities_eq positive] at room
  omega

theorem Revolves.acquired {whole : Segment α} (revolves : b.Revolves whole) :
    b.acquiredSlicesCapacity = totalCapacity b.slices := by
  cases revolves with
  | unused slices _ _ acquired => rw [acquired, slices]; rfl
  | turning before ptr after turning => exact turning.acquired

theorem Revolves.formed {whole : Segment α} (revolves : b.Revolves whole) :
    ∀ ptr ∈ b.slices, ptr.slice.WellFormed := by
  cases revolves with
  | unused slices => simp [slices]
  | turning before ptr after turning => exact turning.formed

/-- The pool serves a buffer that gets ready for a push. -/
theorem Prepared.serves {result : CircularSliceBuffer Owner α × ReservedBufferSlicePool α}
    (prepared : b.Prepared soleBorrow pool result) (serves : Serves o pool b)
    (same : b.capacity = o.capacity) (positive : o.maxSliceCapacity ≠ 0)
    (acquired : b.acquiredSlicesCapacity = totalCapacity b.slices) :
    Serves o result.2 result.1 ∧ result.1.capacity = b.capacity ∧
      result.1.acquiredSlicesCapacity = totalCapacity result.1.slices := by
  cases prepared with
  | inside =>
      rw [CircularSliceBuffer.advance_eq]
      exact ⟨serves.of_slices rfl, rfl, acquired⟩
  | wrapped => exact ⟨serves.of_slices rfl, rfl, acquired⟩
  | refused error pool' _ _ refuses =>
      obtain rfl := ReservedBufferSlicePool.borrow_refused refuses
      exact ⟨serves.of_slices rfl, rfl, acquired⟩
  | lent ptr pool' _ room lends =>
      obtain ⟨ptr', pool'', lends', -, serves'⟩ :=
        serves.lend (b.capacity - b.size) (serves.left positive (by omega))
      rw [lends] at lends'
      obtain ⟨granted, rfl⟩ := Prod.mk.inj lends'
      obtain rfl := Except.ok.inj granted
      exact ⟨serves', rfl, by simp [acquire, acquired, totalCapacity]⟩

/-- The buffer and its pool have been written with these items. -/
structure Written (o : ReservedBufferSlicePool.Options)
    (s : CircularSliceBuffer Owner α × ReservedBufferSlicePool α) (items : List α) : Prop where
  capacity : s.1.capacity = o.capacity
  serves : Serves o s.2 s.1
  written : (o.capacity = 0 ∧ s.1 = new 0) ∨
    (0 < o.capacity ∧ s.1.Revolves (.written o.capacity items))

theorem Written.new (o : ReservedBufferSlicePool.Options) (value : α) :
    Written o (new o.capacity, .new o value) [] := by
  refine ⟨rfl, .new o value o.capacity, ?_⟩
  by_cases none : o.capacity = 0
  · exact .inl ⟨none, by rw [none]⟩
  · exact .inr ⟨Nat.pos_of_ne_zero none, .unused rfl rfl rfl rfl⟩

theorem Written.push {s : CircularSliceBuffer Owner α × ReservedBufferSlicePool α}
    {items : List α} (written : Written o s items) (positive : o.maxSliceCapacity ≠ 0)
    (item : α) : Written o (s.1.push soleBorrow s.2 item) (items ++ [item]) := by
  obtain ⟨same, serves, ⟨none, unused⟩ | ⟨some, revolves⟩⟩ := written
  · have stays : s.1.push soleBorrow s.2 item = s := by simp [CircularSliceBuffer.push, same, none]
    rw [stays]
    exact ⟨same, serves, .inl ⟨none, unused⟩⟩
  · have prepared := s.1.prepareToPush_prepared soleBorrow s.2
    have pushed : s.1.push soleBorrow s.2 item =
        ((s.1.prepareToPush soleBorrow s.2).1.insert item,
          (s.1.prepareToPush soleBorrow s.2).2) := by
      rw [CircularSliceBuffer.push, if_neg (by omega)]
    rw [pushed]
    generalize s.1.prepareToPush soleBorrow s.2 = result at prepared ⊢
    have acquired := revolves.acquired
    obtain ⟨serves', same', acquired'⟩ := prepared.serves serves same positive acquired
    have awaits : result.1.Awaits item ((Segment.written o.capacity items).push item) := by
      apply prepared.awaits revolves (written_formed some items)
      · intro room
        obtain ⟨ptr, pool', lends, fresh, -⟩ :=
          serves.lend (s.1.capacity - s.1.size) (serves.left positive (by omega))
        exact ⟨ptr, pool', lends, fresh⟩
      · rw [acquired', same]
        exact serves'.totalCapacity_le
    refine ⟨?_, serves'.insert item, .inr ⟨some, ?_⟩⟩
    · rw [capacity_insert, same', same]
    · rw [written_concat]
      exact awaits.insert

theorem Written.clear {s : CircularSliceBuffer Owner α × ReservedBufferSlicePool α}
    {items : List α} (written : Written o s items) :
    Written o (s.1.clear.1, returnAll s.2 s.1.clear.2) [] := by
  have serves := written.serves
  have formed : ∀ ptr ∈ s.1.slices, ptr.slice.WellFormed := by
    rcases written.written with ⟨-, unused⟩ | ⟨-, revolves⟩
    · simp [unused, CircularSliceBuffer.new]
    · exact revolves.formed
  have cleared : Serves o (returnAll s.2 s.1.slices) (CircularSliceBuffer.new s.1.capacity) := by
    apply returnAll_serves 0 s.1.capacity serves.options serves.capacities serves.clean
    case borrowed => simp [serves.borrowed]
    case lent => exact serves.lent
    case formed => exact formed
  refine ⟨written.capacity, cleared, ?_⟩
  rcases written.written with ⟨none, -⟩ | ⟨some, -⟩
  · refine .inl ⟨none, ?_⟩
    change CircularSliceBuffer.new s.1.capacity = _
    rw [written.capacity, none]
  · refine .inr ⟨some, ?_⟩
    change (CircularSliceBuffer.new s.1.capacity).Revolves _
    rw [written.capacity]
    exact .unused rfl rfl rfl rfl

theorem Written.observe {s : CircularSliceBuffer Owner α × ReservedBufferSlicePool α}
    {items : List α} (written : Written o s items) :
    circularBuffer.observe s = (CircularBuffer.latest o.capacity).observe items := by
  obtain ⟨same, serves, ⟨none, unused⟩ | ⟨some, revolves⟩⟩ := written
  · rw [none]
    ext1 <;> simp [circularBuffer, CircularBuffer.latest, unused, CircularSliceBuffer.new, empty,
      full, willWrapOnNextPush, contiguousMemoryChunks]
  · have formed : (Segment.written o.capacity items).Formed := written_formed some items
    have bounded : s.1.acquiredSlicesCapacity ≤ s.1.capacity := by
      rw [revolves.acquired, same]
      exact serves.totalCapacity_le
    obtain ⟨wraps, defined, lapped⟩ := revolves.willWrap formed bounded
    obtain ⟨chunks, shown, flattened⟩ := revolves.holds.chunks
    apply CircularBuffer.observe_written some
    case sized => exact revolves.size_eq.symm
    case same => exact same
    case empty => rfl
    case full => rfl
    case defined => exact defined
    case lapped => exact lapped
    case contents =>
      change s.1.contiguousMemoryChunks.map List.flatten = _
      rw [shown, Option.map_some, flattened]

theorem refines_latest {o : ReservedBufferSlicePool.Options} (positive : o.maxSliceCapacity ≠ 0) :
    (circularBuffer : CircularBuffer _ α).Refines (.latest o.capacity) (Written o) where
  push _ _ item written := written.push positive item
  clear _ _ written := written.clear
  observe _ _ written := written.observe

end SoleClient

end CircularSliceBuffer

/-- After any pushes and clears, an owned slice, an unowned slice and a circular
    slice buffer that is the only client of a reserved pool, all of one capacity,
    show the same: the latest items since the last clear. -/
theorem circularBuffers_agree (o : ReservedBufferSlicePool.Options)
    (positive : 1 ≤ o.maxSliceCapacity) (span : List α) (sized : span.length = o.capacity)
    (value : α) (ops : List (BufferOp α)) :
    let owned := Slice.circularBuffer.run (.owned (.new o.capacity)) ops
    let unowned := Slice.circularBuffer.run (.unowned (.new span)) ops
    let circular := CircularSliceBuffer.circularBuffer.run (.new o.capacity, .new o value) ops
    let items := (CircularBuffer.latest o.capacity).run [] ops
    Slice.circularBuffer.observe owned = (CircularBuffer.latest o.capacity).observe items ∧
      Slice.circularBuffer.observe unowned = Slice.circularBuffer.observe owned ∧
      CircularSliceBuffer.circularBuffer.observe circular =
        Slice.circularBuffer.observe owned := by
  intro owned unowned circular items
  have first : Slice.circularBuffer.observe owned =
      (CircularBuffer.latest o.capacity).observe items :=
    (Slice.refines_latest o.capacity).run (Slice.written_owned o.capacity) ops
  have second : Slice.circularBuffer.observe unowned =
      (CircularBuffer.latest o.capacity).observe items :=
    (Slice.refines_latest o.capacity).run (sized ▸ Slice.written_unowned span) ops
  have third : CircularSliceBuffer.circularBuffer.observe circular =
      (CircularBuffer.latest o.capacity).observe items :=
    (CircularSliceBuffer.refines_latest (Nat.ne_of_gt positive)).run (.new o value) ops
  exact ⟨first, second.trans first.symm, third.trans first.symm⟩

/-- More pushes than there is room for, after a clear. -/
def overflowingPushes : List (BufferOp Nat) :=
  [.push 7, .clear, .push 1, .push 2, .push 3, .push 4]

theorem overflowingPushes_agree :
    CircularSliceBuffer.circularBuffer.observe
        (CircularSliceBuffer.circularBuffer.run
          (.new 3, .new ⟨2, 3, by decide⟩ 0) overflowingPushes) =
      ⟨3, 3, false, true, some false, some [2, 3, 4]⟩ := by
  obtain ⟨latest, -, circular⟩ := circularBuffers_agree ⟨2, 3, by decide⟩ (by decide) [9, 9, 9] rfl
    0 overflowingPushes
  exact (circular.trans latest).trans rfl

end Spoor.Buffer
