import Mathlib.Algebra.Order.Ring.Int
import Mathlib.Data.List.Basic
import Mathlib.Data.List.Induction
import Mathlib.Data.Nat.ModEq

/-! # Windows over a sequence, kept in a ring of segments

A window holds the latest items of a sequence.  It slides with every item: it
grows by it, or it gives up its oldest item for it.  Whatever the pattern of
growth, a window that only ever slides is a suffix of the sequence.

A segment is a circular piece of storage.  It is written through, so its items
fall into those left over from the previous lap and those of the current one.
A ring puts segments in a row and writes one of them at a time.  As long as it
only goes round when it has all its storage, it behaves as one large segment.
-/

namespace Spoor.Lib.RingWindow

variable {α : Type*}

/-- How one item moves a window. -/
inductive Slide (item : α) : List α → List α → Prop where
  | grow (window : List α) : Slide item window (window ++ [item])
  | slip (oldest : α) (window : List α) : Slide item (oldest :: window) (window ++ [item])

/-- A sliding window stays a suffix of the sequence that went through it. -/
theorem Slide.suffix {item : α} {window window' sequence : List α}
    (slide : Slide item window window') (latest : window <:+ sequence) :
    window' <:+ sequence ++ [item] := by
  cases slide with
  | grow => exact (List.suffix_append_self_iff).mpr latest
  | slip oldest rest =>
      have tail : rest <:+ sequence := (List.suffix_cons oldest rest).trans latest
      exact (List.suffix_append_self_iff).mpr tail

theorem Slide.ne_nil {item : α} {window window' : List α} (slide : Slide item window window') :
    window' ≠ [] := by
  cases slide <;> simp

theorem Slide.getLast? {item : α} {window window' : List α} (slide : Slide item window window') :
    window'.getLast? = some item := by
  cases slide <;> simp

theorem Slide.length_le {item : α} {window window' : List α} (slide : Slide item window window') :
    window'.length ≤ window.length + 1 := by
  cases slide <;> simp

/-- A circular piece of storage: what the previous lap left and what the current
    lap wrote, both in order. -/
structure Segment (α : Type*) where
  capacity : Nat
  older : List α
  newer : List α

namespace Segment

def contents (s : Segment α) : List α := s.older ++ s.newer

def size (s : Segment α) : Nat := s.contents.length

/-- The current lap has come to the end of the storage. -/
def Lapped (s : Segment α) : Prop := s.older = [] ∧ s.newer.length = s.capacity

/-- Only storage that has been filled once has anything left from a previous lap. -/
structure Formed (s : Segment α) : Prop where
  positive : 0 < s.capacity
  bounded : s.size ≤ s.capacity
  filled : s.older ≠ [] → s.size = s.capacity

def push (s : Segment α) (item : α) : Segment α :=
  if s.size < s.capacity then { s with newer := s.newer ++ [item] }
  else
    match s.older with
    | _ :: rest => { s with older := rest, newer := s.newer ++ [item] }
    | [] => { s with older := s.newer.tail, newer := [item] }

/-- The same storage at the beginning of its next lap. -/
def reopen (s : Segment α) : Segment α := { s with older := s.newer, newer := [] }

end Segment

/-- The items of a ring in order, the segment at `current` being written. -/
def ring (before : List (Segment α)) (current : Segment α) (after : List (Segment α)) :
    List α :=
  current.older ++ (after.flatMap Segment.contents ++
    (before.flatMap Segment.contents ++ current.newer))

@[simp] theorem push_capacity (s : Segment α) (item : α) :
    (s.push item).capacity = s.capacity := by
  unfold Segment.push
  split
  · rfl
  · split <;> rfl

theorem push_newer_ne_nil (s : Segment α) (item : α) : (s.push item).newer ≠ [] := by
  unfold Segment.push
  split
  · simp
  · split <;> simp

theorem Segment.Lapped.contents {s : Segment α} (lapped : s.Lapped) : s.contents = s.newer := by
  rw [Segment.contents, lapped.1, List.nil_append]

theorem Segment.Lapped.size {s : Segment α} (lapped : s.Lapped) : s.size = s.capacity := by
  rw [Segment.size, lapped.contents, lapped.2]

theorem Segment.size_eq (s : Segment α) : s.size = s.older.length + s.newer.length :=
  List.length_append

theorem Segment.Formed.unused {s : Segment α} (formed : s.Formed) (room : s.size < s.capacity) :
    s.older = [] := by
  by_contra used
  exact absurd (formed.filled used) (Nat.ne_of_lt room)

/-- A segment with room grows, any other one slips, and the segments around it
    do not matter. -/
theorem slide_push {before after : List (Segment α)} {current : Segment α} {item : α}
    (formed : current.Formed) (unlapped : ¬ current.Lapped) :
    Slide item (ring before current after) (ring before (current.push item) after) := by
  unfold Segment.push
  split
  · rename_i room
    have unused := formed.unused room
    have grown : Slide item _ (ring before current after ++ [item]) := .grow _
    simpa [ring, unused] using grown
  · rename_i full
    cases left : current.older with
    | nil =>
        refine absurd ⟨left, ?_⟩ unlapped
        have size : current.size = current.newer.length := by
          simp [Segment.size, Segment.contents, left]
        have bounded := formed.bounded
        omega
    | cons oldest rest =>
        have slipped : Slide item (oldest :: (rest ++ (after.flatMap Segment.contents ++
            (before.flatMap Segment.contents ++ current.newer)))) _ := .slip oldest _
        simpa [ring, left] using slipped

theorem Segment.Formed.push_size {s : Segment α} {item : α} (formed : s.Formed) :
    (s.push item).size = min (s.size + 1) s.capacity := by
  have positive := formed.positive
  have bounded := formed.bounded
  have size := s.size_eq
  unfold Segment.push
  split
  · simp only [Segment.size_eq, List.length_append, List.length_singleton]
    omega
  · cases left : s.older with
    | nil =>
        simp only [left, List.length_nil] at size
        simp only [Segment.size_eq, left, List.length_tail, List.length_singleton, List.length_nil]
        omega
    | cons oldest rest =>
        simp only [left, List.length_cons] at size
        simp only [Segment.size_eq, left, List.length_append, List.length_cons, List.length_nil]
        omega

theorem Segment.Formed.push {s : Segment α} {item : α} (formed : s.Formed) :
    (s.push item).Formed := by
  have size : (s.push item).size = min (s.size + 1) s.capacity := formed.push_size
  have bounded := formed.bounded
  refine ⟨?_, ?_, ?_⟩
  · rw [push_capacity]
    exact formed.positive
  · rw [push_capacity, size]
    exact Nat.min_le_right _ _
  · intro used
    rw [push_capacity, size]
    by_cases room : s.size < s.capacity
    · simp [Segment.push, room, formed.unused room] at used
    · omega

theorem Segment.Lapped.reopen_formed {s : Segment α} (lapped : s.Lapped)
    (positive : 0 < s.capacity) : s.reopen.Formed ∧ ¬ s.reopen.Lapped := by
  have size : s.reopen.size = s.capacity := by
    simpa [Segment.size_eq, Segment.reopen] using lapped.2
  refine ⟨⟨positive, Nat.le_of_eq size, fun _ => size⟩, ?_⟩
  rintro ⟨-, full⟩
  simp only [Segment.reopen, List.length_nil] at full
  omega

/-- A lapped segment is written as if it had been reopened. -/
theorem Segment.Lapped.push_eq {s : Segment α} {item : α} (lapped : s.Lapped)
    (positive : 0 < s.capacity) : s.push item = s.reopen.push item := by
  have size : s.reopen.size = s.capacity := by
    simpa [Segment.size_eq, Segment.reopen] using lapped.2
  have full : ¬ s.reopen.size < s.reopen.capacity := by
    rw [size]
    exact Nat.lt_irrefl _
  rw [Segment.push, Segment.push, if_neg full, lapped.size, if_neg (Nat.lt_irrefl _), lapped.1]
  cases items : s.newer with
  | nil =>
      have none : s.newer.length = s.capacity := lapped.2
      rw [items, List.length_nil] at none
      omega
  | cons oldest rest => simp [Segment.reopen, items]

theorem take_set_succ {items : List α} {index : Nat} (item : α) (inside : index < items.length) :
    (items.set index item).take (index + 1) = items.take index ++ [item] := by
  rw [List.take_add_one, List.take_set_of_le (Nat.le_refl index), List.getElem?_set_self inside]
  rfl

/-- The segment of a linear piece of storage that is written at an index. -/
def Segment.cut (capacity : Nat) (items : List α) (index : Nat) : Segment α :=
  ⟨capacity, items.drop index, items.take index⟩

/-- The storage is filled before it is written for a second time. -/
structure Cuttable (capacity : Nat) (items : List α) (index : Nat) : Prop where
  positive : 0 < capacity
  inside : index ≤ items.length
  bounded : items.length ≤ capacity
  appending : items.length < capacity → index = items.length

section Cut

variable {capacity index : Nat} {items : List α}

theorem cut_of_ended (ended : index = items.length) :
    Segment.cut capacity items index = ⟨capacity, [], items⟩ := by
  simp [Segment.cut, ended]

theorem Cuttable.size (cuttable : Cuttable capacity items index) :
    (Segment.cut capacity items index).size = items.length := by
  have inside := cuttable.inside
  simp only [Segment.size_eq, Segment.cut, List.length_drop, List.length_take]
  omega

theorem Cuttable.older_ne_nil (cuttable : Cuttable capacity items index) :
    (Segment.cut capacity items index).older ≠ [] ↔ index ≠ items.length := by
  have inside := cuttable.inside
  simp only [Segment.cut, ne_eq, List.drop_eq_nil_iff]
  omega

theorem Cuttable.full (cuttable : Cuttable capacity items index)
    (inner : index ≠ items.length) : items.length = capacity := by
  have bounded := cuttable.bounded
  have appending := cuttable.appending
  omega

theorem Cuttable.formed (cuttable : Cuttable capacity items index) :
    (Segment.cut capacity items index).Formed := by
  refine ⟨cuttable.positive, ?_, ?_⟩
  · rw [cuttable.size]
    exact cuttable.bounded
  · intro left
    rw [cuttable.size]
    exact cuttable.full (cuttable.older_ne_nil.mp left)

theorem Cuttable.lapped_iff (cuttable : Cuttable capacity items index) :
    (Segment.cut capacity items index).Lapped ↔ items.length = capacity ∧ index = items.length := by
  have inside := cuttable.inside
  simp only [Segment.Lapped, Segment.cut, List.drop_eq_nil_iff, List.length_take]
  omega

theorem Cuttable.append (cuttable : Cuttable capacity items index) (item : α)
    (room : items.length < capacity) :
    Cuttable capacity (items ++ [item]) (items.length + 1) ∧
      (Segment.cut capacity items index).push item =
        .cut capacity (items ++ [item]) (items.length + 1) := by
  constructor
  · have grown : (items ++ [item]).length = items.length + 1 := by simp
    exact ⟨cuttable.positive, by omega, by omega, by omega⟩
  · have size := cuttable.size
    rw [Segment.push, if_pos (by rw [size]; exact room),
      cut_of_ended (cuttable.appending room), cut_of_ended (by simp)]

theorem Cuttable.overwrite (cuttable : Cuttable capacity items index) (item : α)
    (inner : index < items.length) :
    Cuttable capacity (items.set index item) (index + 1) ∧
      (Segment.cut capacity items index).push item =
        .cut capacity (items.set index item) (index + 1) := by
  have full := cuttable.full (Nat.ne_of_lt inner)
  constructor
  · refine ⟨cuttable.positive, ?_, ?_, ?_⟩ <;> simp <;> omega
  · have size := cuttable.size
    have left : items.drop index = items.get ⟨index, inner⟩ :: items.drop (index + 1) :=
      List.drop_eq_getElem_cons inner
    rw [Segment.push, if_neg (by rw [size, full]; exact Nat.lt_irrefl _)]
    simp only [Segment.cut, left]
    rw [take_set_succ item inner, List.drop_set_of_lt (Nat.lt_succ_self index)]

theorem Cuttable.wrap (cuttable : Cuttable capacity items index) (item : α)
    (full : items.length = capacity) (ended : index = items.length) :
    Cuttable capacity (items.set 0 item) 1 ∧
      (Segment.cut capacity items index).push item = .cut capacity (items.set 0 item) 1 := by
  have positive := cuttable.positive
  have reopened : Cuttable capacity items 0 := ⟨positive, Nat.zero_le _, cuttable.bounded, by omega⟩
  have lapped := cuttable.lapped_iff.mpr ⟨full, ended⟩
  obtain ⟨formed, pushed⟩ := reopened.overwrite item (by omega)
  refine ⟨formed, ?_⟩
  rw [lapped.push_eq positive, ← pushed]
  simp [Segment.reopen, Segment.cut, ended]

end Cut

section Rotation

variable {before after : List (Segment α)} {current : Segment α}

/-- Going on to the next segment of a ring. -/
theorem ring_next {next : Segment α} (lapped : current.Lapped) (nextLapped : next.Lapped) :
    ring before current (next :: after) = ring (before ++ [current]) next.reopen after := by
  simp [ring, Segment.reopen, lapped.1, lapped.contents, nextLapped.contents]

/-- A ring whose last segment has been written through, read in a row. -/
theorem ring_last (lapped : current.Lapped) :
    ring before current [] = (before ++ [current]).flatMap Segment.contents := by
  simp [ring, lapped.1, lapped.contents]

/-- Going back to the first segment of a ring. -/
theorem ring_first {first : Segment α} (lapped : first.Lapped) :
    ring [] first.reopen after = (first :: after).flatMap Segment.contents := by
  simp [ring, Segment.reopen, lapped.contents]

/-- Putting a new segment behind the last one of a ring. -/
theorem ring_extend (capacity : Nat) :
    ring before ⟨capacity, [], []⟩ [] = before.flatMap Segment.contents := by
  simp [ring]

/-- The size of a ring is the sum of the sizes of its segments. -/
theorem length_ring :
    (ring before current after).length =
      ((before ++ current :: after).map Segment.size).sum := by
  have parts := current.size_eq
  have sizes : (fun s : Segment α => s.contents.length) = Segment.size := rfl
  simp only [ring, List.length_append, List.length_flatMap, sizes, List.map_append,
    List.map_cons, List.sum_append, List.sum_cons]
  omega

end Rotation

section Written

/-- A segment that was written with some items from the beginning. -/
def Segment.written (capacity : Nat) (items : List α) : Segment α :=
  items.foldl Segment.push ⟨capacity, [], []⟩

variable {capacity : Nat}

theorem written_concat (items : List α) (item : α) :
    Segment.written capacity (items ++ [item]) = (Segment.written capacity items).push item := by
  simp [Segment.written]

theorem capacity_written (capacity : Nat) (items : List α) :
    (Segment.written capacity items).capacity = capacity := by
  induction items using List.reverseRecOn with
  | nil => rfl
  | append_singleton items item ih => rw [written_concat, push_capacity, ih]

theorem written_formed (positive : 0 < capacity) (items : List α) :
    (Segment.written capacity items).Formed := by
  induction items using List.reverseRecOn with
  | nil => exact ⟨positive, Nat.zero_le _, fun used => absurd rfl used⟩
  | append_singleton items item ih =>
      rw [written_concat]
      exact ih.push

/-- A push forgets the oldest item if there is no room for one more. -/
theorem Segment.Formed.push_contents {s : Segment α} (formed : s.Formed) (item : α) :
    (s.push item).contents = (s.contents ++ [item]).drop (s.size + 1 - s.capacity) := by
  have positive := formed.positive
  have bounded := formed.bounded
  unfold Segment.push
  split
  · have none : s.size + 1 - s.capacity = 0 := by omega
    rw [none, List.drop_zero]
    simp [Segment.contents]
  · have one : s.size + 1 - s.capacity = 1 := by omega
    rw [one]
    cases left : s.older with
    | cons oldest rest => simp [Segment.contents, left]
    | nil =>
        cases items : s.newer with
        | nil =>
            simp only [Segment.size_eq, left, items, List.length_nil] at *
            omega
        | cons oldest rest => simp [Segment.contents, left, items]

theorem contents_written (positive : 0 < capacity) (items : List α) :
    (Segment.written capacity items).contents = items.drop (items.length - capacity) := by
  induction items using List.reverseRecOn with
  | nil => simp [Segment.written, Segment.contents]
  | append_singleton items item ih =>
      have size : (Segment.written capacity items).size =
          items.length - (items.length - capacity) := by
        rw [Segment.size, ih, List.length_drop]
      rw [written_concat, (written_formed positive items).push_contents, ih, capacity_written,
        size, ← List.drop_append_of_le_length (Nat.sub_le _ _), List.drop_drop,
        List.length_append, List.length_singleton]
      congr 1
      omega

/-- Every lap writes as many items as there is storage. -/
theorem newer_written (positive : 0 < capacity) (items : List α) :
    (Segment.written capacity items).newer.length ≡ items.length [MOD capacity] := by
  induction items using List.reverseRecOn with
  | nil => rfl
  | append_singleton items item ih =>
      have formed := written_formed positive items
      have bounded := formed.bounded
      have size := (Segment.written capacity items).size_eq
      have same := capacity_written capacity items
      rw [written_concat, List.length_append]
      unfold Segment.push
      split
      · simpa using ih.add_right 1
      · cases left : (Segment.written capacity items).older with
        | cons oldest rest => simpa using ih.add_right 1
        | nil =>
            rw [left, List.length_nil] at size
            have full : (Segment.written capacity items).newer.length = capacity := by omega
            rw [full] at ih
            have next : capacity + 1 ≡ items.length + 1 [MOD capacity] := ih.add_right 1
            have wrapped : 1 ≡ capacity + 1 [MOD capacity] := by
              simp [Nat.ModEq]
            exact wrapped.trans next

theorem newer_written_ne_nil (capacity : Nat) {items : List α} (some : items ≠ []) :
    (Segment.written capacity items).newer ≠ [] := by
  obtain ⟨items, item, rfl⟩ := (List.eq_nil_or_concat items).resolve_left some
  rw [List.concat_eq_append, written_concat]
  exact push_newer_ne_nil _ item

theorem lapped_written (positive : 0 < capacity) (items : List α) :
    (Segment.written capacity items).Lapped ↔ items ≠ [] ∧ capacity ∣ items.length := by
  have formed := written_formed positive items
  have same := capacity_written capacity items
  have bounded := formed.bounded
  have size := (Segment.written capacity items).size_eq
  have phase := newer_written positive items
  constructor
  · rintro ⟨-, full⟩
    rw [full, same] at phase
    refine ⟨?_, (Nat.modEq_zero_iff_dvd).mp (phase.symm.trans (by simp [Nat.ModEq]))⟩
    rintro rfl
    simp only [same] at full
    exact absurd full (by simp [Segment.written]; omega)
  · rintro ⟨some, divides⟩
    have written := List.length_pos_iff.mpr (newer_written_ne_nil capacity some)
    have multiple := (Nat.modEq_zero_iff_dvd).mp
      (phase.trans ((Nat.modEq_zero_iff_dvd).mpr divides))
    have full := Nat.le_of_dvd written multiple
    exact ⟨List.eq_nil_of_length_eq_zero (by omega), by omega⟩

end Written

section Join

variable {before after : List (Segment α)} {current : Segment α} {capacity : Nat}

/-- A ring as one segment. -/
def Segment.join (capacity : Nat) (before : List (Segment α)) (current : Segment α)
    (after : List (Segment α)) : Segment α :=
  ⟨capacity, current.older ++ after.flatMap Segment.contents,
    before.flatMap Segment.contents ++ current.newer⟩

theorem contents_join :
    (Segment.join capacity before current after).contents = ring before current after := by
  simp [Segment.join, Segment.contents, ring]

/-- A push on the current segment is a push on the ring. -/
theorem join_push {item : α} (formed : current.Formed) (unlapped : ¬ current.Lapped)
    (room : current.size < current.capacity ↔
      (Segment.join capacity before current after).size <
        (Segment.join capacity before current after).capacity) :
    (Segment.join capacity before current after).push item =
      .join capacity before (current.push item) after := by
  unfold Segment.push
  by_cases fits : current.size < current.capacity
  · rw [if_pos fits, if_pos (room.mp fits)]
    simp [Segment.join]
  · rw [if_neg fits, if_neg (mt room.mpr fits)]
    cases left : current.older with
    | nil =>
        have size := current.size_eq
        have bounded := formed.bounded
        rw [left, List.length_nil] at size
        exact absurd ⟨left, by omega⟩ unlapped
    | cons oldest rest => simp [Segment.join, left]

/-- Going on to the next segment does not change the ring. -/
theorem join_next {next : Segment α} (lapped : current.Lapped) (nextLapped : next.Lapped) :
    Segment.join capacity before current (next :: after) =
      .join capacity (before ++ [current]) next.reopen after := by
  simp [Segment.join, Segment.reopen, lapped.1, lapped.contents, nextLapped.contents]

/-- Going back to the first segment begins the next lap of the ring. -/
theorem join_first {first : Segment α} {rest : List (Segment α)}
    (split : before ++ [current] = first :: rest) (lapped : current.Lapped)
    (firstLapped : first.Lapped) :
    (Segment.join capacity before current []).reopen =
      .join capacity [] first.reopen rest := by
  have row : before.flatMap Segment.contents ++ current.newer =
      first.newer ++ rest.flatMap Segment.contents := by
    calc before.flatMap Segment.contents ++ current.newer
        = (before ++ [current]).flatMap Segment.contents := by simp [lapped.contents]
      _ = first.newer ++ rest.flatMap Segment.contents := by
          rw [split, List.flatMap_cons, firstLapped.contents]
  simp [Segment.join, Segment.reopen, row]

end Join

end Spoor.Lib.RingWindow
