import Mathlib.Data.List.Nodup

/-! # Intervals that tile an interval

Spans with an offset and a length follow each other if each begins where the one
before it ends.  Then they are disjoint, and together they cover what is between the
beginning of the first and the end of the last.
-/

namespace Spoor.Lib.Tiling

structure Span where
  offset : Nat
  length : Nat
  deriving Repr, DecidableEq

namespace Span

def positions (span : Span) : List Nat := List.range' span.offset span.length

/-- What a span of a memory holds. -/
def read {α : Type*} (span : Span) (memory : List α) : List α :=
  (memory.drop span.offset).take span.length

theorem read_replicate {α : Type*} {span : Span} {size : Nat}
    (inside : span.offset + span.length ≤ size) (value : α) :
    span.read (List.replicate size value) = List.replicate span.length value := by
  rw [read, List.drop_replicate, List.take_replicate, Nat.min_eq_left (by omega)]

end Span

/-- The spans follow each other from the start to the stop. -/
def Tiles (start : Nat) : List Span → Nat → Prop
  | [], stop => start = stop
  | span :: spans, stop => span.offset = start ∧ Tiles (start + span.length) spans stop

theorem Tiles.append {start middle stop : Nat} {front back : List Span}
    (left : Tiles start front middle) (right : Tiles middle back stop) :
    Tiles start (front ++ back) stop := by
  induction front generalizing start with
  | nil =>
      obtain rfl := left
      exact right
  | cons span front ih => exact ⟨left.1, ih left.2⟩

/-- The positions of the spans, one span after the other, are those in between. -/
theorem Tiles.flatMap_positions {start stop : Nat} {spans : List Span}
    (tiles : Tiles start spans stop) :
    start ≤ stop ∧ spans.flatMap Span.positions = List.range' start (stop - start) := by
  induction spans generalizing start with
  | nil =>
      obtain rfl := tiles
      simp
  | cons span spans ih =>
      obtain ⟨rfl, rest⟩ := tiles
      obtain ⟨order, positions⟩ := ih rest
      refine ⟨by omega, ?_⟩
      rw [List.flatMap_cons, positions, Span.positions, List.range'_append_1]
      congr 1
      omega

/-- No span reaches out of the interval. -/
theorem Tiles.inside {start stop : Nat} {spans : List Span} (tiles : Tiles start spans stop)
    {span : Span} (listed : span ∈ spans) : span.offset + span.length ≤ stop := by
  induction spans generalizing start with
  | nil => cases listed
  | cons first spans ih =>
      obtain ⟨begins, rest⟩ := tiles
      cases listed with
      | head =>
          rw [begins]
          exact rest.flatMap_positions.1
      | tail _ later => exact ih rest later

theorem Tiles.mem_iff {start stop : Nat} {spans : List Span} (tiles : Tiles start spans stop)
    {position : Nat} :
    (∃ span ∈ spans, position ∈ span.positions) ↔ start ≤ position ∧ position < stop := by
  obtain ⟨order, positions⟩ := tiles.flatMap_positions
  rw [← List.mem_flatMap, positions, List.mem_range'_1]
  omega

theorem Tiles.disjoint {start stop : Nat} {spans : List Span} (tiles : Tiles start spans stop) :
    spans.Pairwise fun left right => left.positions.Disjoint right.positions := by
  have distinct : (spans.flatMap Span.positions).Nodup := by
    rw [tiles.flatMap_positions.2]
    exact List.nodup_range'
  exact (List.nodup_flatMap.mp distinct).2

end Spoor.Lib.Tiling
