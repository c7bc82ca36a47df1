/-
The playfield: four columns by three rows of cells, the colors of what is placed on it, and cut directions.

A position is a cell in one of the two note colors. The positions are numbered red before blue, row by row from
the bottom and column by column from the left; `Position.ofIndex` and `Position.index?` are inverse to each other
on those twenty-four numbers.
-/
namespace RhythmChart

/-- what a note looks like; a bomb is placed like a note -/
inductive Color where
  | red | blue | bomb
  deriving DecidableEq, Repr

/-- the direction in which a note has to be cut -/
inductive Direction where
  | up | down | left | right | upLeft | upRight | downLeft | downRight | any
  deriving DecidableEq, Repr

namespace Direction

/-- every direction, in ordinal order -/
def all : List Direction := [up, down, left, right, upLeft, upRight, downLeft, downRight, any]

/-- the place of a direction in `all` -/
def ordinal : Direction → Nat
  | up => 0
  | down => 1
  | left => 2
  | right => 3
  | upLeft => 4
  | upRight => 5
  | downLeft => 6
  | downRight => 7
  | any => 8

/-- the direction at a place -/
def ofOrdinal? (n : Nat) : Option Direction := all[n]?

theorem ordinal_lt (d : Direction) : d.ordinal < 9 := by cases d <;> decide

theorem ofOrdinal?_eq_some_iff {n : Nat} {d : Direction} : ofOrdinal? n = some d ↔ n = d.ordinal := by
  constructor
  · intro h
    have hn : n < 9 := by
      rcases List.getElem?_eq_some_iff.1 h with ⟨hn, _⟩
      exact hn
    revert h
    have : ∀ i < 9, ofOrdinal? i = some d → i = d.ordinal := by cases d <;> decide
    exact this n hn
  · rintro rfl
    cases d <;> rfl

end Direction

/-- number of columns -/
def columns : Nat := 4

/-- number of rows -/
def rows : Nat := 3

/-- number of cells -/
def cells : Nat := columns * rows

/-- a cell of the playfield in a color; `x` is the column from the left and `y` the row from the bottom -/
structure Position where
  color : Color
  x : UInt8
  y : UInt8
  deriving DecidableEq, Repr

namespace Position

/-- the number of a position; none for a bomb and off the playfield -/
def index? (p : Position) : Option Nat :=
  if p.x.toNat < columns ∧ p.y.toNat < rows then
    match p.color with
    | .red => some (p.y.toNat * columns + p.x.toNat)
    | .blue => some (cells + p.y.toNat * columns + p.x.toNat)
    | .bomb => none
  else none

/-- the position with a number -/
def ofIndex (i : Nat) : Position where
  color := if i / cells = 0 then .red else .blue
  x := .ofNat (i % columns)
  y := .ofNat (i / columns % rows)

theorem index?_ofIndex {i : Nat} (h : i < 2 * cells) : (ofIndex i).index? = some i := by
  have : ∀ i < 24, (ofIndex i).index? = some i := by decide
  exact this i h

/-- the number of a cell, counted from the first cell of its color -/
theorem ofIndex_cell {block x y : Nat} (hx : x < columns) (hy : y < rows) :
    ofIndex (cells * block + y * columns + x) = ⟨if block = 0 then .red else .blue, .ofNat x, .ofNat y⟩ := by
  unfold columns at hx
  unfold rows at hy
  have hblock : (4 * 3 * block + y * 4 + x) / (4 * 3) = block := by omega
  have hcolumn : (4 * 3 * block + y * 4 + x) % 4 = x := by omega
  have hrow : (4 * 3 * block + y * 4 + x) / 4 % 3 = y := by omega
  simp only [ofIndex, columns, rows, cells, hblock, hcolumn, hrow]

theorem ofIndex_of_index? {p : Position} {i : Nat} (h : p.index? = some i) : ofIndex i = p := by
  obtain ⟨color, x, y⟩ := p
  unfold index? at h
  split at h
  · rename_i hin
    cases color with
    | red =>
      have hi : cells * 0 + y.toNat * columns + x.toNat = i := by simpa using h
      rw [← hi, ofIndex_cell hin.1 hin.2]
      simp
    | blue =>
      have hi : cells * 1 + y.toNat * columns + x.toNat = i := by simpa using h
      rw [← hi, ofIndex_cell hin.1 hin.2]
      simp
    | bomb => cases h
  · cases h

theorem index?_isSome_iff {p : Position} :
    p.index?.isSome ↔ (p.x.toNat < columns ∧ p.y.toNat < rows) ∧ p.color ≠ .bomb := by
  unfold index?
  split
  · rename_i hin
    cases hcolor : p.color <;> simp [hin]
  · rename_i hout
    simp [hout]

theorem index?_lt {p : Position} {i : Nat} (h : p.index? = some i) : i < 2 * cells := by
  unfold index? at h
  split at h
  · rename_i hin
    split at h <;> simp only [Option.some.injEq, reduceCtorEq] at h <;> simp only [columns, rows, cells] at * <;> omega
  · simp at h

end Position

end RhythmChart
