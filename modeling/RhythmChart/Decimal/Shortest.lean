/-
The shortest decimal that reads back as a given float.

The reals that round to a positive float form an interval around it, whose ends belong to it exactly when the
mantissa is even. On the grids of one digit, of two digits and so on the two neighbours of the value are tried;
the first grid with a neighbour inside the interval gives the answer, and of two neighbours inside it the nearer
one. What happens when they are equally near is left to the caller.
-/
import RhythmChart.Text.Integer
import RhythmChart.Decimal.Basic

namespace RhythmChart

/-- which of two equally near neighbours is taken -/
inductive Tie where
  /-- the one with the even last digit -/
  | even
  /-- the larger one -/
  | up
  deriving DecidableEq, Repr

namespace Binary

/-- a binary number in quarters of its last place over the grid `10 ^ grid`: the fraction `quarter.1 / quarter.2` -/
def quarter (b : Binary) (grid : Int) : Nat × Nat :=
  (Nat.pow 2 (b.exponent - 2).toNat * Nat.pow 10 (-grid).toNat,
    Nat.pow 2 (2 - b.exponent).toNat * Nat.pow 10 grid.toNat)

/-- quarters of the last place down to the lower end of the interval: one where the next smaller float is nearer -/
def reachDown (b : Binary) : Nat :=
  if b.mantissa = Magnitude.leastNormal ∧ b.exponent ≠ Magnitude.leastExponent then 1 else 2

/-- whether `n · 10 ^ grid` rounds to `b` -/
def covers (b : Binary) (grid : Int) (n : Nat) : Bool :=
  let (unit, one) := b.quarter grid
  let low := (4 * b.mantissa - b.reachDown) * unit
  let high := (4 * b.mantissa + 2) * unit
  if b.mantissa % 2 = 0 then low ≤ n * one && n * one ≤ high else low < n * one && n * one < high

/-- the neighbour of `b` on a grid that rounds to `b`, the nearer one of two -/
def onGrid (tie : Tie) (b : Binary) (grid : Int) : Option Nat :=
  let (unit, one) := b.quarter grid
  let value := 4 * b.mantissa * unit
  let below := value / one
  let above := below + 1
  let rest := 2 * (value % one)
  match b.covers grid below, b.covers grid above with
  | false, false => none
  | true, false => some below
  | false, true => some above
  | true, true =>
    if rest < one then some below
    else if one < rest then some above
    else match tie with
      | .even => some (if below % 2 = 0 then below else above)
      | .up => some above

/-- the exponent of the leading decimal digit of a positive number -/
def leading (b : Binary) : Int :=
  let num := b.mantissa * Nat.pow 2 b.exponent.toNat
  let den := Nat.pow 2 (-b.exponent).toNat
  if den ≤ num then ((Text.digitsOf (num / den)).length : Int) - 1
  else -((Text.digitsOf ((den - 1) / num)).length : Int)

/-- the first of `fuel` grids, from `grid` to finer ones, with a neighbour that rounds to `b` -/
def shortestFrom (tie : Tie) (b : Binary) : Nat → Int → Decimal
  | 0, grid => ⟨b.mantissa, grid⟩
  | fuel + 1, grid =>
    match b.onGrid tie grid with
    | some n => Decimal.trimZeros 1 ⟨n, grid⟩
    | none => shortestFrom tie b fuel (grid - 1)

/-- the shortest decimal that rounds to `b`; seventeen digits always suffice -/
def shortest (tie : Tie) (b : Binary) : Decimal :=
  if b.mantissa = 0 then ⟨0, 0⟩ else shortestFrom tie b 17 b.leading

end Binary

end RhythmChart
