/-
Decimal numbers `digits · 10 ^ exponent`, binary numbers `mantissa · 2 ^ exponent`, and the passage between
them and floats.

A float is a sign and a magnitude: not a number, infinite, or a binary number with at most 53 bits. A decimal
becomes the float nearest to it, a tie going to the even mantissa.
-/
namespace RhythmChart

/-- the number `digits · 10 ^ exponent` -/
structure Decimal where
  digits : Nat
  exponent : Int
  deriving DecidableEq, Repr

/-- the number `mantissa · 2 ^ exponent` -/
structure Binary where
  mantissa : Nat
  exponent : Int
  deriving DecidableEq, Repr

/-- a float without its sign -/
inductive Magnitude where
  | notANumber
  | infinite
  | finite (value : Binary)
  deriving DecidableEq, Repr

namespace Magnitude

/-- the exponent of the smallest floats -/
def leastExponent : Int := -1074

/-- the mantissa of a power of two -/
def leastNormal : Nat := Nat.pow 2 52

/-- the magnitude of a float, read off its bits -/
def ofFloat (x : Float) : Magnitude :=
  let bits := x.toBits.toNat
  let fraction := bits % leastNormal
  let field := bits / leastNormal % 2048
  if field = 2047 then if fraction = 0 then infinite else notANumber
  else if field = 0 then finite ⟨fraction, leastExponent⟩
  else finite ⟨leastNormal + fraction, leastExponent + (field - 1 : Nat)⟩

end Magnitude

/-- whether a float carries the sign bit -/
def signBit (x : Float) : Bool := Nat.pow 2 63 ≤ x.toBits.toNat

namespace Decimal

/-- the float nearest to a decimal number -/
def toFloat (d : Decimal) : Float :=
  if 0 ≤ d.exponent then Float.ofScientific d.digits false d.exponent.toNat
  else Float.ofScientific d.digits true (-d.exponent).toNat

/-- drop trailing zeros of the digits; `fuel` bounds their count -/
def trimZeros : Nat → Decimal → Decimal
  | 0, d => d
  | fuel + 1, d =>
    if d.digits ≠ 0 ∧ d.digits % 10 = 0 then trimZeros fuel ⟨d.digits / 10, d.exponent + 1⟩ else d

end Decimal

end RhythmChart
