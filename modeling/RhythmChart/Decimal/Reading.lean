/-
Reading a float from a text.

A number is an optional sign and then either one of the words `nan`, `inf` and `infinity` in any case, or digits
with an optional point, at least one digit in all, and an optional exponent with at least one digit. Nothing
else may stand before or behind it. The value is the float nearest to the number; too large a number is infinite.
-/
import RhythmChart.Text.Integer
import RhythmChart.Decimal.Basic

namespace RhythmChart.Decimal

/-- the exponent part: nothing, or `e` with an optional sign and digits -/
def readExponent : List Char → Option Int
  | [] => some 0
  | c :: rest =>
    if c = 'e' ∨ c = 'E' then
      match rest with
      | '+' :: digits => (Text.readDigits digits).map Int.ofNat
      | '-' :: digits => (Text.readDigits digits).map fun n => -Int.ofNat n
      | digits => (Text.readDigits digits).map Int.ofNat
    else none

/-- digits with an optional point and an optional exponent -/
def readUnsigned (cs : List Char) : Option Decimal :=
  let whole := cs.takeWhile Text.isDigit
  let rest := cs.dropWhile Text.isDigit
  let places := match rest with
    | '.' :: after => after.takeWhile Text.isDigit
    | _ => []
  let tail := match rest with
    | '.' :: after => after.dropWhile Text.isDigit
    | _ => rest
  if whole.isEmpty && places.isEmpty then none
  else (readExponent tail).map fun e => ⟨Text.digitsValue (whole ++ places), e - places.length⟩

/-- the values that are written as words -/
def readWord (cs : List Char) : Option Float :=
  let word := cs.map Char.toLower
  if word = "nan".toList then some (0.0 / 0.0)
  else if word = "inf".toList ∨ word = "infinity".toList then some (1.0 / 0.0)
  else none

/-- a float without its sign -/
def readMagnitude (cs : List Char) : Option Float :=
  match readUnsigned cs with
  | some d => some d.toFloat
  | none => readWord cs

/-- a float with an optional sign -/
def readFloat (cs : List Char) : Option Float :=
  match cs with
  | '+' :: rest => readMagnitude rest
  | '-' :: rest => (readMagnitude rest).map fun x => -x
  | _ => readMagnitude cs

end RhythmChart.Decimal
