/-
The text of a float: shortest digits, laid out by a record of the writer's choices.

A numeral is the written form of a number: digits before and after a point, and perhaps an exponent. A layout says
which decimal exponents are written positionally, which places a whole number gets, how a tie between two shortest
decimals goes, and how the values without digits are written. A numeral with an exponent has one digit in front of
the point, and its exponent is signed.
-/
import RhythmChart.Decimal.Shortest

namespace RhythmChart

/-- a number as it is written -/
structure Numeral where
  negative : Bool
  /-- the digits before the point -/
  whole : List Char
  /-- the digits after the point; there is no point without them -/
  places : List Char
  /-- the exponent with its letter, or nothing -/
  exponent : List Char
  deriving DecidableEq, Repr

namespace Numeral

/-- the text of a numeral -/
def text (n : Numeral) : List Char :=
  (if n.negative then ['-'] else []) ++ n.whole ++ (if n.places.isEmpty then [] else '.' :: n.places) ++ n.exponent

end Numeral

/-- how one kind of output writes floats -/
structure Layout where
  tie : Tie
  /-- whether a number whose leading digit has this exponent is written without an exponent -/
  positional : Int → Bool
  /-- the places of a whole number -/
  wholePlaces : List Char
  notANumber : List Char
  infinity : (negative : Bool) → List Char

namespace Layout

/-- digits around a point -/
def positionalNumeral (l : Layout) (negative : Bool) (digits : List Char) (exponent : Int) : Numeral :=
  if 0 ≤ exponent then ⟨negative, digits ++ List.replicate exponent.toNat '0', l.wholePlaces, []⟩
  else
    let places := (-exponent).toNat
    if places < digits.length then
      ⟨negative, digits.take (digits.length - places), digits.drop (digits.length - places), []⟩
    else ⟨negative, ['0'], List.replicate (places - digits.length) '0' ++ digits, []⟩

/-- one digit, a point if more follow, and a signed exponent -/
def exponentNumeral (negative : Bool) (digits : List Char) (leading : Int) : Numeral :=
  let sign := if leading < 0 then '-' else '+'
  ⟨negative, digits.take 1, digits.drop 1, 'e' :: sign :: Text.digitsOf leading.natAbs⟩

/-- the numeral of a decimal -/
def numeral (l : Layout) (negative : Bool) (d : Decimal) : Numeral :=
  let digits := Text.digitsOf d.digits
  let leading := d.exponent + digits.length - 1
  if l.positional leading then l.positionalNumeral negative digits d.exponent
  else exponentNumeral negative digits leading

/-- the numeral of a float; none for the values without digits -/
def numeral? (l : Layout) (x : Float) : Option Numeral :=
  match Magnitude.ofFloat x with
  | .finite b => some (l.numeral (signBit x) (b.shortest l.tie))
  | _ => none

/-- the text of a float -/
def text (l : Layout) (x : Float) : List Char :=
  match l.numeral? x with
  | some n => n.text
  | none => if Magnitude.ofFloat x = .infinite then l.infinity (signBit x) else l.notANumber

/-- Numbers in messages and in arguments never have an exponent, and whole ones no point; a tie goes up. -/
def plain : Layout where
  tie := .up
  positional := fun _ => true
  wholePlaces := []
  notANumber := "NaN".toList
  infinity := fun negative => if negative then "-inf".toList else "inf".toList

end Layout

end RhythmChart
