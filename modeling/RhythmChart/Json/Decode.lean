/-
Taking JSON values apart.

An integer field takes a number without point and exponent that lies in its range; minus zero is not an integer. A
float field takes every number that is not too large. A record is an object that has each of its keys at most once,
whatever other keys it has, or the array of its fields. A choice is its name, or an object whose only member has
that name and null.

A float is read quickly rather than exactly: its significand is taken as far as it fits into 64 bits, and is then
scaled by one power of ten (`Numeral.scaled?`). The result is the nearest float for up to fifteen digits and small
exponents, and can be off in the last place beyond.
-/
import RhythmChart.Json.Reading

namespace RhythmChart

namespace Numeral

/-- whether the numeral has neither point nor exponent -/
def isWhole (n : Numeral) : Bool := n.places.isEmpty && n.exponent.isEmpty

/-- the integer a numeral writes; `-0` is none -/
def integer? (n : Numeral) : Option Int :=
  if n.isWhole then
    let value := Text.digitsValue n.whole
    if n.negative then if value = 0 then none else some (-value) else some value
  else none

/-- the digits that fit into 64 bits, from the front, and those after them -/
def takeFitting (value : Nat) : List Char → Nat × List Char
  | [] => (value, [])
  | c :: rest =>
    let next := 10 * value + Text.digitValue c
    if next ≤ Text.most64 then takeFitting next rest else (value, c :: rest)

/-- the significand as far as it fits into 64 bits, and the power of ten that belongs to it -/
def significand (n : Numeral) : Nat × Int :=
  let (whole, overflow) := takeFitting 0 n.whole
  let (value, left) := takeFitting whole n.places
  (value, (overflow.length : Int) - (n.places.length - left.length : Nat))

/-- the exponent a numeral shows -/
def shownExponent (n : Numeral) : Int :=
  match n.exponent with
  | _ :: '-' :: digits => -Text.digitsValue digits
  | _ :: '+' :: digits => Text.digitsValue digits
  | _ :: digits => Text.digitsValue digits
  | [] => 0

/-- the power of ten nearest to it, up to the largest that is finite -/
def powerOfTen (e : Nat) : Float := Float.ofScientific 1 false e

/-- `x · 10 ^ exponent`; none when it is too large. A small number is divided in steps, of which three reach zero -/
def scaled? : Nat → Float → Int → Option Float
  | 0, _, _ => none
  | fuel + 1, x, exponent =>
    if exponent.natAbs ≤ 308 then
      if 0 ≤ exponent then
        let y := x * powerOfTen exponent.natAbs
        if y.isInf then none else some y
      else some (x / powerOfTen exponent.natAbs)
    else if x == 0 then some x
    else if 0 ≤ exponent then none
    else scaled? fuel (x / powerOfTen 308) (exponent + 308)

/-- the float a numeral is read as; none when it is too large -/
def float? (n : Numeral) : Option Float :=
  let (value, places) := n.significand
  let x := Float.ofScientific value false 0
  (if n.isWhole && places = 0 then some x else scaled? 4 x (places + n.shownExponent)).map fun y =>
    if n.negative then -y else y

end Numeral

namespace Json.Value

/-- the text of a string value -/
def text? : Value → Option String
  | string (some s) => some (.ofList s)
  | _ => none

/-- the float of a number value -/
def float? : Value → Option Float
  | number n => n.float?
  | _ => none

/-- the integer of a number value -/
def integer? : Value → Option Int
  | number n => n.integer?
  | _ => none

/-- a natural number below a bound -/
def below? (bound : Nat) (v : Value) : Option Nat :=
  match v.integer? with
  | some (.ofNat n) => if n < bound then some n else none
  | _ => none

/-- an integer of eight bits without sign -/
def byte? (v : Value) : Option UInt8 := (v.below? 256).map UInt8.ofNat

/-- an integer of 32 bits without sign -/
def word? (v : Value) : Option UInt32 := (v.below? 4294967296).map UInt32.ofNat

/-- an integer of 32 bits with sign -/
def int? (v : Value) : Option Int32 :=
  match v.integer? with
  | some i => if -2147483648 ≤ i ∧ i ≤ 2147483647 then some (Int32.ofInt i) else none
  | none => none

/-- the values of all elements -/
def list? {α : Type} (element? : Value → Option α) : Value → Option (List α)
  | array vs => vs.mapM element?
  | _ => none

/-- a value that may be null -/
def nullable? {α : Type} (value? : Value → Option α) : Value → Option (Option α)
  | null => some none
  | v => (value? v).map some

/-- the choice with a name -/
def choice? {α : Type} (ofName? : String → Option α) : Value → Option α
  | string (some s) => ofName? (.ofList s)
  | object [(some s, null)] => ofName? (.ofList s)
  | _ => none

/-- how often a key stands in an object -/
def occurrences (key : String) (members : List (Option (List Char) × Value)) : Nat :=
  members.countP (·.1 = some key.toList)

/-- the values of the keys of a record, where they are present -/
def fields? (keys : List String) : Value → Option (List (Option Value))
  | object members =>
    if members.all (·.1.isSome) && keys.all (occurrences · members ≤ 1) then
      some (keys.map fun key => members.lookup (some key.toList))
    else none
  | array vs => if vs.length = keys.length then some (vs.map some) else none
  | _ => none

end Json.Value

end RhythmChart
