/-
JSON values, and their text.

The text of a value has no blanks between its tokens. Inside a string only quotes, backslashes and the controls
below the space are escaped, and members keep their order. A string read from a text can have escapes that name no
character; such a value holds none, and nothing but skipping it succeeds.
-/
import RhythmChart.Decimal.Layout

namespace RhythmChart.Json

/-- a JSON value; a string or a key is none when its escapes name no character -/
inductive Value where
  | null
  | bool (b : Bool)
  | number (n : Numeral)
  | string (s : Option (List Char))
  | array (elements : List Value)
  | object (members : List (Option (List Char) × Value))

/-- whole numbers get the place `.0`, and exponents below -5 or from 16 on are written; a tie goes to the even digit -/
def layout : Layout where
  tie := .even
  positional := fun leading => -5 ≤ leading && leading < 16
  wholePlaces := ['0']
  notANumber := "null".toList
  infinity := fun _ => "null".toList

namespace Value

/-- a text -/
def text (s : String) : Value := string (some s.toList)

/-- a float; a float without digits is null -/
def float (x : Float) : Value :=
  match layout.numeral? x with
  | some n => number n
  | none => null

/-- an integer -/
def integer (i : Int) : Value := number ⟨i < 0, Text.digitsOf i.natAbs, [], []⟩

/-- a natural number -/
def natural (n : Nat) : Value := integer n

/-- an object with the given members -/
def record (members : List (String × Value)) : Value := object (members.map fun (k, v) => (some k.toList, v))

end Value

/-! ## Text -/

/-- a hexadecimal digit -/
def hexChar (n : Nat) : Char := if n < 10 then Text.digitChar n else Char.ofNat (87 + n)

/-- a character inside quotes -/
def escape (c : Char) : List Char :=
  if c = '"' then ['\\', '"']
  else if c = '\\' then ['\\', '\\']
  else if c = '\x08' then ['\\', 'b']
  else if c = '\x0c' then ['\\', 'f']
  else if c = '\n' then ['\\', 'n']
  else if c = '\r' then ['\\', 'r']
  else if c = '\t' then ['\\', 't']
  else if c.toNat < 32 then ['\\', 'u', '0', '0', hexChar (c.toNat / 16), hexChar (c.toNat % 16)]
  else [c]

/-- a text in quotes -/
def quote (s : List Char) : List Char := '"' :: s.flatMap escape ++ ['"']

mutual

/-- the text of a value -/
def Value.render : Value → List Char
  | .null => "null".toList
  | .bool b => if b then "true".toList else "false".toList
  | .number n => n.text
  | .string s => quote (s.getD [])
  | .array elements => '[' :: renderElements elements ++ [']']
  | .object members => '\x7b' :: renderMembers members ++ ['\x7d']

/-- the elements of an array with commas between them -/
def renderElements : List Value → List Char
  | [] => []
  | [v] => v.render
  | v :: w :: rest => v.render ++ ',' :: renderElements (w :: rest)

/-- the members of an object with commas between them -/
def renderMembers : List (Option (List Char) × Value) → List Char
  | [] => []
  | [(k, v)] => quote (k.getD []) ++ ':' :: v.render
  | (k, v) :: m :: rest => quote (k.getD []) ++ ':' :: v.render ++ ',' :: renderMembers (m :: rest)

end

end RhythmChart.Json
