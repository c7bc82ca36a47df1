/-
Reading JSON.

`Value.read?` accepts a text that is one value with blanks around its tokens; the blanks are the space, the tab, the
line feed and the carriage return. A string holds no control below the space, and a pair of surrogate escapes is one
character; an unpaired one leaves the string without a text. Each reading step takes the characters that are left
and gives those after it.
-/
import RhythmChart.Json.Value

namespace RhythmChart.Json

/-- whether a character may stand between tokens -/
def isGap (c : Char) : Bool := c = ' ' || c = '\n' || c = '\t' || c = '\r'

/-- the characters after the blanks in front -/
def skipGap (cs : List Char) : List Char := cs.dropWhile isGap

/-- the characters after a word that must stand in front -/
def skipWord? (word cs : List Char) : Option (List Char) :=
  match word, cs with
  | [], cs => some cs
  | w :: word, c :: cs => if w = c then skipWord? word cs else none
  | _ :: _, [] => none

/-! ## Numbers -/

/-- an exponent with its letter, or nothing if none stands in front -/
def readExponent? (cs : List Char) : Option (List Char × List Char) :=
  match cs with
  | c :: rest =>
    if c = 'e' ∨ c = 'E' then
      let (sign, digits) := match rest with
        | '+' :: more => (['+'], more)
        | '-' :: more => (['-'], more)
        | more => ([], more)
      let count := digits.takeWhile Text.isDigit
      if count.isEmpty then none else some (c :: sign ++ count, digits.dropWhile Text.isDigit)
    else some ([], cs)
  | [] => some ([], [])

/-- the places after a point, or nothing if no point stands in front -/
def readPlaces? (cs : List Char) : Option (List Char × List Char) :=
  match cs with
  | '.' :: rest =>
    let places := rest.takeWhile Text.isDigit
    if places.isEmpty then none else some (places, rest.dropWhile Text.isDigit)
  | _ => some ([], cs)

/-- a number; a whole part of several digits does not start with zero -/
def readNumeral? (cs : List Char) : Option (Numeral × List Char) :=
  let (negative, cs) := match cs with
    | '-' :: rest => (true, rest)
    | _ => (false, cs)
  let whole := cs.takeWhile Text.isDigit
  if whole.isEmpty || (whole.length > 1 && whole.head? = some '0') then none
  else do
    let (places, cs) ← readPlaces? (cs.dropWhile Text.isDigit)
    let (exponent, cs) ← readExponent? cs
    return (⟨negative, whole, places, exponent⟩, cs)

/-! ## Strings -/

/-- the value of a hexadecimal digit -/
def hexValue? (c : Char) : Option Nat :=
  if Text.isDigit c then some (c.toNat - 48)
  else if 97 ≤ c.toNat ∧ c.toNat ≤ 102 then some (c.toNat - 87)
  else if 65 ≤ c.toNat ∧ c.toNat ≤ 70 then some (c.toNat - 55)
  else none

/-- the unit that four hexadecimal digits name -/
def readUnit? : List Char → Option (Nat × List Char)
  | a :: b :: c :: d :: rest => do
    let a ← hexValue? a
    let b ← hexValue? b
    let c ← hexValue? c
    let d ← hexValue? d
    return (((a * 16 + b) * 16 + c) * 16 + d, rest)
  | _ => none

/-- the characters that a letter after a backslash stands for -/
def shortEscape? (c : Char) : Option Char :=
  if c = '"' ∨ c = '\\' ∨ c = '/' then some c
  else if c = 'b' then some '\x08'
  else if c = 'f' then some '\x0c'
  else if c = 'n' then some '\n'
  else if c = 'r' then some '\r'
  else if c = 't' then some '\t'
  else none

/-- one piece of a string: a code point, or a unit written by an escape -/
inductive Piece where
  | char (c : Char)
  | unit (n : Nat)

/-- whether a unit is the first, or the second, of a surrogate pair -/
def isHigh (n : Nat) : Bool := 0xD800 ≤ n && n ≤ 0xDBFF
def isLow (n : Nat) : Bool := 0xDC00 ≤ n && n ≤ 0xDFFF

/-- the text of pieces; none with an unpaired surrogate -/
def joinPieces : List Piece → Option (List Char)
  | [] => some []
  | .char c :: rest => (joinPieces rest).map (c :: ·)
  | .unit high :: .unit low :: rest =>
    if isHigh high then
      if isLow low then
        (joinPieces rest).map (Char.ofNat (0x10000 + (high - 0xD800) * 0x400 + (low - 0xDC00)) :: ·)
      else none
    else if isLow high then none
    else (joinPieces (.unit low :: rest)).map (Char.ofNat high :: ·)
  | .unit n :: rest => if isHigh n || isLow n then none else (joinPieces rest).map (Char.ofNat n :: ·)

/-- the pieces of a string up to its closing quote; `fuel` bounds their count -/
def readPieces? : Nat → List Char → Option (List Piece × List Char)
  | 0, _ => none
  | fuel + 1, cs =>
    match cs with
    | [] => none
    | '"' :: rest => some ([], rest)
    | '\\' :: 'u' :: rest => do
      let (n, rest) ← readUnit? rest
      let (pieces, rest) ← readPieces? fuel rest
      return (.unit n :: pieces, rest)
    | '\\' :: c :: rest => do
      let c ← shortEscape? c
      let (pieces, rest) ← readPieces? fuel rest
      return (.char c :: pieces, rest)
    | c :: rest =>
      if c.toNat < 32 then none
      else do
        let (pieces, rest) ← readPieces? fuel rest
        return (.char c :: pieces, rest)

/-- a string after its opening quote, of fewer than `fuel` pieces -/
def readString? (fuel : Nat) (cs : List Char) : Option (Option (List Char) × List Char) :=
  (readPieces? fuel cs).map fun (pieces, rest) => (joinPieces pieces, rest)

/-! ## Values -/

mutual

/-- a value; `fuel` bounds the tokens, and the pieces of each string -/
def readValue? : Nat → List Char → Option (Value × List Char)
  | 0, _ => none
  | fuel + 1, cs =>
    match skipGap cs with
    | 'n' :: rest => (skipWord? "ull".toList rest).map fun rest => (.null, rest)
    | 't' :: rest => (skipWord? "rue".toList rest).map fun rest => (.bool true, rest)
    | 'f' :: rest => (skipWord? "alse".toList rest).map fun rest => (.bool false, rest)
    | '"' :: rest => (readString? fuel rest).map fun (s, rest) => (.string s, rest)
    | '[' :: rest =>
      match skipGap rest with
      | ']' :: rest => some (.array [], rest)
      | rest => (readElements? fuel rest).map fun (vs, rest) => (.array vs, rest)
    | '\x7b' :: rest =>
      match skipGap rest with
      | '\x7d' :: rest => some (.object [], rest)
      | rest => (readMembers? fuel rest).map fun (ms, rest) => (.object ms, rest)
    | rest => (readNumeral? rest).map fun (n, rest) => (.number n, rest)

/-- the elements of an array up to its closing bracket, of which there is at least one -/
def readElements? : Nat → List Char → Option (List Value × List Char)
  | 0, _ => none
  | fuel + 1, cs =>
    match readValue? fuel cs with
    | none => none
    | some (v, rest) =>
      match skipGap rest with
      | ']' :: rest => some ([v], rest)
      | ',' :: rest => (readElements? fuel rest).map fun (vs, rest) => (v :: vs, rest)
      | _ => none

/-- the members of an object up to its closing brace, of which there is at least one -/
def readMembers? : Nat → List Char → Option (List (Option (List Char) × Value) × List Char)
  | 0, _ => none
  | fuel + 1, cs =>
    match skipGap cs with
    | '"' :: rest =>
      match readString? fuel rest with
      | none => none
      | some (k, rest) =>
        match skipGap rest with
        | ':' :: rest =>
          match readValue? fuel rest with
          | none => none
          | some (v, rest) =>
            match skipGap rest with
            | '\x7d' :: rest => some ([(k, v)], rest)
            | ',' :: rest => (readMembers? fuel rest).map fun (ms, rest) => ((k, v) :: ms, rest)
            | _ => none
        | _ => none
    | _ => none

end

/-- the value that a text is -/
def Value.read? (cs : List Char) : Option Value :=
  match readValue? (2 * cs.length + 2) cs with
  | some (v, rest) => if (skipGap rest).isEmpty then some v else none
  | none => none

end RhythmChart.Json
