/-
Bytes as text when they need not be UTF-8.

What is no encoding of a character is replaced by U+FFFD: one replacement for the longest start of an encoding that
does not go on, and one for a byte that cannot start any. Nothing overlong, no surrogate and nothing beyond U+10FFFF
is an encoding. Bytes that are UTF-8 throughout decode to their characters.
-/
namespace RhythmChart.Text

/-- the bytes that can follow a first byte, and how many more come after that one; none if the byte starts nothing -/
def following? (first : UInt8) : Option (UInt8 × UInt8 × Nat) :=
  if first < 0xC2 then none
  else if first < 0xE0 then some (0x80, 0xBF, 0)
  else if first = 0xE0 then some (0xA0, 0xBF, 1)
  else if first = 0xED then some (0x80, 0x9F, 1)
  else if first < 0xF0 then some (0x80, 0xBF, 1)
  else if first = 0xF0 then some (0x90, 0xBF, 2)
  else if first < 0xF4 then some (0x80, 0xBF, 2)
  else if first = 0xF4 then some (0x80, 0x8F, 2)
  else none

/-- the bits of a first byte that belong to the code point -/
def leadBits (first : UInt8) : Nat :=
  if first < 0xE0 then first.toNat - 0xC0 else if first < 0xF0 then first.toNat - 0xE0 else first.toNat - 0xF0

/-- what a decoder holds between two bytes -/
inductive Pending where
  | nothing
  /-- the code point so far, the range of the next byte, and how many bytes come after it -/
  | code (point : Nat) (least most : UInt8) (more : Nat)

/-- what stands for bytes that encode nothing -/
def replacement : Char := '\uFFFD'

/-- the characters of a byte where a new one starts, and what is held afterwards -/
def startByte (b : UInt8) : List Char × Pending :=
  if b < 0x80 then ([Char.ofNat b.toNat], .nothing)
  else match following? b with
    | some (least, most, more) => ([], .code (leadBits b) least most more)
    | none => ([replacement], .nothing)

/-- the characters of bytes -/
def decodeFrom : Pending → List UInt8 → List Char
  | .nothing, [] => []
  | .code .., [] => [replacement]
  | .nothing, b :: rest =>
    let (cs, held) := startByte b
    cs ++ decodeFrom held rest
  | .code point least most more, b :: rest =>
    if least ≤ b ∧ b ≤ most then
      let point := 64 * point + (b.toNat - 0x80)
      match more with
      | 0 => Char.ofNat point :: decodeFrom .nothing rest
      | more + 1 => decodeFrom (.code point 0x80 0xBF more) rest
    else
      let (cs, held) := startByte b
      replacement :: cs ++ decodeFrom held rest

/-- the text of bytes, with replacements where they are no text -/
def decodeLossy (bytes : ByteArray) : String := .ofList (decodeFrom .nothing bytes.toList)

end RhythmChart.Text
