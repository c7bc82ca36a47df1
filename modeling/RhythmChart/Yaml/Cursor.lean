/-
Places in the text of a YAML document, and the characters that have a meaning there.

Lines and columns count characters, offsets count bytes. A carriage return with a line feed behind it is one line end.
What stands between tokens is passed over by `skipGap`: blanks, comments, line ends, and a byte order mark at the
start of a line, which takes a column of that line.
-/
namespace RhythmChart.Yaml

/-! ## Characters -/

/-- whether a character may stand in a document -/
def isAllowed (c : Char) : Bool :=
  let n := c.toNat
  n = 0x09 || n = 0x0A || n = 0x0D || (0x20 ≤ n && n ≤ 0x7E) || n = 0x85 || (0xA0 ≤ n && n ≤ 0xFFFD) || 0x10000 ≤ n

/-- blanks within a line -/
def isSpace (c : Char) : Bool := c = ' ' || c = '\t'

/-- line ends -/
def isBreak (c : Char) : Bool := c = '\n' || c = '\r' || c = '\x85' || c = '\u2028' || c = '\u2029'

/-- whether a text begins with a blank or a line end, or is empty -/
def startsGap : List Char → Bool
  | [] => true
  | c :: _ => isSpace c || isBreak c

/-- whether a text begins with one of these characters -/
def startsWith (marks : String) : List Char → Bool
  | [] => false
  | c :: _ => marks.toList.contains c

/-- whether a document marker made of `mark` stands in front -/
def startsMark (mark : Char) : List Char → Bool
  | a :: b :: c :: rest => a = mark && b = mark && c = mark && startsGap rest
  | _ => false

/-- the line end as it counts in a scalar -/
def breakChar (c : Char) : Char := if c = '\u2028' ∨ c = '\u2029' then c else '\n'

/-! ## Places -/

structure Spot where
  line : Nat
  column : Nat
  offset : Nat
  deriving DecidableEq, Repr

namespace Spot

/-- the start of a text -/
def start : Spot := ⟨0, 0, 0⟩

/-- behind a character that ends no line -/
def pass (s : Spot) (c : Char) : Spot := ⟨s.line, s.column + 1, s.offset + c.utf8Size⟩

/-- behind a line end of this many bytes -/
def wrap (s : Spot) (size : Nat) : Spot := ⟨s.line + 1, 0, s.offset + size⟩

end Spot

/-- a place in a text, and the text from there on -/
structure Cursor where
  rest : List Char
  spot : Spot
  deriving DecidableEq, Repr

namespace Cursor

def column (c : Cursor) : Nat := c.spot.column

/-- behind `n` characters of the same line -/
def skip (c : Cursor) (n : Nat) : Cursor := ⟨c.rest.drop n, (c.rest.take n).foldl Spot.pass c.spot⟩

/-- the characters of the same line up to one without a property, and the cursor behind them -/
def span (p : Char → Bool) (c : Cursor) : List Char × Cursor :=
  let word := c.rest.takeWhile p
  (word, c.skip word.length)

/-- behind a line end, if one stands here -/
def skipBreak (c : Cursor) : Cursor :=
  match c.rest with
  | '\r' :: '\n' :: rest => ⟨rest, c.spot.wrap 2⟩
  | d :: rest => if isBreak d then ⟨rest, c.spot.wrap d.utf8Size⟩ else c
  | [] => c

/-- whether a document marker stands at the left margin -/
def atMarker (c : Cursor) : Bool := c.column = 0 && (startsMark '-' c.rest || startsMark '.' c.rest)

/-- whether a character stands here with a gap behind it -/
def atIndicator (c : Cursor) (mark : Char) : Bool :=
  match c.rest with
  | d :: rest => d = mark && startsGap rest
  | [] => false

/-- the next line, if nothing but blanks and a comment are left of this one -/
def skipLine? (c : Cursor) : Option Cursor :=
  let c := (c.span isSpace).2
  let c := if c.rest.head? = some '#' then (c.span (!isBreak ·)).2 else c
  if c.rest.head?.all isBreak then some c.skipBreak else none

/-- the next token; outside brackets a block may begin after a line end, and no tab may stand where one may begin -/
def skipGap (flow : Bool) : (comment fresh : Bool) → List Char → Spot → Cursor × Bool
  | _, fresh, [], s => (⟨[], s⟩, fresh)
  | _, fresh, '\r' :: '\n' :: rest, s => skipGap flow false (fresh || !flow) rest (s.wrap 2)
  | comment, fresh, c :: rest, s =>
    if isBreak c then skipGap flow false (fresh || !flow) rest (s.wrap c.utf8Size)
    else if comment then skipGap flow true fresh rest (s.pass c)
    else if c = ' ' ∨ (c = '\t' ∧ (flow || !fresh)) ∨ (c = '\ufeff' ∧ s.column = 0) then
      skipGap flow false fresh rest (s.pass c)
    else if c = '#' then skipGap flow true fresh rest (s.pass c)
    else (⟨c :: rest, s⟩, fresh)

end Cursor

end RhythmChart.Yaml
