/-
Scalars of YAML documents.

A scalar is plain, in quotes or a block of lines. Plain and quoted ones may run over several lines: one line end
between words reads as a blank, more of them as one line end less. A plain scalar ends before a comment, before a
colon followed by a gap and, inside brackets, before a bracket or comma; outside brackets it also ends at a line that
is not indented enough. Double quotes take escapes, single quotes double themselves. A block of lines is told by its
indentation; it keeps its line ends, or folds them as the others do except next to lines that begin with a blank.
-/
import RhythmChart.Text.Integer
import RhythmChart.Yaml.Cursor

namespace RhythmChart.Yaml

/-- how a scalar is written -/
inductive Style where
  | plain | quoted | literal | folded
  deriving DecidableEq, Repr

/-! ## Gaps between words -/

/-- what stands between two words of a scalar: blanks, then line ends; the last of each comes first -/
structure Gap where
  blanks : List Char
  breaks : List Char
  /-- whether the first line end was escaped and does not count -/
  escaped : Bool

/-- nothing between two words -/
def Gap.none : Gap := ⟨[], [], false⟩

/-- the characters that a gap stands for -/
def Gap.text (g : Gap) : List Char :=
  let breaks := g.breaks.reverse
  if g.escaped then breaks
  else match breaks with
    | [] => g.blanks.reverse
    | ['\n'] => [' ']
    | '\n' :: more => more
    | breaks => breaks

/-- a gap, and the cursor after it; none if a tab indents a line by less than `least` -/
def readGap (least : Nat) : Gap → List Char → Spot → Option (Gap × Cursor)
  | g, [], s => some (g, ⟨[], s⟩)
  | g, '\r' :: '\n' :: rest, s => readGap least { g with breaks := '\n' :: g.breaks } rest (s.wrap 2)
  | g, c :: rest, s =>
    if isBreak c then readGap least { g with breaks := breakChar c :: g.breaks } rest (s.wrap c.utf8Size)
    else if isSpace c then
      if g.breaks.isEmpty && !g.escaped then readGap least { g with blanks := c :: g.blanks } rest (s.pass c)
      else if c = '\t' ∧ s.column < least then none
      else readGap least g rest (s.pass c)
    else some (g, ⟨c :: rest, s⟩)

/-! ## Plain scalars -/

/-- whether a plain scalar can begin here -/
def startsPlain (flow : Bool) : List Char → Bool
  | [] => false
  | c :: rest =>
    if c = '-' then !startsGap rest
    else if c = '?' ∨ c = ':' then !flow && !startsGap rest
    else !(isSpace c || isBreak c || "[]\x7b\x7d,#&*!|>'\"%@`".toList.contains c)

/-- whether a word of a plain scalar ends here -/
def endsWord (flow : Bool) : List Char → Bool
  | [] => true
  | c :: rest => isSpace c || isBreak c || (c = ':' && startsGap rest) || (flow && "[]\x7b\x7d,".toList.contains c)

/-- whether a colon inside brackets touches a mark; no plain scalar can hold or end with that -/
def clashes (flow : Bool) : List Char → Bool
  | ':' :: rest => flow && startsWith "[]\x7b\x7d,?" rest
  | _ => false

/-- the characters of a word, put before a reversed text -/
def readWord (flow : Bool) : (text : List Char) → List Char → Spot → Option (List Char × Cursor)
  | text, [], s => some (text, ⟨[], s⟩)
  | text, c :: rest, s =>
    if clashes flow (c :: rest) then none
    else if endsWord flow (c :: rest) then some (text, ⟨c :: rest, s⟩)
    else readWord flow (c :: text) rest (s.pass c)

/-- a plain scalar after a reversed text and a gap, and whether it was left at a new line; `fuel` bounds its words -/
def readPlainFrom (flow : Bool) (least : Nat) : Nat → (text : List Char) → Gap → Cursor →
    Option (List Char × Bool × Cursor)
  | 0, _, _, _ => none
  | fuel + 1, text, gap, c =>
    if clashes flow c.rest then none
    else if c.atMarker || c.rest.head? = some '#' || endsWord flow c.rest then
      some (text.reverse, !gap.breaks.isEmpty, c)
    else do
      let (text, c) ← readWord flow (gap.text.reverse ++ text) c.rest c.spot
      if c.rest.isEmpty || !startsGap c.rest then return (text.reverse, false, c)
      let (gap, c) ← readGap least .none c.rest c.spot
      if !flow && c.column < least then return (text.reverse, !gap.breaks.isEmpty, c)
      readPlainFrom flow least fuel text gap c

/-- a plain scalar in a text of at most `size` characters, whose further lines are indented by `least` at least, and
whether it was left at a new line -/
def readPlain (flow : Bool) (least size : Nat) (c : Cursor) : Option (List Char × Bool × Cursor) :=
  readPlainFrom flow least (size + 1) [] .none c

/-! ## Quoted scalars -/

/-- the value of a hexadecimal digit -/
def hexValue? (c : Char) : Option Nat :=
  if Text.isDigit c then some (c.toNat - 48)
  else if 97 ≤ c.toNat ∧ c.toNat ≤ 102 then some (c.toNat - 87)
  else if 65 ≤ c.toNat ∧ c.toNat ≤ 70 then some (c.toNat - 55)
  else none

/-- the character with the code point that `count` hexadecimal digits write -/
def readCode (count : Nat) (cs : List Char) : Option Char := do
  let digits := cs.take count
  if digits.length < count then none
  let values ← digits.mapM hexValue?
  let n := values.foldl (fun n d => 16 * n + d) 0
  if (0xD800 ≤ n ∧ n ≤ 0xDFFF) ∨ 0x10FFFF < n then none
  return Char.ofNat n

/-- the character of an escape after its backslash, and how many characters it takes -/
def readEscape : List Char → Option (Char × Nat)
  | [] => none
  | c :: rest =>
    match c with
    | '0' => some ('\x00', 1)
    | 'a' => some ('\x07', 1)
    | 'b' => some ('\x08', 1)
    | 't' => some ('\t', 1)
    | '\t' => some ('\t', 1)
    | 'n' => some ('\n', 1)
    | 'v' => some ('\x0b', 1)
    | 'f' => some ('\x0c', 1)
    | 'r' => some ('\r', 1)
    | 'e' => some ('\x1b', 1)
    | ' ' => some (' ', 1)
    | '"' => some ('"', 1)
    | '/' => some ('/', 1)
    | '\\' => some ('\\', 1)
    | 'N' => some ('\x85', 1)
    | '_' => some ('\xa0', 1)
    | 'L' => some ('\u2028', 1)
    | 'P' => some ('\u2029', 1)
    | 'x' => (readCode 2 rest).map fun c => (c, 3)
    | 'u' => (readCode 4 rest).map fun c => (c, 5)
    | 'U' => (readCode 8 rest).map fun c => (c, 9)
    | _ => none

/-- a quoted scalar after a reversed text; `fuel` bounds its characters and gaps -/
def readQuotedFrom (double : Bool) : Nat → (text : List Char) → Cursor → Option (List Char × Cursor)
  | 0, _, _ => none
  | fuel + 1, text, c =>
    if c.atMarker then none
    else match c.rest with
      | [] => none
      | d :: rest =>
        if d = (if double then '"' else '\'') then
          if !double && rest.head? = some '\'' then readQuotedFrom double fuel ('\'' :: text) (c.skip 2)
          else some (text.reverse, c.skip 1)
        else if double && d = '\\' then
          if rest.head?.any isBreak then do
            let next := (c.skip 1).skipBreak
            let (gap, next) ← readGap 0 ⟨[], [], true⟩ next.rest next.spot
            readQuotedFrom double fuel (gap.text.reverse ++ text) next
          else do
            let (e, count) ← readEscape rest
            readQuotedFrom double fuel (e :: text) (c.skip (count + 1))
        else if isSpace d || isBreak d then do
          let (gap, next) ← readGap 0 .none c.rest c.spot
          readQuotedFrom double fuel (gap.text.reverse ++ text) next
        else readQuotedFrom double fuel (d :: text) (c.skip 1)

/-- a quoted scalar after its opening quote, in a text of at most `size` characters -/
def readQuoted (double : Bool) (size : Nat) (c : Cursor) : Option (List Char × Cursor) :=
  readQuotedFrom double (size + 1) [] c

/-! ## Blocks of lines -/

/-- which line ends a block of lines keeps behind its last line with text -/
inductive Ends where
  | dropped | one | all
  deriving DecidableEq, Repr

def Ends.ofSign? : Char → Option Ends
  | '+' => some .all
  | '-' => some .dropped
  | _ => none

/-- the indentation that a digit asks for -/
def indentation? (c : Char) : Option Nat := if Text.isDigit c then some (c.toNat - 48) else none

/-- what follows the mark of a block of lines: which line ends it keeps, and how far it is indented, in either order -/
def readHeader (c : Cursor) : Ends × Option Nat × Cursor :=
  match c.rest.head?.bind Ends.ofSign? with
  | some ends =>
    match (c.skip 1).rest.head?.bind indentation? with
    | some n => (ends, some n, c.skip 2)
    | none => (ends, none, c.skip 1)
  | none =>
    match c.rest.head?.bind indentation? with
    | none => (.one, none, c)
    | some n =>
      match (c.skip 1).rest.head?.bind Ends.ofSign? with
      | some ends => (ends, some n, c.skip 2)
      | none => (.one, some n, c.skip 1)

/-- empty lines before a line with text and its indentation: the line ends, the last one first, and the widest
indentation met; `indent` is how far the block is indented, if that is known. None if a tab indents a line -/
def readIndentation (indent : Option Nat) : (breaks : List Char) → (widest : Nat) → List Char → Spot →
    Option (List Char × Nat × Cursor)
  | breaks, widest, [], s => some (breaks, max widest s.column, ⟨[], s⟩)
  | breaks, widest, '\r' :: '\n' :: rest, s =>
    readIndentation indent ('\n' :: breaks) (max widest s.column) rest (s.wrap 2)
  | breaks, widest, c :: rest, s =>
    let inside := indent.all (s.column < ·)
    if inside && c = ' ' then readIndentation indent breaks widest rest (s.pass c)
    else if inside && c = '\t' then none
    else if isBreak c then
      readIndentation indent (breakChar c :: breaks) (max widest s.column) rest (s.wrap c.utf8Size)
    else some (breaks, max widest s.column, ⟨c :: rest, s⟩)

/-- the lines of a block after a reversed text, the line end before them and the empty lines behind that; what is
left over are the last line end and the empty lines behind it. `fuel` bounds the lines -/
def readLines (fold : Bool) (indent : Nat) : Nat → (text lead more : List Char) → (shifted : Bool) → Cursor →
    Option (List Char × List Char × List Char × Cursor)
  | 0, _, _, _, _, _ => none
  | fuel + 1, text, lead, more, shifted, c =>
    if c.column ≠ indent || c.rest.isEmpty then some (text, lead, more, c)
    else do
      let blank := c.rest.head?.any isSpace
      let joint :=
        if fold && lead = ['\n'] && !shifted && !blank then if more.isEmpty then [' '] else [] else lead
      let (line, c) := c.span (!isBreak ·)
      let lead := (c.rest.head?.map breakChar).toList
      let c := c.skipBreak
      let (after, _, c) ← readIndentation (some indent) [] 0 c.rest c.spot
      readLines fold indent fuel (line.reverse ++ (more ++ (joint ++ text))) lead after blank c

/-- a block of lines after its mark, in a text of at most `size` characters and a block that is indented as far as
`parent` says, if it is -/
def readLineBlock (fold : Bool) (parent : Option Nat) (size : Nat) (c : Cursor) : Option (List Char × Cursor) := do
  let (ends, given, c) := readHeader c
  if given = some 0 then none
  let c ← c.skipLine?
  let indent := given.map (parent.getD 0 + ·)
  let (empty, widest, c) ← readIndentation indent [] 0 c.rest c.spot
  let indent := indent.getD (max widest (parent.elim 1 (· + 1)))
  let (text, lead, more, c) ← readLines fold indent (size + 1) [] [] empty false c
  let tail := match ends with
    | .dropped => text
    | .one => lead ++ text
    | .all => more ++ (lead ++ text)
  return (tail.reverse, c)

end RhythmChart.Yaml
