/-
Tokens of YAML documents.

The scanner goes through the text once and turns indentation into tokens that open and close blocks. That something is
a key shows only at the colon behind it, so the scanner remembers for each level of brackets where a key may have
begun. Such a key stands on one line and takes at most 1024 bytes up to its colon; at the colon the tokens for the key,
and for its mapping if that begins there, are put in where the key began. Where a block cannot go on without a key, it
is an error if there is none.
-/
import RhythmChart.Yaml.Property

namespace RhythmChart.Yaml

inductive Token where
  /-- a block begins, or ends -/
  | blockSequence | blockMapping | blockEnd
  /-- brackets -/
  | openSequence | closeSequence | openMapping | closeMapping | comma
  /-- the indicators of an entry, a key and a value -/
  | entry | key | value
  | scalar (style : Style) (text : List Char)
  | reference (name : List Char)
  | anchor (name : List Char)
  | tag (t : Tag)
  | directive (d : Directive)
  | documentStart | documentEnd
  deriving DecidableEq, Repr

/-- where a key may have begun -/
structure PossibleKey where
  spot : Spot
  /-- whether the block cannot go on without a key here -/
  required : Bool
  /-- how many tokens stand before it -/
  number : Nat
  deriving DecidableEq, Repr

/-- whether a key that began there cannot end at a colon here -/
def PossibleKey.isPast (k : PossibleKey) (s : Spot) : Bool := k.spot.line < s.line || k.spot.offset + 1024 < s.offset

structure Scanner where
  /-- how many characters the text has -/
  size : Nat
  cursor : Cursor
  /-- whether a key or a block may begin here -/
  fresh : Bool
  /-- where a key may have begun inside the innermost brackets -/
  key : Option PossibleKey
  /-- the same for the brackets around them, from the inner ones to the outermost text -/
  outer : List (Option PossibleKey)
  /-- the columns of the open blocks, the inner ones first -/
  indents : List Nat
  /-- the tokens, the last one first -/
  tokens : List Token
  /-- how many tokens there are -/
  count : Nat

namespace Scanner

/-- at the start of a text -/
def start (text : List Char) : Scanner := ⟨text.length, ⟨text, .start⟩, true, none, [], [], [], 0⟩

/-- whether the cursor is inside brackets -/
def flow (s : Scanner) : Bool := !s.outer.isEmpty

def emit (t : Token) (s : Scanner) : Scanner := { s with tokens := t :: s.tokens, count := s.count + 1 }

/-- a token put in behind the first `number` ones -/
def insert (number : Nat) (t : Token) (s : Scanner) : Scanner :=
  let later := s.count - number
  { s with tokens := s.tokens.take later ++ t :: s.tokens.drop later, count := s.count + 1 }

/-- behind `n` characters -/
def skip (n : Nat) (s : Scanner) : Scanner := { s with cursor := s.cursor.skip n }

/-! ## Blocks -/

/-- the blocks that are indented further than `column` end; without a column all do -/
def closeBlocks (column : Option Nat) (s : Scanner) : Scanner :=
  if s.flow then s
  else
    let closing := s.indents.takeWhile fun i => column.all (· < i)
    closing.foldl (fun s _ => s.emit .blockEnd) { s with indents := s.indents.drop closing.length }

/-- a block in a column, which begins behind the first `number` tokens, unless one is open there already -/
def openBlock (column number : Nat) (t : Token) (s : Scanner) : Scanner :=
  if !s.flow && s.indents.head?.all (· < column) then { s with indents := column :: s.indents }.insert number t else s

/-! ## Keys -/

/-- nothing that stood here was a key -/
def dropKey (s : Scanner) : Option Scanner :=
  if s.key.any (·.required) then none else some { s with key := none }

/-- a key may begin here, if one may at all -/
def offerKey (s : Scanner) : Option Scanner :=
  if s.fresh then do
    let required := !s.flow && s.indents.head? = some s.cursor.column
    return { ← s.dropKey with key := some ⟨s.cursor.spot, required, s.count⟩ }
  else some s

/-- keys that cannot end here any more are none -/
def dropPastKeys (s : Scanner) : Option Scanner :=
  let past (k : Option PossibleKey) : Bool := k.any (·.isPast s.cursor.spot)
  let keys := s.key :: s.outer
  if keys.any fun k => past k && k.any (·.required) then none
  else if keys.any past then
    let current := fun k => if past k then none else k
    some { s with key := current s.key, outer := s.outer.map current }
  else some s

/-! ## One token -/

/-- at the next token -/
def approach (s : Scanner) : Option Scanner := do
  let (cursor, fresh) := Cursor.skipGap s.flow false s.fresh s.cursor.rest s.cursor.spot
  let s ← { s with cursor, fresh }.dropPastKeys
  return s.closeBlocks (some cursor.column)

/-- a token of `n` characters behind which a key may begin, or not -/
def take (n : Nat) (fresh : Bool) (t : Token) (s : Scanner) : Scanner := { s with fresh }.skip n |>.emit t

/-- a token that can begin a key, as it was read -/
def takeNode (read : Option (Token × Cursor)) (s : Scanner) : Option Scanner := do
  let s ← s.offerKey
  let (t, cursor) ← read
  return { s with cursor, fresh := false }.emit t

/-- what ends all blocks: a directive or a document marker -/
def takeMarker (t : Token) (cursor : Cursor) (s : Scanner) : Option Scanner := do
  let s ← (s.closeBlocks none).dropKey
  return { s with cursor, fresh := false }.emit t

def takeOpening (t : Token) (s : Scanner) : Option Scanner := do
  let s ← s.offerKey
  return { s with key := none, outer := s.key :: s.outer }.take 1 true t

def takeClosing (t : Token) (s : Scanner) : Option Scanner := do
  let s ← s.dropKey
  let s := match s.outer with
    | [] => s
    | key :: outer => { s with key, outer }
  return s.take 1 false t

/-- an indicator of an entry or of a key of its own, which outside brackets opens a block -/
def takeIndicator (block t : Token) (fresh : Bool) (s : Scanner) : Option Scanner := do
  if !s.flow && !s.fresh then none
  let s ← (s.openBlock s.cursor.column s.count block).dropKey
  return s.take 1 fresh t

/-- the colon before a value -/
def takeValue (s : Scanner) : Option Scanner :=
  match s.key with
  | some k =>
    let s := (s.insert k.number .key).openBlock k.spot.column k.number .blockMapping
    some ({ s with key := none }.take 1 false .value)
  | none =>
    if !s.flow && !s.fresh then none
    else some ((s.openBlock s.cursor.column s.count .blockMapping).take 1 (!s.flow) .value)

/-- a block of lines -/
def takeLines (fold : Bool) (s : Scanner) : Option Scanner := do
  let s ← s.dropKey
  let (text, cursor) ← readLineBlock fold s.indents.head? s.size (s.cursor.skip 1)
  return { s with cursor, fresh := true }.emit (.scalar (if fold then .folded else .literal) text)

def takePlain (s : Scanner) : Option Scanner := do
  let s ← s.offerKey
  let (text, fresh, cursor) ← readPlain s.flow (s.indents.head?.elim 0 (· + 1)) s.size s.cursor
  return { s with cursor, fresh }.emit (.scalar .plain text)

/-- an indicator stands here, which inside brackets needs no gap behind it -/
def atIndicator (mark : Char) (s : Scanner) : Bool :=
  if s.flow then s.cursor.rest.head? = some mark else s.cursor.atIndicator mark

/-- the token at the cursor -/
def step (s : Scanner) : Option Scanner :=
  let c := s.cursor
  let margin := c.column = 0
  if margin && c.rest.head? = some '%' then do
    let (d, cursor) ← readDirective c
    s.takeMarker (.directive d) cursor
  else if margin && startsMark '-' c.rest then s.takeMarker .documentStart (c.skip 3)
  else if margin && startsMark '.' c.rest then s.takeMarker .documentEnd (c.skip 3)
  else if c.atIndicator '-' then s.takeIndicator .blockSequence .entry true
  else if s.atIndicator '?' then s.takeIndicator .blockMapping .key (!s.flow)
  else if s.atIndicator ':' then s.takeValue
  else match c.rest with
    | [] => none
    | '[' :: _ => s.takeOpening .openSequence
    | '\x7b' :: _ => s.takeOpening .openMapping
    | ']' :: _ => s.takeClosing .closeSequence
    | '\x7d' :: _ => s.takeClosing .closeMapping
    | ',' :: _ => s.dropKey.map (·.take 1 true .comma)
    | '*' :: _ => s.takeNode ((readAnchor (c.skip 1)).map fun (name, c) => (.reference name, c))
    | '&' :: _ => s.takeNode ((readAnchor (c.skip 1)).map fun (name, c) => (.anchor name, c))
    | '!' :: _ => s.takeNode ((readTag s.flow c).map fun (t, c) => (.tag t, c))
    | '"' :: _ => s.takeNode ((readQuoted true s.size (c.skip 1)).map fun (text, c) => (.scalar .quoted text, c))
    | '\'' :: _ => s.takeNode ((readQuoted false s.size (c.skip 1)).map fun (text, c) => (.scalar .quoted text, c))
    | '|' :: _ => if s.flow then none else s.takeLines false
    | '>' :: _ => if s.flow then none else s.takeLines true
    | rest => if startsPlain s.flow rest then s.takePlain else none

/-- all tokens of the text, if it ends here -/
def finish (s : Scanner) : Option (List Token) := (s.closeBlocks none).dropKey.map (·.tokens.reverse)

/-- all tokens of the text; `fuel` bounds those that are still to come -/
def run : Nat → Scanner → Option (List Token)
  | 0, _ => none
  | fuel + 1, s => do
    let s ← s.approach
    if s.cursor.rest.isEmpty then s.finish else run fuel (← s.step)

end Scanner

/-- the tokens of a text, if every part of it is one -/
def Token.ofText? (text : List Char) : Option (List Token) :=
  let s := Scanner.start text
  if text.all isAllowed then s.run (s.size + 1) else none

end RhythmChart.Yaml
