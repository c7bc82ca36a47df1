/-
What may be said about a node of a YAML document: an anchor, to which references lead, and a tag. Directives at the
start of a document say which version it is written in, and what the handles of its tags stand for.

A tag is written in full between angle brackets, or as a suffix behind a handle: `!`, `!!` or a name between
exclamation marks. Its escapes write octets, and the text of a tag holds one character for each octet.
-/
import RhythmChart.Yaml.Scalar

namespace RhythmChart.Yaml

/-- the characters of anchors, handles and directives -/
def isNameChar (c : Char) : Bool :=
  Text.isDigit c || (65 ≤ c.toNat && c.toNat ≤ 90) || (97 ≤ c.toNat && c.toNat ≤ 122) || c = '_' || c = '-'

/-- the name of an anchor or reference after its mark -/
def readAnchor (c : Cursor) : Option (List Char × Cursor) :=
  let (name, c) := c.span isNameChar
  if name.isEmpty || !(startsGap c.rest || startsWith "?:,]\x7d%@`" c.rest) then none else some (name, c)

/-! ## Tags -/

structure Tag where
  handle : List Char
  suffix : List Char
  deriving DecidableEq, Repr

/-- how many octets write a character that begins with this one -/
def octets? (first : Nat) : Option Nat :=
  if first < 0x80 then some 1
  else if 0xC0 ≤ first ∧ first < 0xE0 then some 2
  else if 0xE0 ≤ first ∧ first < 0xF0 then some 3
  else if 0xF0 ≤ first ∧ first < 0xF8 then some 4
  else none

/-- how many octets are still to come after one more, if `due` were to come -/
def dueAfter? (due octet : Nat) : Option Nat :=
  if due = 0 then (octets? octet).map (· - 1)
  else if 0x80 ≤ octet ∧ octet < 0xC0 then some (due - 1)
  else none

/-- whether a character may stand in a tag, in a `full` one also a bracket or comma -/
def isTagChar (full : Bool) (c : Char) : Bool :=
  isNameChar c || ";/?:@&=+$.!~*'()".toList.contains c || (full && ",[]".toList.contains c)

/-- a text of tags, put before a reversed one; `due` octets of the last character are still to come -/
def readTagText (full : Bool) : (due : Nat) → (text : List Char) → List Char → Spot → Option (List Char × Cursor)
  | due, text, [], s => if due = 0 then some (text.reverse, ⟨[], s⟩) else none
  | due, text, '%' :: a :: b :: rest, s =>
    match hexValue? a, hexValue? b with
    | some high, some low =>
      match dueAfter? due (16 * high + low) with
      | some due => readTagText full due (Char.ofNat (16 * high + low) :: text) rest (((s.pass '%').pass a).pass b)
      | none => none
    | _, _ => none
  | due, text, c :: rest, s =>
    if c = '%' ∨ due ≠ 0 then none
    else if isTagChar full c then readTagText full 0 (c :: text) rest (s.pass c)
    else some (text.reverse, ⟨c :: rest, s⟩)

/-- a handle at an exclamation mark; one that no second exclamation mark ends is the start of a suffix, if anything -/
def readHandle (c : Cursor) : List Char × Cursor :=
  let (name, c) := (c.skip 1).span isNameChar
  if c.rest.head? = some '!' then ('!' :: (name ++ ['!']), c.skip 1) else ('!' :: name, c)

/-- whether a text is a handle that a second exclamation mark ends -/
def isNamedHandle (handle : List Char) : Bool := 1 < handle.length && handle.getLast? = some '!'

/-- a tag at its exclamation mark, without what may not follow it -/
def readBareTag (c : Cursor) : Option (Tag × Cursor) :=
  match c.rest with
  | '!' :: '<' :: _ => do
    let c := c.skip 2
    let (text, c) ← readTagText true 0 [] c.rest c.spot
    if text.isEmpty || c.rest.head? ≠ some '>' then none
    return (⟨[], text⟩, c.skip 1)
  | _ => do
    let (handle, c) := readHandle c
    let (text, c) ← readTagText false 0 [] c.rest c.spot
    if isNamedHandle handle then
      if text.isEmpty then none else return (⟨handle, text⟩, c)
    else
      let suffix := handle.drop 1 ++ text
      return (if suffix.isEmpty then ⟨[], ['!']⟩ else ⟨['!'], suffix⟩, c)

/-- a tag at its exclamation mark; a gap must follow, or inside brackets a comma -/
def readTag (flow : Bool) (c : Cursor) : Option (Tag × Cursor) := do
  let (tag, c) ← readBareTag c
  if startsGap c.rest || (flow && c.rest.head? = some ',') then return (tag, c) else none

/-! ## Directives -/

/-- what the start of a document can say -/
inductive Directive where
  | version (major minor : Nat)
  /-- what a handle stands for -/
  | handle (name : List Char) (text : List Char)
  deriving DecidableEq, Repr

/-- a number of at most nine digits -/
def readNumber (c : Cursor) : Option (Nat × Cursor) :=
  let (digits, c) := c.span Text.isDigit
  if digits.isEmpty || 9 < digits.length then none
  else some (digits.foldl (fun n d => 10 * n + (d.toNat - 48)) 0, c)

/-- the version after the name of its directive -/
def readVersion (c : Cursor) : Option (Directive × Cursor) := do
  let (major, c) ← readNumber c
  if c.rest.head? ≠ some '.' then none
  let (minor, c) ← readNumber (c.skip 1)
  return (.version major minor, c)

/-- a handle and what it stands for, after the name of their directive -/
def readHandleText (c : Cursor) : Option (Directive × Cursor) := do
  if c.rest.head? ≠ some '!' then none
  let (handle, c) := readHandle c
  if !(handle = ['!'] || isNamedHandle handle) || !c.rest.head?.any isSpace then none
  let c := (c.span isSpace).2
  let (text, c) ← readTagText true 0 [] c.rest c.spot
  if text.isEmpty || !startsGap c.rest then none
  return (.handle handle text, c)

/-- a directive at its percent sign, with its line end -/
def readDirective (c : Cursor) : Option (Directive × Cursor) := do
  let (name, c) := (c.skip 1).span isNameChar
  if !startsGap c.rest then none
  let c := (c.span isSpace).2
  let (directive, c) ←
    if name = "YAML".toList then readVersion c
    else if name = "TAG".toList then readHandleText c
    else none
  return (directive, ← c.skipLine?)

end RhythmChart.Yaml
