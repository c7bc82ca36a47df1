/-
Nodes of YAML documents.

A document is a tree of scalars, sequences and mappings, read from its tokens. A node may have an anchor, which a later
reference to the same name leads to, and a tag, whose handle stands for what the directives of the document say.
Anchors are numbered by the count of different names before them. A reference has the number that its name had last,
and leads to the last node of the document with that number.
-/
import RhythmChart.Yaml.Token

namespace RhythmChart.Yaml

structure Scalar where
  /-- the tag with its handle replaced -/
  tag : Option (List Char)
  style : Style
  text : List Char
  deriving DecidableEq, Repr

/-- the scalar where nothing is written -/
def Scalar.empty : Scalar := ⟨none, .plain, []⟩

inductive Node where
  | scalar (s : Scalar)
  | sequence (entries : List Node)
  | mapping (pairs : List (Node × Node))
  /-- a reference to the anchor with this number -/
  | reference (number : Nat)

/-- the node where nothing is written -/
def Node.empty : Node := .scalar .empty

structure Document where
  root : Node
  /-- the scalars that anchors with these numbers lead to, the last anchor first; none for other nodes -/
  anchored : List (Nat × Option Scalar)

/-- the scalar that a node is or refers to -/
def Document.scalar? (d : Document) : Node → Option Scalar
  | .scalar s => some s
  | .reference number => (d.anchored.lookup number).join
  | _ => none

/-! ## Reading tokens -/

/-- the tokens still to be read, and what was said before them -/
structure Reading where
  tokens : List Token
  /-- what the handles of tags stand for -/
  handles : List (List Char × List Char)
  /-- the numbers of the names of anchors -/
  names : List (List Char × Nat)
  anchored : List (Nat × Option Scalar)

abbrev Reader := StateT Reading Option

namespace Reader

/-- the next token -/
def peek : Reader (Option Token) := return (← get).tokens.head?

def skip : Reader Unit := modify fun r => { r with tokens := r.tokens.drop 1 }

/-- whether the next token is one of these -/
def atAny (ts : List Token) : Reader Bool := return (← peek).any ts.contains

/-- pass over a token, which must be the next one -/
def expect (t : Token) : Reader Unit := do
  if ← atAny [t] then skip else failure

/-! ## What is said about a node -/

/-- an anchor, if there is one here -/
def anchor? : Reader (Option (List Char)) := do
  match ← peek with
  | some (.anchor name) => skip; return some name
  | _ => return none

/-- a tag, if there is one here -/
def tag? : Reader (Option Tag) := do
  match ← peek with
  | some (.tag t) => skip; return some t
  | _ => return none

/-- the anchor and the tag of a node, in either order -/
def properties : Reader (Option (List Char) × Option Tag) := do
  match ← anchor? with
  | some name => return (some name, ← tag?)
  | none =>
    match ← tag? with
    | some t => return (← anchor?, some t)
    | none => return (none, none)

/-- a tag with what its handle stands for -/
def resolve (t : Tag) : Reader (List Char) := do
  if t.handle.isEmpty then return t.suffix
  match (← get).handles.lookup t.handle with
  | some text => return text ++ t.suffix
  | none => failure

/-- the anchor of a node, and the scalar it leads to -/
def mark (anchor : Option (List Char)) (s : Option Scalar) : Reader Unit :=
  match anchor with
  | none => return
  | some name => modify fun r =>
    let number := r.names.length
    { r with names := (name, number) :: r.names.filter (·.1 ≠ name), anchored := (number, s) :: r.anchored }

/-- a reference to a name -/
def reference (name : List Char) : Reader Node := do
  match (← get).names.lookup name with
  | some number => return .reference number
  | none => failure

/-! ## Nodes -/

mutual

/-- a node; outside brackets it may be a block, and after a key a sequence that is not indented -/
def node : Nat → (block unindented : Bool) → Reader Node
  | 0, _, _ => failure
  | fuel + 1, block, unindented => do
    if let some (.reference name) ← peek then
      skip
      return ← reference name
    let (anchor, tag) ← properties
    let tag ← tag.mapM resolve
    match ← peek with
    | some (.scalar style text) =>
      skip
      let s : Scalar := ⟨if tag = some ['!'] then none else tag, style, text⟩
      mark anchor (some s)
      return .scalar s
    | some .openSequence =>
      skip
      mark anchor none
      return .sequence (← flowEntries fuel true [])
    | some .openMapping =>
      skip
      mark anchor none
      return .mapping (← flowPairs fuel true [])
    | next =>
      if unindented && next = some .entry then
        mark anchor none
        return .sequence (← unindentedEntries fuel [])
      else if block && next = some .blockSequence then
        skip
        mark anchor none
        return .sequence (← blockEntries fuel [])
      else if block && next = some .blockMapping then
        skip
        mark anchor none
        return .mapping (← blockPairs fuel [])
      else if anchor.isSome || tag.isSome then
        let s : Scalar := ⟨tag, .plain, []⟩
        mark anchor (some s)
        return .scalar s
      else failure

/-- a node, or the empty one before these tokens -/
def nodeBefore : Nat → (ends : List Token) → (block unindented : Bool) → Reader Node
  | 0, _, _, _ => failure
  | fuel + 1, ends, block, unindented => do
    if ← atAny ends then return .empty else node fuel block unindented

/-- a value, or the empty node where none is written -/
def valueBefore : Nat → (ends : List Token) → (block : Bool) → Reader Node
  | 0, _, _ => failure
  | fuel + 1, ends, block => do
    if ← atAny [.value] then
      skip
      nodeBefore fuel ends block block
    else return .empty

/-- the further entries of a block, and its end -/
def blockEntries : Nat → (before : List Node) → Reader (List Node)
  | 0, _ => failure
  | fuel + 1, before => do
    if ← atAny [.entry] then
      skip
      let entry ← nodeBefore fuel [.entry, .blockEnd] true false
      blockEntries fuel (entry :: before)
    else
      expect .blockEnd
      return before.reverse

/-- the further entries of a sequence that is not indented -/
def unindentedEntries : Nat → (before : List Node) → Reader (List Node)
  | 0, _ => failure
  | fuel + 1, before => do
    if ← atAny [.entry] then
      skip
      let entry ← nodeBefore fuel [.entry, .key, .value, .blockEnd] true false
      unindentedEntries fuel (entry :: before)
    else return before.reverse

/-- the further pairs of a block, and its end -/
def blockPairs : Nat → (before : List (Node × Node)) → Reader (List (Node × Node))
  | 0, _ => failure
  | fuel + 1, before => do
    if ← atAny [.key] then
      skip
      let key ← nodeBefore fuel [.key, .value, .blockEnd] true true
      let value ← valueBefore fuel [.key, .value, .blockEnd] true
      blockPairs fuel ((key, value) :: before)
    else
      expect .blockEnd
      return before.reverse

/-- the further entries of a sequence in brackets, and its end. An entry can be a pair; where the key of such a pair is
missing, the token in its place is passed over -/
def flowEntries : Nat → (first : Bool) → (before : List Node) → Reader (List Node)
  | 0, _, _ => failure
  | fuel + 1, first, before => do
    if !first && !(← atAny [.closeSequence]) then expect .comma
    if ← atAny [.closeSequence] then
      skip
      return before.reverse
    else if ← atAny [.key] then
      skip
      let missing ← atAny [.value, .comma, .closeSequence]
      let key ← if missing then do skip; pure Node.empty else node fuel false false
      let value ← valueBefore fuel [.comma, .closeSequence] false
      flowEntries fuel false (.mapping [(key, value)] :: before)
    else
      let entry ← node fuel false false
      flowEntries fuel false (entry :: before)

/-- the further pairs of a mapping in braces, and its end -/
def flowPairs : Nat → (first : Bool) → (before : List (Node × Node)) → Reader (List (Node × Node))
  | 0, _, _ => failure
  | fuel + 1, first, before => do
    if !first && !(← atAny [.closeMapping]) then expect .comma
    if ← atAny [.closeMapping] then
      skip
      return before.reverse
    else if ← atAny [.key] then
      skip
      let key ← nodeBefore fuel [.value, .comma, .closeMapping] false false
      let value ← valueBefore fuel [.comma, .closeMapping] false
      flowPairs fuel false ((key, value) :: before)
    else
      let key ← node fuel false false
      flowPairs fuel false ((key, .empty) :: before)

end

end Reader

end RhythmChart.Yaml
