/-
Reading one line of a chart.

The part of a line before the first `;` places notes and walls; each later part is a directive `key=value`.
Directives are read first. The placing part is then read symbol by symbol, blanks left out: a direction arms the
notes after it, a bomb marker makes one bomb of the next position and disarms, and a wall is two corner positions
and a whole length between brackets. A position without an armed direction is a bomb too, unless the dialect is
strict. The first fault ends the reading.
-/
import RhythmChart.Text.Split
import RhythmChart.Text.Integer
import RhythmChart.Frame
import RhythmChart.Dialect

namespace RhythmChart

/-- why a line is refused -/
inductive Line.Fault where
  | malformedDirective (text : String)
  | unrecognizedSymbol (c : Char)
  | nestedWall
  | positionBeforeDirection (c : Char)
  | incompleteWall (text : String)
  | unclosedWall (text : String)
  | invalidLength (text : String)
  deriving DecidableEq, Repr

namespace Line.Fault

def message : Fault → String
  | malformedDirective text => "malformed directive '" ++ text ++ "', expected key=value"
  | unrecognizedSymbol c => "unexpected character '" ++ c.toString ++ "'"
  | nestedWall => "already defining an obstacle"
  | positionBeforeDirection c => "position '" ++ c.toString ++ "' defined before direction"
  | incompleteWall text => "obstacle '" ++ text ++ "' needs two corner positions"
  | unclosedWall text => "obstacle '" ++ text ++ "' is never closed"
  | invalidLength text => "invalid obstacle length '" ++ text ++ "'"

end Line.Fault

/-- a fault and the number of its line, counted from one -/
structure Line.Error where
  line : Nat
  fault : Line.Fault
  deriving DecidableEq, Repr

def Line.Error.message (e : Line.Error) : String := "line " ++ toString e.line ++ ": " ++ e.fault.message

namespace Line

/-! ## Directives -/

/-- add the directive that one part of a line holds -/
def addDirective (ds : Directives) (part : List Char) : Except Fault Directives :=
  match Text.cutAt? '=' part with
  | none => .error (.malformedDirective (.ofList (Text.trim part)))
  | some (key, value) => .ok (ds.set (.ofList (Text.trim key)) (.ofList (Text.trim value)))

/-- the directives of the parts of a line, read from left to right -/
def readDirectives (ds : Directives) : List (List Char) → Except Fault Directives
  | [] => .ok ds
  | part :: rest =>
    match addDirective ds part with
    | .error fault => .error fault
    | .ok ds => readDirectives ds rest

/-! ## Placements -/

/-- the least and the largest length that can be written -/
def leastLength : Int := -2147483648
def mostLength : Int := 2147483647

/-- the wall that the text between two brackets describes -/
def readWall (a : Alphabet) : List Char → Except Fault Wall
  | c₁ :: c₂ :: digits =>
    match a.decodePosition? c₁ with
    | none => .error (.unrecognizedSymbol c₁)
    | some corner₁ =>
      match a.decodePosition? c₂ with
      | none => .error (.unrecognizedSymbol c₂)
      | some corner₂ =>
        match Text.readInteger leastLength mostLength digits with
        | none => .error (.invalidLength (.ofList digits))
        | some length => .ok (.between corner₁ corner₂ (Float.ofInt length))
  | text => .error (.incompleteWall (.ofList text))

/-- what the symbols so far leave for those to come -/
structure Scan where
  /-- the direction of the notes to come -/
  armed : Option Direction
  /-- whether a bomb marker waits for its position -/
  bombNext : Bool
  /-- the text since an opening bracket, its last symbol first -/
  openWall : Option (List Char)
  deriving DecidableEq, Repr

/-- the scan at the start of a line -/
def Scan.start : Scan := ⟨none, false, none⟩

/-- read one symbol -/
def Scan.step (d : Dialect) (s : Scan) (c : Char) : Except Fault (Scan × Option Placement) :=
  match s.openWall with
  | some text =>
    if c = d.alphabet.opening then .error .nestedWall
    else if c = d.alphabet.closing then
      match readWall d.alphabet text.reverse with
      | .error fault => .error fault
      | .ok wall => .ok ({ s with openWall := none }, some (.wall wall))
    else .ok ({ s with openWall := some (c :: text) }, none)
  | none =>
    match d.alphabet.classify c with
    | some .opening => .ok ({ s with openWall := some [] }, none)
    | some .bomb => .ok ({ s with armed := none, bombNext := true }, none)
    | some (.direction dir) => .ok ({ s with armed := some dir, bombNext := false }, none)
    | some (.position p) =>
      if s.bombNext then .ok ({ s with bombNext := false }, some (.note (.bomb p)))
      else match s.armed with
        | some dir => .ok (s, some (.note (.cut p dir)))
        | none =>
          if d.strict then .error (.positionBeforeDirection c) else .ok (s, some (.note (.bomb p)))
    | some .closing => .error (.unrecognizedSymbol c)
    | none => .error (.unrecognizedSymbol c)

/-- the placements of the symbols to come; a wall must be closed at the end -/
def scan (d : Dialect) (s : Scan) : List Char → Except Fault (List Placement)
  | [] =>
    match s.openWall with
    | some text => .error (.unclosedWall (.ofList text.reverse))
    | none => .ok []
  | c :: rest =>
    match s.step d c with
    | .error fault => .error fault
    | .ok (s, placed) =>
      match scan d s rest with
      | .error fault => .error fault
      | .ok placements => .ok (placed.toList ++ placements)

/-! ## Lines -/

/-- the directives and the placements of a line -/
def readParts (d : Dialect) (text : List Char) : Except Fault (Directives × List Placement) :=
  let (placing, parts) := Text.pieces ';' text
  match readDirectives .empty parts with
  | .error fault => .error fault
  | .ok directives =>
    match scan d .start (Text.unblanked placing) with
    | .error fault => .error fault
    | .ok placements => .ok (directives, placements)

end Line

/-- the frame of a line with a number -/
def Dialect.readLine (d : Dialect) (line : Nat) (text : List Char) : Except Line.Error Frame :=
  match Line.readParts d text with
  | .error fault => .error ⟨line, fault⟩
  | .ok (directives, placements) =>
    .ok ⟨line, directives, placements.filterMap (·.note?), placements.filterMap (·.wall?)⟩

end RhythmChart
