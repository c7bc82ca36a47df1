/-
Reading a whole chart line by line.

A `Reader` gives the frames of the lines in order, each with its number from one. The first refused line is its
last answer. `Dialect.readChart` needs every line to be accepted.
-/
import RhythmChart.Line

namespace RhythmChart

/-- the lines still to be read -/
structure Reader where
  dialect : Dialect
  rest : List (List Char)
  /-- how many lines have been read -/
  line : Nat
  /-- whether a line has been refused -/
  failed : Bool

namespace Reader

/-- a reader of lines -/
def ofLines (d : Dialect) (lines : List (List Char)) : Reader := ⟨d, lines, 0, false⟩

/-- a reader of the lines of a text -/
def ofText (d : Dialect) (text : String) : Reader := ofLines d (Text.lines text.toList)

/-- the answer for the next line, and the reader after it -/
def next (r : Reader) : Option (Except Line.Error Frame × Reader) :=
  if r.failed then none
  else match r.rest with
    | [] => none
    | text :: rest =>
      let answer := r.dialect.readLine (r.line + 1) text
      some (answer, { r with rest, line := r.line + 1, failed := !answer.isOk })

/-- every answer there is, in order -/
def answersFrom : Nat → Reader → List (Except Line.Error Frame)
  | 0, _ => []
  | fuel + 1, r =>
    match r.next with
    | none => []
    | some (answer, r) => answer :: answersFrom fuel r

/-- every answer there is, in order; each takes one line -/
def answers (r : Reader) : List (Except Line.Error Frame) := r.answersFrom r.rest.length

end Reader

/-- the frames of answers, or the first error among them -/
def collect {ε α : Type} : List (Except ε α) → Except ε (List α)
  | [] => .ok []
  | .error e :: _ => .error e
  | .ok a :: rest =>
    match collect rest with
    | .error e => .error e
    | .ok as => .ok (a :: as)

/-- the frames of a chart -/
def Dialect.readChart (d : Dialect) (text : String) : Except Line.Error (List Frame) :=
  collect (Reader.ofText d text).answers

end RhythmChart
