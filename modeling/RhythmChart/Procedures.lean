/-
Procedures: named runs of frames of the top-level sequence.

A frame declares a procedure by a name and the number of frames of its body, which starts at the declaring frame
and is cut off at the end of the sequence. A name is defined once. The causes for which a performance fails are
here too, since half of them concern procedures.
-/
import RhythmChart.Text.Blank
import RhythmChart.Text.Split
import RhythmChart.Text.Integer
import RhythmChart.Decimal.Layout
import RhythmChart.Directive

namespace RhythmChart

/-- why a performance fails -/
inductive Performance.Fault where
  | notANumber (directive : Directive) (value : String)
  | invalidMeasure (value : Float)
  | tempoUnset
  | undefinedProcedure (name : String)
  | duplicateProcedure (name : String)
  | recursiveProcedure (name : String)
  deriving DecidableEq

def Performance.Fault.message : Performance.Fault → String
  | .notANumber directive value => "'" ++ directive.key ++ "' expects a number, got '" ++ value ++ "'"
  | .invalidMeasure value => "measure must be positive, got " ++ .ofList (Layout.plain.text value)
  | .tempoUnset => "intro_silence needs a bpm set before it"
  | .undefinedProcedure name => "undefined procedure '" ++ name ++ "'"
  | .duplicateProcedure name => "procedure '" ++ name ++ "' is already defined"
  | .recursiveProcedure name => "procedure '" ++ name ++ "' expands itself"

/-- a cause and the line of the frame it arose in -/
structure Performance.Error where
  line : Nat
  fault : Performance.Fault
  deriving DecidableEq

def Performance.Error.message (e : Performance.Error) : String :=
  "line " ++ toString e.line ++ ": " ++ e.fault.message

/-- the frames from `start` up to, not including, `stop` -/
structure Span where
  start : Nat
  stop : Nat
  deriving DecidableEq, Repr

/-- a procedure as a line declares it -/
structure Declaration where
  name : String
  /-- number of frames, the declaring one included -/
  length : Nat
  deriving DecidableEq, Repr

namespace Declaration

/-- a name, and a length after a comma; the length is one without it, and anything after a second comma is ignored -/
def read (raw : String) : Except Performance.Fault Declaration :=
  let (name, parts) := Text.pieces ',' raw.toList
  let name := String.ofList (Text.trim name)
  match parts with
  | [] => .ok ⟨name, 1⟩
  | length :: _ =>
    match Text.readNatural Text.most64 (Text.trim length) with
    | some length => .ok ⟨name, length⟩
    | none => .error (.notANumber .define raw)

/-- the body of a procedure declared at frame `start` of `count` frames -/
def body (d : Declaration) (start count : Nat) : Span := ⟨start, max (min (start + d.length) count) start⟩

/-- a frame of the sequence is before its end -/
theorem body_of_lt (d : Declaration) {start count : Nat} (inside : start < count) :
    d.body start count = ⟨start, min (start + d.length) count⟩ := by
  unfold body
  congr 1
  omega

end Declaration

/-- the procedures defined so far, by name -/
structure Procedures where
  bodies : List (String × Span)
  deriving DecidableEq, Repr

namespace Procedures

/-- no procedures -/
def empty : Procedures := ⟨[]⟩

/-- the body of a procedure -/
def get? (ps : Procedures) (name : String) : Option Span := ps.bodies.lookup name

/-- how many there are -/
def size (ps : Procedures) : Nat := ps.bodies.length

/-- define a new procedure -/
def define (ps : Procedures) (d : Declaration) (start count : Nat) : Except Performance.Fault (Span × Procedures) :=
  if (ps.get? d.name).isSome then .error (.duplicateProcedure d.name)
  else
    let body := d.body start count
    .ok (body, ⟨(d.name, body) :: ps.bodies⟩)

/-- the body of a procedure that must exist -/
def body (ps : Procedures) (name : String) : Except Performance.Fault Span :=
  match ps.get? name with
  | some span => .ok span
  | none => .error (.undefinedProcedure name)

end Procedures

end RhythmChart
