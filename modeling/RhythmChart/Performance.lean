/-
Performances: frames become timed events, procedures expanded on the way.

A performance is a machine that gives one event at a time. Its stack holds one cursor for the top-level sequence
and one for each procedure being performed; each cursor works on one timeline. At a frame the machine applies the
directives, then performs the layered procedure on a copy of the timeline, which is dropped afterwards, then the
spliced procedure on the timeline itself, then places the frame's notes and walls and advances the clock by one
frame. The first error ends the performance. Procedures being performed cannot be called again, so every
performance ends; `bound` is more than the number of turns that takes.
-/
import RhythmChart.Event
import RhythmChart.Performance.Pass

namespace RhythmChart

namespace Performance

/-- what a cursor does next at its frame -/
inductive Stage where
  /-- apply the directives -/
  | directives
  /-- perform the spliced procedure -/
  | splice
  /-- place the notes and walls -/
  | place
  deriving DecidableEq, Repr

/-- progress through the top-level sequence or through the body of a procedure -/
structure Cursor where
  span : Span
  /-- the frame the cursor is at -/
  pos : Nat
  /-- which timeline it works on -/
  slot : Nat
  /-- whether that timeline was made for it and goes with it -/
  ownsSlot : Bool
  /-- the procedure it performs -/
  procedure : Option String
  stage : Stage
  frameOffset : Float
  spliced : Option String
  deriving DecidableEq

/-- a cursor at the start of a span -/
def Cursor.start (span : Span) (slot : Nat) (ownsSlot : Bool) (procedure : Option String) : Cursor :=
  ⟨span, span.start, slot, ownsSlot, procedure, .directives, 0, none⟩

end Performance

/-- a performance between two turns -/
structure Performance where
  frames : Array Frame
  song : Song
  procedures : Procedures
  /-- the top-level timeline and, after it, the copies in use -/
  timelines : List Timeline
  /-- the cursors, the innermost first -/
  stack : List Performance.Cursor
  /-- events placed but not given yet -/
  pending : List Event
  /-- more turns than any performance of the frames takes -/
  bound : Nat
  deriving DecidableEq

namespace Performance

/-! ## Beginning -/

/-- how many frames declare a procedure -/
def declarations (frames : Array Frame) : Nat := frames.countP fun f => (f.directive? Directive.define.key).isSome

/-- how many notes and walls the frames place -/
def placements (frames : Array Frame) : Nat :=
  frames.toList.foldr (fun f count => f.notes.length + f.walls.length + count) 0

/-- a number above the turns that a performance of the frames takes -/
def turnBound (frames : Array Frame) : Nat :=
  Nat.pow (3 * frames.size + 4) (declarations frames + 2) * (placements frames + 1)

/-- a performance of frames that starts on a timeline -/
def start (frames : Array Frame) (song : Song) (timeline : Timeline) : Performance where
  frames
  song
  procedures := .empty
  timelines := [timeline]
  stack := [.start ⟨0, frames.size⟩ 0 false none]
  pending := []
  bound := turnBound frames

/-- a timeline in use -/
def timelineAt (p : Performance) (slot : Nat) : Timeline := p.timelines.getD slot .start

/-- the top-level timeline -/
def timeline (p : Performance) : Timeline := p.timelineAt 0

/-! ## Turns -/

/-- the body of a procedure that is to be performed now -/
def resolve (p : Performance) (name : String) : Except Fault Span :=
  if p.stack.any (·.procedure = some name) then .error (.recursiveProcedure name) else p.procedures.body name

/-- start a procedure on a copy of a timeline -/
def layer (p : Performance) (slot : Nat) (name : String) (line : Nat) : Performance × Option Error :=
  match p.resolve name with
  | .error fault => (p, some ⟨line, fault⟩)
  | .ok span =>
    ({ p with
        timelines := p.timelines ++ [p.timelineAt slot]
        stack := .start span p.timelines.length true (some name) :: p.stack }, none)

/-- start a procedure on a timeline itself -/
def splice (p : Performance) (slot : Nat) (name : String) (line : Nat) : Performance × Option Error :=
  match p.resolve name with
  | .error fault => (p, some ⟨line, fault⟩)
  | .ok span => ({ p with stack := .start span slot false (some name) :: p.stack }, none)

/-- the events of a frame's notes and then of its walls, on a timeline -/
def stamp (frame : Frame) (timeline : Timeline) (frameOffset : Float) : List Event :=
  let time := timeline.time + frameOffset / timeline.measure
  frame.notes.map (fun n => ⟨time, .note n⟩) ++
    frame.walls.map fun w => ⟨time, .wall { w with length := w.length / timeline.measure }⟩

/-- one stage of the innermost cursor `c`, which is at `frame` -/
def step (p : Performance) (c : Cursor) (below : List Cursor) (frame : Frame) : Performance × Option Error :=
  match c.stage with
  | .directives =>
    let site : Site := ⟨c.pos, p.frames.size, below.isEmpty⟩
    let (pass, fault) :=
      Pass.run site frame Directive.order (.start p.song (p.timelineAt c.slot) p.procedures)
    let p := { p with
      song := pass.song
      procedures := pass.procedures
      timelines := p.timelines.set c.slot pass.timeline }
    match fault with
    | some fault => (p, some ⟨frame.line, fault⟩)
    | none =>
      let c := { c with frameOffset := pass.frameOffset, spliced := pass.spliced, stage := .splice }
      let p := { p with stack := c :: below }
      match pass.layered with
      | none => (p, none)
      | some name => p.layer c.slot name frame.line
  | .splice =>
    let p := { p with stack := { c with stage := .place, spliced := none } :: below }
    match c.spliced with
    | none => (p, none)
    | some name => p.splice c.slot name frame.line
  | .place =>
    let timeline := p.timelineAt c.slot
    ({ p with
        pending := p.pending ++ stamp frame timeline c.frameOffset
        timelines := p.timelines.set c.slot timeline.advance
        stack := { c with pos := c.pos + 1, stage := .directives } :: below }, none)

/-- leave the innermost cursor `c`, whose span is done -/
def leave (p : Performance) (c : Cursor) (below : List Cursor) : Performance :=
  { p with
    stack := below
    timelines := if c.ownsSlot then p.timelines.dropLast else p.timelines }

/-- what one turn gives -/
inductive Turn where
  | ended
  | event (e : Event) (p : Performance)
  | failed (e : Error) (p : Performance)
  | moved (p : Performance)
  deriving DecidableEq

/-- one turn: give a pending event, or else work on the innermost cursor -/
def turn (p : Performance) : Turn :=
  match p.pending with
  | e :: pending => .event e { p with pending }
  | [] =>
    match p.stack with
    | [] => .ended
    | c :: below =>
      if c.span.stop ≤ c.pos then .moved (p.leave c below)
      else match p.frames[c.pos]? with
        | none => .moved (p.leave c below)
        | some frame =>
          match p.step c below frame with
          | (p, none) => .moved p
          | (p, some e) => .failed e { p with stack := [] }

/-! ## Pulling events -/

/-- an answer of a performance -/
inductive Answer where
  | event (e : Event)
  | failed (e : Error)
  | ended
  deriving DecidableEq

/-- the next answer within a number of turns -/
def nextWithin : Nat → Performance → Answer × Performance
  | 0, p => (.ended, p)
  | fuel + 1, p =>
    match p.turn with
    | .ended => (.ended, p)
    | .event e p => (.event e, p)
    | .failed e p => (.failed e, p)
    | .moved p => nextWithin fuel p

/-- the next answer -/
def next (p : Performance) : Answer × Performance := nextWithin p.bound p

/-- how a whole performance went -/
structure Outcome where
  events : List Event
  error : Option Error
  /-- the performance after its last answer -/
  final : Performance

/-- pull events until there are no more, within a number of pulls; `given` holds those before, the latest first -/
def drainWithin : Nat → List Event → Performance → Outcome
  | 0, given, p => ⟨given.reverse, none, p⟩
  | fuel + 1, given, p =>
    match p.next with
    | (.event e, p) => drainWithin fuel (e :: given) p
    | (.failed e, p) => ⟨given.reverse, some e, p⟩
    | (.ended, p) => ⟨given.reverse, none, p⟩

/-- pull events until there are no more -/
def drain (p : Performance) : Outcome := drainWithin p.bound [] p

end Performance

/-- the events of frames and the song they leave -/
def perform (frames : List Frame) (song : Song) : Except Performance.Error (List Event × Song) :=
  let outcome := (Performance.start frames.toArray song .start).drain
  match outcome.error with
  | some e => .error e
  | none => .ok (outcome.events, outcome.final.song)

end RhythmChart
