/-
The directive pass of one frame.

A frame applies its directives one after another in `Directive.order` to the song, to the timeline it is performed
on and to the defined procedures; what concerns the frame's own placements and the procedures it calls is kept for
later. A directive that fails changes nothing, and the changes made before it stay (`run`).
-/
import RhythmChart.Decimal.Reading
import RhythmChart.Frame
import RhythmChart.Song
import RhythmChart.Timeline
import RhythmChart.Procedures

namespace RhythmChart.Performance

/-- where a frame is performed -/
structure Site where
  /-- the place of the frame in the whole sequence -/
  pos : Nat
  /-- the length of the whole sequence -/
  count : Nat
  /-- whether no procedure is being performed -/
  topLevel : Bool
  deriving DecidableEq, Repr

/-- what the directives of a frame have done so far -/
structure Pass where
  song : Song
  timeline : Timeline
  procedures : Procedures
  /-- by how many frames the frame's own placements are late -/
  frameOffset : Float
  /-- the procedure to perform on a copy of the timeline -/
  layered : Option String
  /-- the procedure to perform on the timeline itself -/
  spliced : Option String
  deriving DecidableEq

namespace Pass

/-- the pass before the first directive -/
def start (song : Song) (timeline : Timeline) (procedures : Procedures) : Pass :=
  ⟨song, timeline, procedures, 0, none, none⟩

/-- the number a directive is given -/
def number (d : Directive) (raw : String) : Except Fault Float :=
  match Decimal.readFloat raw.toList with
  | some x => .ok x
  | none => .error (.notANumber d raw)

/-- whether a measure can be used -/
def validMeasure (x : Float) : Bool := x > 0 && x.isFinite

/-- one directive -/
def apply (site : Site) (p : Pass) (d : Directive) (raw : String) : Except Fault Pass :=
  match d with
  | .setTime => do
    let beats ← number d raw
    return { p with timeline := { p.timeline with time := p.song.leadIn + beats } }
  | .tempo => do
    let tempo ← number d raw
    return { p with song := { p.song with tempo := some tempo }, timeline := p.timeline.setTempo tempo }
  | .leadIn => do
    let seconds ← number d raw
    match p.song.tempo with
    | none => .error .tempoUnset
    | some tempo =>
      return { p with
        song := { p.song with leadIn := p.song.leadIn + seconds }
        timeline := { p.timeline with time := p.timeline.time + Song.beatsIn tempo seconds } }
  | .audioFile => .ok { p with song := { p.song with audioFile := some raw } }
  | .title => .ok { p with song := { p.song with title := some raw } }
  | .subtitle => .ok { p with song := { p.song with subtitle := some raw } }
  | .author => .ok { p with song := { p.song with author := some raw } }
  | .audioOffset => do
    let offset ← number d raw
    return { p with song := { p.song with offset } }
  | .measure => do
    let measure ← number d raw
    if validMeasure measure then return { p with timeline := { p.timeline with measure } }
    else .error (.invalidMeasure measure)
  | .offset => do
    let frames ← number d raw
    return { p with timeline := p.timeline.shift frames }
  | .frameOffset => do
    let frameOffset ← number d raw
    return { p with frameOffset }
  | .define =>
    if site.topLevel then do
      let declaration ← Declaration.read raw
      let (_, procedures) ← p.procedures.define declaration site.pos site.count
      return { p with procedures }
    else .ok p
  | .layer => .ok { p with layered := some raw }
  | .splice => .ok { p with spliced := some raw }

/-- the given directives of a frame in turn, up to the first that fails -/
def run (site : Site) (frame : Frame) : List Directive → Pass → Pass × Option Fault
  | [], p => (p, none)
  | d :: rest, p =>
    match frame.directive? d.key with
    | none => run site frame rest p
    | some raw =>
      match p.apply site d raw with
      | .ok p => run site frame rest p
      | .error fault => (p, some fault)

end Pass

end RhythmChart.Performance
