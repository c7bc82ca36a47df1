/-
Directives: the keys that a performance understands, and the order in which it applies them.

The order within a frame is fixed, whatever the order on the line: the clock and the song first, then the measure
and what depends on it, then procedures. Other keys mean nothing.
-/
namespace RhythmChart

/-- what a directive does -/
inductive Directive where
  | setTime | tempo | leadIn | audioFile | title | subtitle | author | audioOffset
  | measure | offset | frameOffset | define | layer | splice
  deriving DecidableEq, Repr

namespace Directive

/-- every directive, in the order in which a frame applies them -/
def order : List Directive :=
  [setTime, tempo, leadIn, audioFile, title, subtitle, author, audioOffset,
   measure, offset, frameOffset, define, layer, splice]

/-- the key of a directive on a line -/
def key : Directive → String
  | setTime => "set_time"
  | tempo => "bpm"
  | leadIn => "intro_silence"
  | audioFile => "audio_file"
  | title => "title"
  | subtitle => "subtitle"
  | author => "author"
  | audioOffset => "audio_offset_ms"
  | measure => "measure"
  | offset => "offset"
  | frameOffset => "frame_offset"
  | define => "proc"
  | layer => "proc_add"
  | splice => "proc_ins"

/-- the directive with a key -/
def ofKey? (key : String) : Option Directive := order.find? (·.key = key)

/-- the place of a directive in `order` -/
def rank (d : Directive) : Nat := order.idxOf d

theorem ofKey?_key (d : Directive) : ofKey? d.key = some d := by cases d <;> decide

end Directive

end RhythmChart
