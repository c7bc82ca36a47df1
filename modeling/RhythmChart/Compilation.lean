/-
From the text of a chart to its events: every line is read, then the frames are performed from the start.
-/
import RhythmChart.Chart
import RhythmChart.Performance

namespace RhythmChart

/-- what a chart comes to -/
structure Compilation where
  frames : List Frame
  events : List Event
  /-- the song settings that the directives left -/
  song : Song

namespace Compilation

/-- why a chart has no events -/
inductive Error where
  | unread (e : Line.Error)
  | unperformed (e : Performance.Error)

def Error.message : Error → String
  | unread e => e.message
  | unperformed e => e.message

end Compilation

/-- the compilation of a text -/
def compile (d : Dialect) (text : String) : Except Compilation.Error Compilation :=
  match d.readChart text with
  | .error e => .error (.unread e)
  | .ok frames =>
    match perform frames .blank with
    | .error e => .error (.unperformed e)
    | .ok (events, song) => .ok ⟨frames, events, song⟩

end RhythmChart
