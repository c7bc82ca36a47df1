/-
Timelines: the musical clock that runs along the frames.

The clock counts beats. A measure says into how many frames a beat is divided, so one frame lasts `1 / measure`
beats. A timeline also keeps the first and the latest tempo set on it.
-/
namespace RhythmChart

/-- a musical clock -/
structure Timeline where
  /-- position in beats -/
  time : Float
  /-- frames per beat -/
  measure : Float
  /-- the first tempo set -/
  firstTempo : Option Float
  /-- the latest tempo set -/
  tempo : Option Float
  deriving DecidableEq

namespace Timeline

/-- beat zero, one frame per beat, no tempo -/
def start : Timeline := ⟨0, 1, none, none⟩

instance : Inhabited Timeline := ⟨start⟩

/-- the length of one frame in beats -/
def tick (t : Timeline) : Float := 1 / t.measure

/-- the clock one frame later -/
def advance (t : Timeline) : Timeline := { t with time := t.time + t.tick }

/-- the clock a number of frames later -/
def shift (t : Timeline) (frames : Float) : Timeline := { t with time := t.time + frames / t.measure }

/-- the timeline at a new tempo -/
def setTempo (t : Timeline) (tempo : Float) : Timeline :=
  { t with firstTempo := some (t.firstTempo.getD tempo), tempo := some tempo }

/-- whether two optional numbers are equal as numbers -/
def sameNumber : Option Float → Option Float → Bool
  | none, none => true
  | some x, some y => x == y
  | _, _ => false

/-- whether two timelines show equal numbers: zeros of both signs are equal, and no number equals a non-number -/
def agrees (s t : Timeline) : Bool :=
  s.time == t.time && s.measure == t.measure && sameNumber s.firstTempo t.firstTempo && sameNumber s.tempo t.tempo

end Timeline

end RhythmChart
