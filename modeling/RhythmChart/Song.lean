/-
Songs: what the directives of a chart say about the piece as a whole.
-/
namespace RhythmChart

/-- settings of the whole song, shared by every procedure -/
structure Song where
  audioFile : Option String
  title : Option String
  subtitle : Option String
  author : Option String
  /-- beats per minute -/
  tempo : Option Float
  /-- shift of the audio against the beats, in milliseconds -/
  offset : Float
  /-- silence put before the audio, in seconds -/
  leadIn : Float
  deriving DecidableEq

namespace Song

/-- nothing set -/
def blank : Song := ⟨none, none, none, none, none, 0, 0⟩

instance : Inhabited Song := ⟨blank⟩

/-- a stretch of seconds in beats at a tempo -/
def beatsIn (tempo seconds : Float) : Float := tempo * seconds / 60

/-- the silence before the audio in beats, once there is a tempo -/
def leadInBeats (s : Song) : Option Float := s.tempo.map fun tempo => beatsIn tempo s.leadIn

end Song

end RhythmChart
