/-
Events: notes and walls at a time.
-/
import RhythmChart.Frame

namespace RhythmChart

/-- a placement at a time in beats; the length of its wall is in beats too -/
structure Event where
  time : Float
  placed : Placement
  deriving DecidableEq

namespace Event

/-- the difficulties an event appears in -/
def difficulties (e : Event) : Difficulties := e.placed.difficulties

/-- whether an event places a note -/
def isNote (e : Event) : Bool := e.placed.note?.isSome

end Event

end RhythmChart
