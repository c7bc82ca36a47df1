/-
What a song is exported as: one level for each difficulty, and a manifest that lists them.
-/
import RhythmChart.Event

namespace RhythmChart

namespace Level

/-- the version of the file format -/
def formatVersion : String := "1.5.0"

/-- a lighting event; charts do not write any -/
structure Light where
  time : Float
  kind : Int32
  value : Int32
  deriving DecidableEq

/-- a note of a level -/
structure Target where
  time : Float
  lineIndex : UInt8
  lineLayer : UInt8
  kind : UInt8
  cutDirection : UInt8
  deriving DecidableEq

/-- a wall of a level; kind one is a ceiling, kind zero reaches from the floor up -/
structure Barrier where
  time : Float
  lineIndex : UInt8
  kind : UInt8
  duration : Float
  width : UInt8
  deriving DecidableEq

/-- the kind that stands for a color -/
def colorKind : Color → UInt8
  | .red => 0
  | .blue => 1
  | .bomb => 3

/-- a note at a time; without a direction it can be cut in any -/
def Target.ofNote (time : Float) (n : Note) : Target :=
  ⟨time, n.x, n.y, colorKind n.color, .ofNat (n.direction.getD .any).ordinal⟩

/-- walls from this row up are ceilings -/
def ceilingRow : UInt8 := 2

/-- a wall at a time -/
def Barrier.ofWall (time : Float) (w : Wall) : Barrier :=
  ⟨time, w.leftmost, if ceilingRow ≤ w.lowest then 1 else 0, w.length, w.width⟩

end Level

/-- the level of one difficulty -/
structure Level where
  version : String
  tempo : Float
  beatsPerBar : UInt32
  noteJumpSpeed : Float
  shuffle : UInt32
  shufflePeriod : Float
  lights : List Level.Light
  targets : List Level.Target
  barriers : List Level.Barrier
  deriving DecidableEq

/-- where a level is played -/
inductive Environment where
  | standard | bigMirror | triangle | nice
  deriving DecidableEq, Repr

namespace Environment

/-- every environment -/
def all : List Environment := [standard, bigMirror, triangle, nice]

/-- the name in a manifest -/
def name : Environment → String
  | standard => "DefaultEnvironment"
  | bigMirror => "BigMirror"
  | triangle => "TriangleEnvironment"
  | nice => "NiceEnvironment"

/-- the environment with a name -/
def ofName? (name : String) : Option Environment := all.find? (·.name = name)

end Environment

namespace Manifest

/-- what a manifest says about one level -/
structure Entry where
  difficulty : Difficulty
  rank : UInt8
  audioPath : String
  levelPath : String
  offset : Float
  oldOffset : Float
  deriving DecidableEq

end Manifest

/-- the list of a song's levels -/
structure Manifest where
  title : String
  subtitle : String
  author : String
  tempo : Float
  previewStart : Float
  previewDuration : Float
  cover : Option String
  environment : Environment
  entries : List Manifest.Entry
  deriving DecidableEq

/-- a manifest and the levels it lists -/
structure LevelSet where
  manifest : Manifest
  levels : List (Difficulty × Level)
  deriving DecidableEq

end RhythmChart
