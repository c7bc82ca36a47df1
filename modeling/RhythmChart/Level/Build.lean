/-
Building levels from the events of a performance.

A level holds the events of its difficulty, notes and walls apart, in the order of the events. Difficulties without
a note have no level. A song without a tempo cannot be exported.
-/
import RhythmChart.Song
import RhythmChart.Level.Model

namespace RhythmChart

namespace Level

/-- a level without content -/
def empty (tempo : Float) : Level := ⟨formatVersion, tempo, 16, 10, 0, 0.5, [], [], []⟩

/-- the file of a difficulty's level -/
def fileName (d : Difficulty) : String := d.name ++ ".json"

/-- the note of an event -/
def target? (e : Event) : Option Target :=
  match e.placed with
  | .note n => some (.ofNote e.time n)
  | .wall _ => none

/-- the wall of an event -/
def barrier? (e : Event) : Option Barrier :=
  match e.placed with
  | .note _ => none
  | .wall w => some (.ofWall e.time w)

/-- the level of a difficulty -/
def build (events : List Event) (d : Difficulty) (tempo : Float) : Level :=
  let chosen := events.filter (·.difficulties.contains d)
  { empty tempo with targets := chosen.filterMap target?, barriers := chosen.filterMap barrier? }

end Level

namespace LevelSet

/-- why a song cannot be exported -/
inductive Fault where
  | missingTempo
  deriving DecidableEq, Repr

def Fault.message : Fault → String
  | .missingTempo => "no bpm set; add a bpm directive before exporting"

/-- what the manifest says about a level -/
def entry (song : Song) (audioPath : String) (d : Difficulty) : Manifest.Entry :=
  ⟨d, d.rank, audioPath, Level.fileName d, song.offset, song.offset⟩

/-- the levels with at least one note, in rank order -/
def levelsOf (events : List Event) (tempo : Float) : List (Difficulty × Level) :=
  (Difficulty.all.map fun d => (d, Level.build events d tempo)).filter fun (_, level) => !level.targets.isEmpty

/-- the manifest and the levels of a song -/
def build (events : List Event) (song : Song) (audioPath : String) (cover : Option String) : Except Fault LevelSet :=
  match song.tempo with
  | none => .error .missingTempo
  | some tempo =>
    let levels := levelsOf events tempo
    let manifest : Manifest :=
      ⟨song.title.getD "", song.subtitle.getD "", song.author.getD "", tempo, 0, 0, cover, .standard,
        levels.map fun (d, _) => entry song audioPath d⟩
    .ok ⟨manifest, levels⟩

end LevelSet

end RhythmChart
