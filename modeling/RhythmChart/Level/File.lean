/-
The files of a song: manifest and levels as JSON, written and read.

Records are written with their keys in a fixed order; a manifest without a cover has no key for it. Reading takes
the keys in any order and skips others (`Json.Value.fields?`).
-/
import RhythmChart.Json.Decode
import RhythmChart.Level.Model

namespace RhythmChart

open Json (Value)

/-! ## Levels -/

namespace Level

namespace Light

def keys : List String := ["_time", "_type", "_value"]

def toValue (l : Light) : Value :=
  .record [("_time", .float l.time), ("_type", .integer l.kind.toInt), ("_value", .integer l.value.toInt)]

def ofValue? (v : Value) : Option Light := do
  let [some time, some kind, some value] ← v.fields? keys | none
  return ⟨← time.float?, ← kind.int?, ← value.int?⟩

end Light

namespace Target

def keys : List String := ["_time", "_lineIndex", "_lineLayer", "_type", "_cutDirection"]

def toValue (t : Target) : Value :=
  .record [("_time", .float t.time), ("_lineIndex", .natural t.lineIndex.toNat),
    ("_lineLayer", .natural t.lineLayer.toNat), ("_type", .natural t.kind.toNat),
    ("_cutDirection", .natural t.cutDirection.toNat)]

def ofValue? (v : Value) : Option Target := do
  let [some time, some index, some layer, some kind, some cut] ← v.fields? keys | none
  return ⟨← time.float?, ← index.byte?, ← layer.byte?, ← kind.byte?, ← cut.byte?⟩

end Target

namespace Barrier

def keys : List String := ["_time", "_lineIndex", "_type", "_duration", "_width"]

def toValue (b : Barrier) : Value :=
  .record [("_time", .float b.time), ("_lineIndex", .natural b.lineIndex.toNat), ("_type", .natural b.kind.toNat),
    ("_duration", .float b.duration), ("_width", .natural b.width.toNat)]

def ofValue? (v : Value) : Option Barrier := do
  let [some time, some index, some kind, some duration, some width] ← v.fields? keys | none
  return ⟨← time.float?, ← index.byte?, ← kind.byte?, ← duration.float?, ← width.byte?⟩

end Barrier

def keys : List String :=
  ["_version", "_beatsPerMinute", "_beatsPerBar", "_noteJumpSpeed", "_shuffle", "_shufflePeriod", "_events", "_notes",
   "_obstacles"]

def toValue (l : Level) : Value :=
  .record [("_version", .text l.version), ("_beatsPerMinute", .float l.tempo),
    ("_beatsPerBar", .natural l.beatsPerBar.toNat), ("_noteJumpSpeed", .float l.noteJumpSpeed),
    ("_shuffle", .natural l.shuffle.toNat), ("_shufflePeriod", .float l.shufflePeriod),
    ("_events", .array (l.lights.map Light.toValue)), ("_notes", .array (l.targets.map Target.toValue)),
    ("_obstacles", .array (l.barriers.map Barrier.toValue))]

def ofValue? (v : Value) : Option Level := do
  let [some version, some tempo, some bar, some speed, some shuffle, some period, some lights, some targets,
    some barriers] ← v.fields? keys | none
  return ⟨← version.text?, ← tempo.float?, ← bar.word?, ← speed.float?, ← shuffle.word?, ← period.float?,
    ← lights.list? Light.ofValue?, ← targets.list? Target.ofValue?, ← barriers.list? Barrier.ofValue?⟩

/-- the text of a level's file -/
def fileText (l : Level) : String := .ofList l.toValue.render

/-- the level in a file -/
def ofFile? (text : String) : Option Level := do ofValue? (← Value.read? text.toList)

end Level

/-! ## Manifests -/

namespace Manifest

namespace Entry

def keys : List String := ["difficulty", "difficultyRank", "audioPath", "jsonPath", "offset", "oldOffset"]

def toValue (e : Entry) : Value :=
  .record [("difficulty", .text e.difficulty.name), ("difficultyRank", .natural e.rank.toNat),
    ("audioPath", .text e.audioPath), ("jsonPath", .text e.levelPath), ("offset", .float e.offset),
    ("oldOffset", .float e.oldOffset)]

def ofValue? (v : Value) : Option Entry := do
  let [some difficulty, some rank, some audio, some level, some offset, some oldOffset] ← v.fields? keys | none
  return ⟨← difficulty.choice? Difficulty.ofName?, ← rank.byte?, ← audio.text?, ← level.text?, ← offset.float?,
    ← oldOffset.float?⟩

end Entry

def keys : List String :=
  ["songName", "songSubName", "authorName", "beatsPerMinute", "previewStartTime", "previewDuration", "coverImagePath",
   "environmentName", "difficultyLevels"]

/-- the member for the cover, if there is one -/
def coverMember (m : Manifest) : List (String × Value) :=
  match m.cover with
  | some cover => [("coverImagePath", .text cover)]
  | none => []

def toValue (m : Manifest) : Value :=
  .record ([("songName", .text m.title), ("songSubName", .text m.subtitle), ("authorName", .text m.author),
    ("beatsPerMinute", .float m.tempo), ("previewStartTime", .float m.previewStart),
    ("previewDuration", .float m.previewDuration)] ++ m.coverMember ++
    [("environmentName", .text m.environment.name), ("difficultyLevels", .array (m.entries.map Entry.toValue))])

def ofValue? (v : Value) : Option Manifest := do
  let [some title, some subtitle, some author, some tempo, some start, some duration, cover, some environment,
    some entries] ← v.fields? keys | none
  return ⟨← title.text?, ← subtitle.text?, ← author.text?, ← tempo.float?, ← start.float?, ← duration.float?,
    ← (cover.getD .null).nullable? Value.text?, ← environment.choice? Environment.ofName?,
    ← entries.list? Entry.ofValue?⟩

/-- the text of a manifest's file -/
def fileText (m : Manifest) : String := .ofList m.toValue.render

/-- the manifest in a file -/
def ofFile? (text : String) : Option Manifest := do ofValue? (← Value.read? text.toList)

end Manifest

end RhythmChart
