/-
Conversion: from a chart on a host to a directory of level files.

The chart is compiled and the levels are built before anything is changed, so a bad chart leaves nothing behind. Then
come the directory, the audio, the cover and, last, manifest and levels. The cover is the picture beside the chart
that has its name. The first error ends the conversion; `Error.texts` says what was tried and what caused the failure.
-/
import RhythmChart.Audio.Preparation
import RhythmChart.Compilation
import RhythmChart.Level.Save
import RhythmChart.Settings.File

namespace RhythmChart.Conversion

open Storage (Path Host Fault)

/-- what is to be converted, and how -/
structure Options where
  chart : Path
  out : Path
  settings : Option Path
  encoder : Option Path
  skipAudio : Bool
  deriving DecidableEq, Repr

/-- what a conversion made -/
structure Summary where
  frames : Nat
  notes : Nat
  walls : Nat
  difficulties : List Difficulty
  audio : Option Path
  cover : Option Path
  written : List Path
  deriving DecidableEq, Repr

/-- why a conversion failed -/
inductive Error where
  | settings (e : Settings.Error)
  | unreadable (chart : Path) (fault : Fault)
  | uncompiled (chart : Path) (e : Compilation.Error)
  | unbuilt (fault : LevelSet.Fault)
  | noDirectory (out : Path) (fault : Fault)
  | audio (source : Path) (e : Audio.Error)
  | coverNotCopied (cover : Path) (fault : Fault)
  | unwritten (u : LevelSet.Unwritten)

/-- the error, then what caused it -/
def Error.texts : Error → List String
  | settings e => "failed to load notation config" :: e.texts
  | unreadable chart fault => ["failed to read " ++ chart, fault.message]
  | uncompiled chart (.unread e) => ["failed to parse " ++ chart, e.message]
  | uncompiled chart (.unperformed e) => ["failed to expand " ++ chart, e.message]
  | unbuilt fault => [fault.message]
  | noDirectory out fault => ["failed to create " ++ out, fault.message]
  | audio source e => ("failed to prepare audio " ++ source) :: e.texts
  | coverNotCopied cover fault => ["failed to copy cover " ++ cover, fault.message]
  | unwritten u => u.texts

/-- the file of the cover -/
def coverName : String := "cover.jpg"

/-- the picture beside a chart -/
def coverOf (chart : Path) : Path := Path.withExtension chart "jpg"

/-- the audio of a song beside a chart -/
def audioPlan? (chart : Path) (song : Song) : Option Audio.Plan :=
  (Audio.Plan.ofSong? song).map fun plan =>
    match Path.parent? chart with
    | some dir => plan.relativeTo dir
    | none => plan

variable {m : Type → Type} [Monad m] [Host m]

/-- get the audio into place, if the song has any -/
def prepareAudio (o : Options) (song : Song) : ExceptT Error m (Option Path) := do
  match audioPlan? o.chart song with
  | none => return none
  | some plan => return some (← Host.attempt (.audio plan.source) (Audio.prepare plan o.out o.encoder))

/-- copy the cover, if there is one -/
def copyCover (o : Options) : ExceptT Error m (Option Path) := do
  let cover := coverOf o.chart
  let dest := Path.join o.out coverName
  if ← Host.ask (Host.isFile cover) then
    Host.attempt (.coverNotCopied cover) (Host.copy cover dest)
    return some dest
  else return none

/-- what a chart comes to, with the levels built from it -/
def build (o : Options) : ExceptT Error m (Compilation × LevelSet) := do
  let dialect ← Host.attempt .settings (Settings.resolve o.settings)
  let text ← Host.attempt (.unreadable o.chart) (Host.readText o.chart)
  let c ← Host.given (.uncompiled o.chart) (compile dialect text)
  let hasCover ← Host.ask (Host.isFile (coverOf o.chart))
  let cover := if hasCover then some coverName else none
  let set ← Host.given .unbuilt (LevelSet.build c.events c.song Audio.fileName cover)
  return (c, set)

/-- convert a chart -/
def convert (o : Options) : ExceptT Error m Summary := do
  let (c, set) ← build o
  Host.attempt (.noDirectory o.out) (Host.makeDirectories o.out)
  let audio ← if o.skipAudio then pure none else prepareAudio o c.song
  let cover ← copyCover o
  let written ← Host.attempt .unwritten (set.save o.out)
  let notes := c.events.countP Event.isNote
  return ⟨c.frames.length, notes, c.events.length - notes, set.levels.map (·.1), audio, cover, written⟩

end RhythmChart.Conversion
