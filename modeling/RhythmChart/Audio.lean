/-
What has to happen to the audio of a song.

An Ogg file that needs no silence in front is copied. Anything else is transcoded, with the silence of the song put
before it. The plan is made from the song alone; the arguments of the encoder follow from the plan.
-/
import RhythmChart.Decimal.Layout
import RhythmChart.Song
import RhythmChart.Storage.Path

namespace RhythmChart.Audio

open Storage (Path)

/-- how the audio gets into place -/
inductive Plan where
  | copy (source : Path)
  /-- `leadIn` is silence in seconds -/
  | transcode (source : Path) (leadIn : Option Float)
  deriving DecidableEq

namespace Plan

/-- the file the audio comes from -/
def source : Plan → Path
  | copy source => source
  | transcode source _ => source

/-- the silence put before the audio -/
def leadIn : Plan → Option Float
  | copy _ => none
  | transcode _ leadIn => leadIn

/-- whether an encoder is needed -/
def needsEncoder : Plan → Bool
  | copy _ => false
  | transcode .. => true

/-- whether the extension of a path is `ogg`, in any case -/
def isOgg (p : Path) : Bool := (Path.extension? p).any fun extension => extension.map Char.toLower = ['o', 'g', 'g']

/-- the plan for a song; none when it has no audio -/
def ofSong? (s : Song) : Option Plan :=
  s.audioFile.map fun source =>
    if s.leadIn > 0 then transcode source (some s.leadIn)
    else if isOgg source then copy source
    else transcode source none

/-- the plan with its source seen from a directory -/
def relativeTo (dir : Path) : Plan → Plan
  | copy source => copy (Path.join dir source)
  | transcode source leadIn => transcode (Path.join dir source) leadIn

end Plan

/-- the file of the prepared audio -/
def fileName : String := "song.ogg"

/-- the arguments with which an encoder writes `dest` -/
def encoderArguments (source : Path) (leadIn : Option Float) (dest : Path) : List String :=
  ["-y", "-hide_banner", "-loglevel", "error"] ++
    (match leadIn with
      | some seconds =>
        ["-f", "lavfi", "-t", .ofList (Layout.plain.text seconds), "-i",
          "anullsrc=channel_layout=stereo:sample_rate=44100", "-i", source,
          "-filter_complex", "[0:a][1:a]concat=n=2:v=0:a=1[a]", "-map", "[a]"]
      | none => ["-i", source, "-vn"]) ++
    ["-codec:a", "libvorbis", "-b:a", "192k", dest]

end RhythmChart.Audio
