/-
Getting the audio of a song into place.

The source must be there. It is copied, or an encoder makes the song's audio of it: the one that is named, or else
the one found under its usual name. An encoder that ends with a status other than zero, or is killed, has failed.
-/
import RhythmChart.Audio
import RhythmChart.Storage.Host
import RhythmChart.Text.Blank
import RhythmChart.Text.Integer
import RhythmChart.Text.Lossy

namespace RhythmChart.Audio

open Storage (Path Host Fault Ending)

/-- why the audio is not in place -/
inductive Error where
  | encoderNotFound
  | encoderMissing (encoder : Path)
  | sourceMissing (source : Path)
  | notCopied (source dest : Path) (fault : Fault)
  | notStarted (fault : Fault)
  /-- the encoder has no status when it was killed -/
  | encoderFailed (status : Option UInt8) (complaint : String)
  deriving DecidableEq, Repr

namespace Error

/-- the number that a message gives for a status -/
def code : Option UInt8 → String
  | some status => .ofList (Text.digitsOf status.toNat)
  | none => "-1"

def message : Error → String
  | encoderNotFound => "ffmpeg not found; install it or pass --ffmpeg"
  | encoderMissing encoder => "ffmpeg path " ++ encoder ++ " does not exist"
  | sourceMissing source => "audio file " ++ source ++ " does not exist"
  | notCopied source dest fault => "failed to copy " ++ source ++ " to " ++ dest ++ ": " ++ fault.message
  | notStarted fault => "failed to start ffmpeg: " ++ fault.message
  | encoderFailed status complaint => "ffmpeg exited with code " ++ code status ++ ": " ++ complaint

/-- the error, then what caused it -/
def texts (e : Error) : List String :=
  e.message :: match e with
    | notCopied _ _ fault => [fault.message]
    | _ => []

end Error

variable {m : Type → Type} [Monad m] [Host m]

/-- the encoder to use -/
def locateEncoder : Option Path → ExceptT Error m Path
  | some encoder => do
    if ← Host.ask (Host.exists? encoder) then return encoder else throw (.encoderMissing encoder)
  | none => do
    match ← Host.ask (Host.findProgram? "ffmpeg") with
    | some encoder => return encoder
    | none => throw .encoderNotFound

/-- what an encoder complained about, without the blanks around it -/
def complaint (e : Ending) : String := .ofList (Text.trim (Text.decodeLossy e.complaint).toList)

/-- let an encoder write `dest` -/
def transcode (encoder source : Path) (leadIn : Option Float) (dest : Path) : ExceptT Error m Unit := do
  let ending ← Host.attempt .notStarted (Host.run encoder (encoderArguments source leadIn dest))
  if ending.status ≠ some 0 then throw (.encoderFailed ending.status (complaint ending))

/-- do what a plan says, in a directory; the result is the file -/
def prepare (plan : Plan) (dir : Path) (encoder : Option Path) : ExceptT Error m Path := do
  let dest := Path.join dir fileName
  if ← Host.ask (Host.exists? plan.source) then
    match plan with
    | .copy source => Host.attempt (.notCopied source dest) (Host.copy source dest)
    | .transcode source leadIn => transcode (← locateEncoder encoder) source leadIn dest
    return dest
  else throw (.sourceMissing plan.source)

end RhythmChart.Audio
