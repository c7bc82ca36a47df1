/-
The settings in a file: one that is named must be there, the one in the user's directory is used if it exists, and
without either the standard dialect applies.
-/
import RhythmChart.Settings
import RhythmChart.Storage.Host

namespace RhythmChart.Settings

open Storage (Path Host Fault)

/-- why there is no dialect -/
inductive Error where
  | unreadable (file : Path) (fault : Fault)
  | malformed (file : Path)
  | ambiguous (fault : Alphabet.Fault)
  deriving DecidableEq

/-- the error, then what caused it -/
def Error.texts : Error → List String
  | unreadable file fault => ["failed to read " ++ file ++ ": " ++ fault.message, fault.message]
  | malformed file => ["invalid YAML in " ++ file]
  | ambiguous fault => [fault.message]

/-- the file in a user's directory -/
def userFile (home : Path) : Path := Path.join (Path.join home ".textsaber") "notation.yaml"

variable {m : Type → Type} [Monad m] [Host m]

/-- the settings in a file -/
def load (file : Path) : ExceptT Error m Settings := do
  let text ← Host.attempt (.unreadable file) (Host.readText file)
  match ofYaml? text with
  | some settings => return settings
  | none => throw (.malformed file)

/-- the settings of the user, if there are any -/
def loadUser : ExceptT Error m Settings := do
  match ← Host.ask Host.home? with
  | none => return standard
  | some home =>
    if ← Host.ask (Host.exists? (userFile home)) then load (userFile home) else return standard

/-- the dialect that a named file or else the user sets -/
def resolve (file : Option Path) : ExceptT Error m Dialect := do
  let settings ← match file with
    | some file => load file
    | none => loadUser
  Host.given .ambiguous settings.dialect

end RhythmChart.Settings
