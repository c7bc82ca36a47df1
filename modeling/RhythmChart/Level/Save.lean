/-
Saving the levels of a song: the manifest first, then each level in its file.
-/
import RhythmChart.Level.Build
import RhythmChart.Level.File
import RhythmChart.Storage.Host

namespace RhythmChart

open Storage (Path Host)

namespace Manifest

/-- the file of the manifest -/
def fileName : String := "info.json"

end Manifest

namespace LevelSet

/-- a file or directory that could not be written, and why -/
structure Unwritten where
  path : Path
  fault : Storage.Fault
  deriving DecidableEq, Repr

namespace Unwritten

def message (u : Unwritten) : String := "failed to write " ++ u.path ++ ": " ++ u.fault.message

/-- the error, then what caused it -/
def texts (u : Unwritten) : List String := [u.message, u.fault.message]

end Unwritten

/-- the names and texts of the files -/
def files (s : LevelSet) : List (String × String) :=
  (Manifest.fileName, s.manifest.fileText) :: s.levels.map fun (d, level) => (Level.fileName d, level.fileText)

variable {m : Type → Type} [Monad m] [Host m]

/-- write texts into a directory; the result is the paths -/
def writeFiles (dir : Path) : List (String × String) → ExceptT Unwritten m (List Path)
  | [] => return []
  | (name, text) :: rest => do
    let path := Path.join dir name
    Host.attempt (Unwritten.mk path) (Host.writeText path text)
    return path :: (← writeFiles dir rest)

/-- write the files into a directory, which is made if it is not there; the result is their paths -/
def save (dir : Path) (s : LevelSet) : ExceptT Unwritten m (List Path) := do
  Host.attempt (Unwritten.mk dir) (Host.makeDirectories dir)
  writeFiles dir s.files

end LevelSet

end RhythmChart
