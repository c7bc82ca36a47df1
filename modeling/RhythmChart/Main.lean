/-
The command on the machine it runs on.

Files and directories are those of the operating system. Programs are found but not started here, so a chart whose
audio needs an encoder cannot be converted by this command without `--skip-audio`.
-/
import RhythmChart.CommandLine

namespace RhythmChart.Main

open Storage (Path Fault Host Ending)

/-- why the operating system refused; error 21 is reported with either sign -/
def fault : IO.Error → Fault
  | .noFileOrDirectory .. => .missing
  | .permissionDenied .. => .denied
  | .alreadyExists .. => .alreadyThere
  | .inappropriateType _ code _ => if code = 21 || code = 0 - 21 then .isADirectory else .notADirectory
  | e => .other (toString e)

/-- the result of an action, or why it failed -/
def refused {α : Type} (action : IO α) : IO (Except Fault α) := do
  match ← action.toBaseIO with
  | .ok a => return .ok a
  | .error e => return .error (fault e)

/-- what a path leads to, seen from the directory the command runs in -/
def kind? (p : Path) : IO (Option IO.FS.FileType) := do
  if p = "" then return none
  match ← ((← IO.currentDir) / p).metadata.toBaseIO with
  | .ok found => return some found.type
  | .error _ => return none

/-- the directories in which programs are looked for -/
def searchPath : IO (List Path) := do
  match ← IO.getEnv "PATH" with
  | some dirs => return dirs.splitOn ":"
  | none => return []

/-- copy a file; the copy is emptied first -/
def copy (source dest : Path) : IO (Except Fault Unit) := do
  match ← kind? source with
  | none => return .error .missing
  | some .file => refused do
    IO.FS.writeBinFile dest .empty
    IO.FS.writeBinFile dest (← IO.FS.readBinFile source)
  | some _ => return .error .notAFile

instance : Host IO where
  read p := refused (IO.FS.readBinFile p)
  exists? p := do return (← kind? p).isSome
  isFile p := do return match ← kind? p with
    | some .file => true
    | _ => false
  isDirectory p := do return match ← kind? p with
    | some .dir => true
    | _ => false
  makeDirectory p := refused (IO.FS.createDir p)
  write p content := refused (IO.FS.writeBinFile p content)
  copy := copy
  home? := do return (← IO.getEnv "HOME").filter (· ≠ "")
  findProgram? name := do
    let paths := (← searchPath).map (Path.join · name)
    let files ← paths.filterM fun p => do return match ← kind? p with
      | some .file => true
      | _ => false
    return files.head?
  run _ _ := return .error (.other "Function not implemented (os error 38)")

end RhythmChart.Main

def main (arguments : List String) : IO UInt32 := do
  let outcome ← (RhythmChart.CommandLine.run arguments : IO RhythmChart.CommandLine.Outcome)
  IO.print outcome.output
  IO.eprint outcome.complaint
  return outcome.status.toUInt32
