/-
What a command needs of the machine it runs on.

A host reads and changes files and directories and runs programs; each operation says why it failed. What can be
said with these operations alone is defined here once, for every host: texts of files, and directories with all
those above them.
-/
import RhythmChart.Storage.Fault
import RhythmChart.Storage.FileSystem

namespace RhythmChart.Storage

/-- the operations of a host -/
class Host (m : Type → Type) where
  /-- the bytes of a file -/
  read : Path → m (Except Fault ByteArray)
  /-- whether a path leads to something -/
  exists? : Path → m Bool
  isFile : Path → m Bool
  isDirectory : Path → m Bool
  /-- a new directory in one that is there -/
  makeDirectory : Path → m (Except Fault Unit)
  /-- a file with these bytes, whatever it held before -/
  write : Path → ByteArray → m (Except Fault Unit)
  /-- the second file becomes a copy of the first -/
  copy : Path → Path → m (Except Fault Unit)
  /-- the directory of the user -/
  home? : m (Option Path)
  /-- where a program with this name is found -/
  findProgram? : String → m (Option Path)
  /-- how a program ended with these arguments; a path without a slash is searched for -/
  run : Path → List String → m (Except Fault Ending)

namespace Host

variable {m : Type → Type} [Monad m]

/-! ## Failing -/

/-- an answer, where an operation may fail -/
def ask {ε α : Type} (op : m α) : ExceptT ε m α := ExceptT.lift op

/-- the result of an operation, its error seen as another -/
def attempt {δ ε α : Type} (wrap : ε → δ) (op : m (Except ε α)) : ExceptT δ m α := do
  match ← ask op with
  | .ok a => return a
  | .error e => throw (wrap e)

/-- a result that is there already, its error seen as another -/
def given {δ ε α : Type} (wrap : ε → δ) : Except ε α → ExceptT δ m α
  | .ok a => return a
  | .error e => throw (wrap e)

/-! ## Texts and directories -/

variable [Host m]

/-- the text of a file -/
def readText (p : Path) : m (Except Fault String) := do
  match ← read p with
  | .error f => return .error f
  | .ok bytes =>
    match String.fromUTF8? bytes with
    | some text => return .ok text
    | none => return .error .notText

/-- a file with this text -/
def writeText (p : Path) (text : String) : m (Except Fault Unit) := write p text.toUTF8

/-- a directory that a failed attempt to make it may have found there -/
def orThere (p : Path) : Except Fault Unit → m (Except Fault Unit)
  | .ok () => return .ok ()
  | .error f => do return if ← isDirectory p then .ok () else .error f

/-- the first directory of a list in which each lies in the next, made after those it lies in -/
def makeChain : List Path → m (Except Fault Unit)
  | [] => return .ok ()
  | p :: above => do
    if p = "" then return .ok ()
    match ← makeDirectory p with
    | .error .missing =>
      match ← makeChain above with
      | .error f => return .error f
      | .ok () => orThere p (← makeDirectory p)
    | made => orThere p made

/-- a directory with all above it; those that are there stay as they are -/
def makeDirectories (p : Path) : m (Except Fault Unit) := makeChain (Path.ancestors (p.length + 1) p)

end Host

end RhythmChart.Storage
