/-
A machine as a value: a tree of files, the directory where commands run, and where programs are looked for.

Every operation of a host is a function of the machine. Reading changes nothing; the others change the tree only.
-/
import RhythmChart.Storage.Host

namespace RhythmChart.Storage

structure Machine where
  files : FileSystem
  /-- the directory that paths are followed from -/
  here : Place
  /-- the directory of the user -/
  home : Option Path
  /-- the directories in which programs are looked for, in this order -/
  searchPath : List Path

namespace Machine

/-- an operation on the tree; a failed one changes nothing -/
def change (op : FileSystem → Place → Except Fault FileSystem) : StateM Machine (Except Fault Unit) := fun w =>
  match op w.files w.here with
  | .ok files => (.ok (), { w with files })
  | .error f => (.error f, w)

/-- where a program with this name is found -/
def findProgram? (w : Machine) (name : String) : Option Path :=
  (w.searchPath.map (Path.join · name)).find? fun p => (w.files.program w.here p).toBool

/-- the program of the first path that has one; none of them could be run otherwise -/
def firstProgram (w : Machine) : (denied : Bool) → List Path → Except Fault Program
  | denied, [] => .error (if denied then .denied else .missing)
  | denied, p :: rest =>
    match w.files.program w.here p with
    | .ok program => .ok program
    | .error .denied => firstProgram w true rest
    | .error f => if rest.isEmpty && !denied then .error f else firstProgram w denied rest

/-- the program that a path names; without a slash it is looked for -/
def program (w : Machine) (p : Path) : Except Fault Program :=
  if p.toList.contains '/' then w.files.program w.here p
  else firstProgram w false (w.searchPath.map (Path.join · p))

/-- run a program -/
def run (p : Path) (arguments : List String) : StateM Machine (Except Fault Ending) := fun w =>
  match w.program p with
  | .error f => (.error f, w)
  | .ok program =>
    (.ok (program.ending arguments), { w with files := w.files.afterRun w.here program arguments })

instance : Host (StateM Machine) where
  read p := fun w => (w.files.read w.here p, w)
  exists? p := fun w => (w.files.exists? w.here p, w)
  isFile p := fun w => (w.files.isFile w.here p, w)
  isDirectory p := fun w => (w.files.isDirectory w.here p, w)
  makeDirectory p := change fun fs here => fs.makeDirectory here p
  write p content := change fun fs here => fs.write here p ⟨content, none⟩
  copy source dest := change fun fs here => fs.copy here source dest
  home? := fun w => (w.home, w)
  findProgram? name := fun w => (w.findProgram? name, w)
  run := run

end Machine

end RhythmChart.Storage
