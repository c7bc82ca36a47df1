/-
Trees of files as values.

A tree says what stands at each place, a place being the list of names that leads to it from the root. There are no
links, so one place has one name only, and two paths mean the same file just when they lead to the same place.
Paths are followed from a directory: everything a path goes through must be a directory that is there, also before
`..`. A walk remembers what lies at each step; `found?_walkTo` says that it meets what stands at its place. What may be
done with the place at the end depends on the operation.

A file may be a program. All that a program does is to answer its arguments: it can leave something in the file named
by the last of them, complain, and end.
-/
import RhythmChart.Storage.Fault
import RhythmChart.Storage.Path
import RhythmChart.Storage.Tree

namespace RhythmChart.Storage

/-- how a program ended; it has no status when it was killed -/
structure Ending where
  status : Option UInt8
  complaint : ByteArray

/-- what a program does with its arguments -/
structure Program where
  ending : List String → Ending
  /-- what it leaves in the file named by the last argument -/
  output : List String → Option ByteArray

structure File where
  content : ByteArray
  /-- what happens when the file is run; none if it cannot be -/
  program : Option Program

/-- what stands at a place -/
inductive Entry where
  | file (f : File)
  | directory

/-- the names passed from the root on, each with what lies there; the last one comes first -/
abbrev Walk := List (Name × Tree Entry)

namespace Walk

/-- where a walk has come to -/
def place (w : Walk) : Place := (w.map (·.1)).reverse

/-- what stands where a walk has come to -/
def found? : Walk → Option Entry
  | [] => some .directory
  | (_, t) :: _ => t.value

end Walk

/-- a tree of files; the root is always a directory -/
structure FileSystem where
  tree : Tree Entry

namespace FileSystem

/-- only the root -/
def empty : FileSystem := ⟨.empty⟩

/-- what stands at a place -/
def get? (fs : FileSystem) (p : Place) : Option Entry := if p = [] then some .directory else fs.tree.get? p

/-- the tree with an entry at a place -/
def put (fs : FileSystem) (p : Place) (e : Entry) : FileSystem := ⟨fs.tree.put e p⟩

/-- all that stands somewhere, with its place -/
def toList (fs : FileSystem) : List (Place × Entry) := fs.tree.toList

/-- whether nothing lies in a place -/
def isBare (fs : FileSystem) (p : Place) : Bool := (fs.tree.subtree p).branches.isEmpty

/-- `put` changes its place and no other -/
theorem get?_put (fs : FileSystem) {p : Place} (q : Place) (e : Entry) (h : p ≠ []) :
    (fs.put p e).get? q = if q = p then some e else fs.get? q := by
  by_cases hq : q = []
  · simp [get?, hq, Ne.symm h]
  · simp [get?, put, hq, Tree.get?_put]

/-! ## Walks -/

/-- what lies where a walk has come to -/
def reached (fs : FileSystem) : Walk → Tree Entry
  | [] => fs.tree
  | (_, t) :: _ => t

/-- a walk one name further -/
def pass (fs : FileSystem) (w : Walk) (name : Name) : Walk := (name, (fs.reached w).branch name) :: w

/-- the walk to a place -/
def walkTo (fs : FileSystem) (p : Place) : Walk := p.foldl fs.pass []

theorem walkTo_append (fs : FileSystem) (p : Place) (name : Name) :
    fs.walkTo (p ++ [name]) = fs.pass (fs.walkTo p) name := by
  simp [walkTo]

theorem place_foldl_pass (fs : FileSystem) (w : Walk) (p : Place) : (p.foldl fs.pass w).place = w.place ++ p := by
  induction p generalizing w with
  | nil => simp
  | cons name rest ih =>
    rw [List.foldl_cons, ih]
    simp [pass, Walk.place]

theorem place_walkTo (fs : FileSystem) (p : Place) : (fs.walkTo p).place = p := by
  rw [walkTo, place_foldl_pass]
  rfl

theorem reached_foldl_pass (fs : FileSystem) (w : Walk) (p : Place) :
    fs.reached (p.foldl fs.pass w) = (fs.reached w).subtree p := by
  induction p generalizing w with
  | nil => rfl
  | cons name rest ih => exact ih (fs.pass w name)

theorem tail_foldl_pass (fs : FileSystem) (w : Walk) (p : Place) (h : p ≠ []) :
    (p.foldl fs.pass w).tail = p.dropLast.foldl fs.pass w := by
  induction p generalizing w with
  | nil => exact absurd rfl h
  | cons name rest ih =>
    cases rest with
    | nil => rfl
    | cons next more => exact ih (fs.pass w name) (by simp)

/-- a walk without its last name is the walk to the directory above -/
theorem tail_walkTo (fs : FileSystem) (p : Place) : (fs.walkTo p).tail = fs.walkTo p.dropLast := by
  cases p with
  | nil => rfl
  | cons name rest => exact tail_foldl_pass fs [] (name :: rest) (by simp)

/-- a walk meets what stands at its place -/
theorem found?_walkTo (fs : FileSystem) (p : Place) : (fs.walkTo p).found? = fs.get? p := by
  have hr := reached_foldl_pass fs [] p
  have hp := place_foldl_pass fs [] p
  rw [walkTo, get?, Tree.get?]
  cases hw : p.foldl fs.pass [] with
  | nil =>
    have : p = [] := by simpa [hw, Walk.place] using hp.symm
    simp [this, Walk.found?]
  | cons step w =>
    have hne : p ≠ [] := by
      rintro rfl
      simp at hw
    rw [hw] at hr
    rw [if_neg hne, ← show fs.reached (step :: w) = fs.tree.subtree p from hr]
    rfl

/-! ## Following paths -/

/-- a path can be followed at all -/
def checkPath (p : Path) : Except Fault Unit :=
  if p.toList.contains '\x00' then .error .zeroInPath
  else if p = "" then .error .missing
  else if 4096 ≤ p.utf8ByteSize then .error .nameTooLong
  else .ok ()

/-- a walk with one more name of a path -/
def step (fs : FileSystem) (w : Walk) (name : Name) : Except Fault Walk :=
  if name = ['.', '.'] then .ok w.tail
  else if 255 < (String.ofList name).utf8ByteSize then .error .nameTooLong
  else .ok (fs.pass w name)

/-- the directory that names lead to -/
def enter (fs : FileSystem) : Walk → List Name → Except Fault Walk
  | w, [] => .ok w
  | w, name :: rest =>
    match fs.step w name with
    | .error f => .error f
    | .ok w =>
      match w.found? with
      | none => .error .missing
      | some (.file _) => .error .notADirectory
      | some .directory => enter fs w rest

/-- the directory that a path starts from -/
def origin (fs : FileSystem) (here : Place) (p : Path) : Walk := fs.walkTo (if Path.isAbsolute p then [] else here)

/-- the walk along a path, whether or not something stands at its end -/
def follow (fs : FileSystem) (here : Place) (p : Path) : Except Fault Walk := do
  checkPath p
  let names := Path.names p
  match names.getLast? with
  | none => return fs.origin here p
  | some name => fs.step (← fs.enter (fs.origin here p) names.dropLast) name

/-- the place a path leads to, whether or not something stands there -/
def locate (fs : FileSystem) (here : Place) (p : Path) : Except Fault Place := do return (← fs.follow here p).place

/-- what a path leads to -/
def find (fs : FileSystem) (here : Place) (p : Path) : Except Fault Entry := do
  match (← fs.follow here p).found? with
  | none => throw .missing
  | some (.file f) => if Path.wantsDirectory p then throw .notADirectory else return .file f
  | some .directory => return .directory

/-! ## Operations -/

/-- whether a path leads to something -/
def exists? (fs : FileSystem) (here : Place) (p : Path) : Bool := (fs.find here p).toBool

/-- whether a path leads to a file -/
def isFile (fs : FileSystem) (here : Place) (p : Path) : Bool :=
  match fs.find here p with
  | .ok (.file _) => true
  | _ => false

/-- whether a path leads to a directory -/
def isDirectory (fs : FileSystem) (here : Place) (p : Path) : Bool :=
  match fs.find here p with
  | .ok .directory => true
  | _ => false

/-- the bytes of a file -/
def read (fs : FileSystem) (here : Place) (p : Path) : Except Fault ByteArray := do
  match ← fs.find here p with
  | .file f => return f.content
  | .directory => throw .isADirectory

/-- the tree with a file; what the file held before is gone -/
def write (fs : FileSystem) (here : Place) (p : Path) (f : File) : Except Fault FileSystem := do
  let target ← fs.locate here p
  if Path.wantsDirectory p then throw .isADirectory
  match fs.get? target with
  | some .directory => throw .isADirectory
  | _ => return fs.put target (.file f)

/-- the tree with a new directory -/
def makeDirectory (fs : FileSystem) (here : Place) (p : Path) : Except Fault FileSystem := do
  if Path.endsInDots p then
    checkPath p
    discard (fs.enter (fs.origin here p) (Path.names p))
    throw .alreadyThere
  let target ← fs.locate here p
  match fs.get? target with
  | some _ => throw .alreadyThere
  | none => return fs.put target .directory

/-- the tree with a copy of a file. The copy is emptied before anything is taken from the source, so a file copied onto
itself is empty afterwards -/
def copy (fs : FileSystem) (here : Place) (source dest : Path) : Except Fault FileSystem := do
  match ← fs.find here source with
  | .directory => throw .notAFile
  | .file f =>
    let emptied ← fs.write here dest ⟨.empty, f.program⟩
    emptied.write here dest ⟨← emptied.read here source, f.program⟩

/-- the program that a path leads to -/
def program (fs : FileSystem) (here : Place) (p : Path) : Except Fault Program := do
  match ← fs.find here p with
  | .file ⟨_, some program⟩ => return program
  | _ => throw .denied

/-- the tree after a program was run: its output can be in the file named by the last argument -/
def afterRun (fs : FileSystem) (here : Place) (program : Program) (arguments : List String) : FileSystem :=
  match arguments.getLast?, program.output arguments with
  | some p, some content =>
    match fs.write here p ⟨content, none⟩ with
    | .ok fs => fs
    | .error _ => fs
  | _, _ => fs

end FileSystem

end RhythmChart.Storage
