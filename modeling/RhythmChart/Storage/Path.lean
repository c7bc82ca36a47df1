/-
Paths as texts.

A path is a list of names between slashes; empty names and the name `.` count for nothing, except that a path may
begin with `.`. Everything here looks at the text alone. `join` puts a path behind a directory, `parent?` drops the
last name, and the extension of a name is what follows its last point, unless that point begins the name.
-/
import RhythmChart.Text.Split

namespace RhythmChart.Storage

/-- the text of a path -/
abbrev Path := String

namespace Path

/-- whether a path starts at the root -/
def isAbsolute (p : Path) : Bool := p.toList.head? = some '/'

/-- a path seen from a directory -/
def join (dir p : Path) : Path :=
  if isAbsolute p then p
  else if dir.toList.getLast?.all (· = '/') then dir ++ p
  else dir ++ "/" ++ p

/-- what stands before the names: the root, a first `.`, or nothing -/
def lead (p : List Char) : List Char :=
  match p with
  | '/' :: _ => ['/']
  | ['.'] => ['.']
  | '.' :: '/' :: _ => ['.']
  | _ => []

/-- a reversed text without the empty names and the names `.` at its end; `fuel` bounds their count -/
def settle : Nat → List Char → List Char
  | 0, rev => rev
  | fuel + 1, rev =>
    let name := rev.takeWhile (· ≠ '/')
    if rev.isEmpty then []
    else if name = [] ∨ name = ['.'] then settle fuel ((rev.drop name.length).drop 1)
    else rev

/-- the names of a path, reversed, from its last name on -/
def reversedNames (p : List Char) : List Char := settle p.length (p.drop (lead p).length).reverse

/-- the last name, unless it is `..` or there is none -/
def fileName? (p : Path) : Option (List Char) :=
  let name := ((reversedNames p.toList).takeWhile (· ≠ '/')).reverse
  if name = [] ∨ name = ['.', '.'] then none else some name

/-- a name cut at its last point; none when that point is the first character or there is none -/
def cutExtension? (name : List Char) : Option (List Char × List Char) :=
  let extension := (name.reverse.takeWhile (· ≠ '.')).reverse
  let stem := name.take (name.length - extension.length - 1)
  if extension.length = name.length ∨ stem = [] then none else some (stem, extension)

/-- the extension of the last name -/
def extension? (p : Path) : Option (List Char) := (fileName? p).bind fun name => (cutExtension? name).map (·.2)

/-- the path without its last name -/
def parent? (p : Path) : Option Path :=
  let cs := p.toList
  match reversedNames cs with
  | [] => if lead cs = ['.'] then some "" else none
  | names =>
    let rest := (names.dropWhile (· ≠ '/')).drop 1
    some (.ofList (lead cs ++ (settle rest.length rest).reverse))

/-- a path and the directories above it, up to `count` in all -/
def ancestors : (count : Nat) → Path → List Path
  | 0, _ => []
  | count + 1, p =>
    match parent? p with
    | some above => p :: ancestors count above
    | none => [p]

/-- the path with another extension of its last name -/
def withExtension (p : Path) (extension : String) : Path :=
  match fileName? p with
  | none => p
  | some name =>
    let cs := p.toList
    let dropped := match cutExtension? name with
      | some (_, old) => old.length + 1
      | none => 0
    .ofList (lead cs ++ ((reversedNames cs).drop dropped).reverse) ++ "." ++ extension

/-- what stands between the slashes -/
def pieces (p : Path) : List (List Char) :=
  let (first, rest) := Text.pieces '/' p.toList
  first :: rest

/-- the names a path goes through: `..` is kept, empty names and `.` are not -/
def names (p : Path) : List (List Char) := (pieces p).filter fun name => name ≠ [] && name ≠ ['.']

/-- whether a path can only be one of a directory, because it ends in a slash, `.` or `..` -/
def wantsDirectory (p : Path) : Bool := (pieces p).getLast?.any fun name => name = [] || name = ['.'] || name = ['.', '.']

/-- whether a path ends in `.` or `..`, slashes aside -/
def endsInDots (p : Path) : Bool :=
  ((pieces p).filter (· ≠ [])).getLast?.any fun name => name = ['.'] || name = ['.', '.']

end Path

end RhythmChart.Storage
