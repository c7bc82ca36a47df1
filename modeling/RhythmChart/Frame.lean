/-
Frames: what one line of a chart says.

A frame holds the directives of its line and the notes and walls placed on it. It carries no time; a performance
stamps copies of its contents. Directives map keys to values, and a key set again keeps its last value
(`get?_set`).
-/
import RhythmChart.Playfield
import RhythmChart.Difficulty

namespace RhythmChart

/-- a hit target or a bomb on the playfield -/
structure Note where
  x : UInt8
  y : UInt8
  color : Color
  direction : Option Direction
  difficulties : Difficulties
  deriving DecidableEq, Repr

namespace Note

/-- a note that has to be cut in a direction -/
def cut (p : Position) (d : Direction) : Note := ⟨p.x, p.y, p.color, some d, .all⟩

/-- a bomb in the cell of a position, whose color does not matter -/
def bomb (p : Position) : Note := ⟨p.x, p.y, .bomb, none, .all⟩

end Note

/-- a wall over the rectangle between two corner cells, kept as written; `length` is its duration -/
structure Wall where
  x1 : UInt8
  y1 : UInt8
  x2 : UInt8
  y2 : UInt8
  length : Float
  difficulties : Difficulties
  deriving DecidableEq

namespace Wall

/-- the wall between two positions, whose colors do not matter -/
def between (a b : Position) (length : Float) : Wall := ⟨a.x, a.y, b.x, b.y, length, .all⟩

/-- the leftmost column -/
def leftmost (w : Wall) : UInt8 := min w.x1 w.x2

/-- the number of columns -/
def width (w : Wall) : UInt8 := max w.x1 w.x2 - min w.x1 w.x2 + 1

/-- the lowest row -/
def lowest (w : Wall) : UInt8 := min w.y1 w.y2

end Wall

/-- something put on the playfield -/
inductive Placement where
  | note (n : Note)
  | wall (w : Wall)
  deriving DecidableEq

namespace Placement

def note? : Placement → Option Note
  | note n => some n
  | wall _ => none

def wall? : Placement → Option Wall
  | note _ => none
  | wall w => some w

/-- the difficulties it appears in -/
def difficulties : Placement → Difficulties
  | note n => n.difficulties
  | wall w => w.difficulties

end Placement

/-- the directives of a line; a key has at most one entry when they are built by `set` -/
structure Directives where
  entries : List (String × String)
  deriving DecidableEq, Repr

namespace Directives

/-- no directives -/
def empty : Directives := ⟨[]⟩

/-- the value of a key -/
def get? (ds : Directives) (key : String) : Option String := ds.entries.lookup key

/-- put a value under a key, in place of an earlier one -/
def setIn (key value : String) : List (String × String) → List (String × String)
  | [] => [(key, value)]
  | (k, v) :: rest => if k = key then (key, value) :: rest else (k, v) :: setIn key value rest

/-- give a key a value, in place of an earlier one -/
def set (ds : Directives) (key value : String) : Directives := ⟨setIn key value ds.entries⟩

/-- whether there are none -/
def isEmpty (ds : Directives) : Bool := ds.entries.isEmpty

theorem get?_set (ds : Directives) (key value k : String) :
    (ds.set key value).get? k = if k = key then some value else ds.get? k := by
  obtain ⟨entries⟩ := ds
  simp only [get?, set]
  induction entries with
  | nil =>
    by_cases h : k = key
    · simp [setIn, h]
    · have hne : (k == key) = false := by simpa using h
      simp [setIn, List.lookup_cons, hne, h]
  | cons e rest ih =>
    obtain ⟨k', v'⟩ := e
    unfold setIn
    by_cases h : k' = key
    · by_cases hk : k = key
      · simp [h, hk]
      · have hne : (k == key) = false := by simpa using hk
        simp [h, List.lookup_cons, hne, hk]
    · by_cases hk : k = k'
      · subst hk
        simp [h]
      · have hne : (k == k') = false := by simpa using hk
        simp [h, List.lookup_cons, hne, ih]

end Directives

/-- one line of a chart; `line` counts from one -/
structure Frame where
  line : Nat
  directives : Directives
  notes : List Note
  walls : List Wall
  deriving DecidableEq

namespace Frame

/-- the raw value of a directive -/
def directive? (f : Frame) (key : String) : Option String := f.directives.get? key

/-- whether the line places nothing and sets no directive -/
def isEmpty (f : Frame) : Bool := f.directives.isEmpty && f.notes.isEmpty && f.walls.isEmpty

end Frame

end RhythmChart
