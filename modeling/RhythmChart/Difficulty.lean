/-
The five difficulties, and sets of them as the bits of a byte.

A set of difficulties has one bit for each rank; the three bits above the ranks may be set and mean nothing.
-/
namespace RhythmChart

/-- a difficulty a level can have -/
inductive Difficulty where
  | easy | normal | hard | expert | expertPlus
  deriving DecidableEq, Repr

namespace Difficulty

/-- every difficulty, in rank order -/
def all : List Difficulty := [easy, normal, hard, expert, expertPlus]

/-- the place of a difficulty in `all` -/
def rank : Difficulty → UInt8
  | easy => 0
  | normal => 1
  | hard => 2
  | expert => 3
  | expertPlus => 4

/-- the name that files and manifests use -/
def name : Difficulty → String
  | easy => "Easy"
  | normal => "Normal"
  | hard => "Hard"
  | expert => "Expert"
  | expertPlus => "ExpertPlus"

/-- the difficulty with a name -/
def ofName? (name : String) : Option Difficulty := all.find? (·.name = name)

/-- the bit of a difficulty -/
def bit (d : Difficulty) : UInt8 := 1 <<< d.rank

end Difficulty

/-- a set of difficulties -/
structure Difficulties where
  bits : UInt8
  deriving DecidableEq, Repr

namespace Difficulties

/-- no difficulty -/
def none : Difficulties := ⟨0⟩

/-- every difficulty -/
def all : Difficulties := ⟨31⟩

instance : Inhabited Difficulties := ⟨all⟩

/-- one difficulty -/
def only (d : Difficulty) : Difficulties := ⟨d.bit⟩

/-- whether a difficulty is in the set -/
def contains (s : Difficulties) (d : Difficulty) : Bool := s.bits &&& d.bit != 0

/-- the set and one more difficulty -/
def insert (s : Difficulties) (d : Difficulty) : Difficulties := ⟨s.bits ||| d.bit⟩

theorem all_contains (d : Difficulty) : all.contains d = true := by cases d <;> decide

end Difficulties

end RhythmChart
