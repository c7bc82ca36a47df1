/-
Dialects: an alphabet together with how strictly positions are read.
-/
import RhythmChart.Alphabet

namespace RhythmChart

/-- how charts are written -/
structure Dialect where
  alphabet : Alphabet
  /-- a position before any direction is an error instead of a bomb -/
  strict : Bool
  deriving DecidableEq

namespace Dialect

/-- the standard alphabet, read leniently -/
def standard : Dialect := ⟨.standard, false⟩

instance : Inhabited Dialect := ⟨standard⟩

end Dialect

end RhythmChart
