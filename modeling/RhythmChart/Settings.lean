/-
Settings: the dialect of charts as a user writes it down, in YAML.

Every setting may be left out and then has its standard value, so an empty document is the standard dialect. Other
keys are skipped, but a setting given twice is an error. A text or character is taken as it stands, also when it
looks like a number; a yes or no must be a plain `true` or `false`.
-/
import RhythmChart.Dialect
import RhythmChart.Yaml.Document

namespace RhythmChart

/-- the settings of a dialect -/
structure Settings where
  positions : Option (List Char)
  directions : Option (List Char)
  bomb : Option Char
  opening : Option Char
  closing : Option Char
  strict : Bool
  deriving DecidableEq, Repr

namespace Settings

/-- no setting is given -/
def standard : Settings := ⟨none, none, none, none, none, false⟩

instance : Inhabited Settings := ⟨standard⟩

/-- the dialect of the settings -/
def dialect (s : Settings) : Except Alphabet.Fault Dialect := do
  let std := Alphabet.standard
  let alphabet ← Alphabet.make (s.positions.getD std.positions) (s.directions.getD std.directions)
    (s.bomb.getD std.bomb) (s.opening.getD std.opening) (s.closing.getD std.closing)
  return ⟨alphabet, s.strict⟩

/-! ## Reading -/

/-- the words for an absent value -/
def absentTexts : List (List Char) := ["~".toList, "null".toList, "Null".toList, "NULL".toList]

/-- the tag of an absent value -/
def absentTag : List Char := "tag:yaml.org,2002:null".toList

/-- the tag of a yes or no -/
def flagTag : List Char := "tag:yaml.org,2002:bool".toList

/-- a text or nothing; only what is plain can be nothing, and with the tag of an absent value it must be -/
def text? (s : Yaml.Scalar) : Option (Option (List Char)) :=
  if s.style ≠ .plain then some (some s.text)
  else match s.tag with
    | none => some (if s.text.isEmpty || absentTexts.contains s.text then none else some s.text)
    | some tag =>
      if tag ≠ absentTag then some (some s.text)
      else if absentTexts.contains s.text then some none
      else none

/-- a character or nothing -/
def character? (s : Yaml.Scalar) : Option (Option Char) :=
  match text? s with
  | some (some [c]) => some (some c)
  | some none => some none
  | _ => none

/-- a yes or no; plain, or a block of lines with the tag for it -/
def flag? (s : Yaml.Scalar) : Option Bool :=
  if s.style = .plain ∨ (s.style = .literal ∧ s.tag = some flagTag) then
    if ["true".toList, "True".toList, "TRUE".toList].contains s.text then some true
    else if ["false".toList, "False".toList, "FALSE".toList].contains s.text then some false
    else none
  else none

/-- what a document can set -/
inductive Key where
  | positions | directions | bomb | opening | closing | strict
  deriving DecidableEq, Repr

/-- the text of a key -/
def Key.text : Key → String
  | positions => "positions"
  | directions => "directions"
  | bomb => "bomb"
  | opening => "obstacle_open"
  | closing => "obstacle_close"
  | strict => "strict_directions"

def Key.all : List Key := [.positions, .directions, .bomb, .opening, .closing, .strict]

/-- the setting that a key names -/
def Key.ofText? (text : List Char) : Option Key := Key.all.find? fun k => k.text.toList = text

/-- the settings after one more is read -/
def set? (s : Settings) (value : Yaml.Scalar) : Key → Option Settings
  | .positions => (text? value).map fun v => { s with positions := v }
  | .directions => (text? value).map fun v => { s with directions := v }
  | .bomb => (character? value).map fun v => { s with bomb := v }
  | .opening => (character? value).map fun v => { s with opening := v }
  | .closing => (character? value).map fun v => { s with closing := v }
  | .strict => (flag? value).map fun v => { s with strict := v }

/-- the settings after the pairs of a mapping in a document; `seen` are the keys before -/
def readPairs (d : Yaml.Document) : (seen : List Key) → Settings → List (Yaml.Node × Yaml.Node) → Option Settings
  | _, s, [] => some s
  | seen, s, (key, value) :: rest =>
    match d.scalar? key with
    | none => none
    | some name =>
      match Key.ofText? name.text with
      | none => readPairs d seen s rest
      | some key =>
        if key ∈ seen then none
        else match (d.scalar? value).bind (set? s · key) with
          | some s => readPairs d (key :: seen) s rest
          | none => none

/-- the settings of a document -/
def ofDocument? (d : Yaml.Document) : Option Settings :=
  match d.root with
  | .scalar s => if s.style = .plain ∧ s.text = [] then some standard else none
  | .mapping pairs => readPairs d [] standard pairs
  | _ => none

/-- the settings in a text -/
def ofYaml? (text : String) : Option Settings :=
  match Yaml.Document.ofText? text.toList with
  | none => none
  | some none => some standard
  | some (some d) => ofDocument? d

end Settings

end RhythmChart
