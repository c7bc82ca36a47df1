/-
Alphabets: the symbols of a chart, and what each of them means.

An alphabet has twenty-four position symbols, nine direction symbols, the bomb marker and the two brackets of a
wall. No two symbols are the same and none is a blank, so a character has at most one meaning. `Alphabet.make`
builds an alphabet from its parts exactly when they satisfy this, and otherwise tells the first fault.
-/
import RhythmChart.Text.Blank
import RhythmChart.Playfield

namespace RhythmChart

/-- what one symbol means -/
inductive Symbol where
  | bomb
  | opening
  | closing
  | direction (d : Direction)
  | position (p : Position)
  deriving DecidableEq, Repr

/-- the two parts of an alphabet that have a fixed length -/
inductive Alphabet.Part where
  | positions | directions
  deriving DecidableEq, Repr

namespace Alphabet.Part

def name : Part → String
  | positions => "positions"
  | directions => "directions"

/-- how many symbols a part has -/
def size : Part → Nat
  | positions => 24
  | directions => 9

end Alphabet.Part

/-- why symbols make no alphabet -/
inductive Alphabet.Fault where
  | wrongLength (part : Part) (found : Nat)
  | repeated (c : Char)
  | blank (c : Char)
  deriving DecidableEq, Repr

/-- a character between quotes: blanks other than the space are escaped -/
def Text.quotedBlank (c : Char) : String :=
  if c = ' ' then "' '"
  else if c = '\t' then "'\\t'"
  else if c = '\n' then "'\\n'"
  else if c = '\r' then "'\\r'"
  else "'\\u\x7b" ++ String.ofList (Nat.toDigits 16 c.toNat) ++ "\x7d'"

def Alphabet.Fault.message : Alphabet.Fault → String
  | .wrongLength part found =>
    part.name ++ " alphabet must have " ++ toString part.size ++ " characters, found " ++ toString found
  | .repeated c => "character '" ++ c.toString ++ "' is used more than once across the alphabets"
  | .blank c => "whitespace character " ++ Text.quotedBlank c ++ " cannot be a notation symbol"

/-- the first symbol that is a blank or stood before; `seen` holds the symbols before -/
def Alphabet.firstFault (seen : List Char) : List Char → Option Alphabet.Fault
  | [] => none
  | c :: rest =>
    if Text.isBlank c then some (.blank c)
    else if c ∈ seen then some (.repeated c)
    else firstFault (c :: seen) rest

/-- an unambiguous set of symbols -/
structure Alphabet where
  positions : List Char
  directions : List Char
  bomb : Char
  opening : Char
  closing : Char
  positions_length : positions.length = Alphabet.Part.positions.size
  directions_length : directions.length = Alphabet.Part.directions.size
  distinct : (positions ++ directions ++ [bomb, opening, closing]).Nodup
  not_blank : ∀ c ∈ positions ++ directions ++ [bomb, opening, closing], Text.isBlank c = false
  deriving DecidableEq

namespace Alphabet

/-- all symbols: positions, directions, then the bomb marker and the brackets -/
def symbols (a : Alphabet) : List Char := a.positions ++ a.directions ++ [a.bomb, a.opening, a.closing]

theorem firstFault_eq_none {seen cs : List Char} :
    firstFault seen cs = none ↔ (∀ c ∈ cs, Text.isBlank c = false) ∧ (∀ c ∈ cs, c ∉ seen) ∧ cs.Nodup := by
  induction cs generalizing seen with
  | nil => simp [firstFault]
  | cons c cs ih =>
    unfold firstFault
    by_cases hb : Text.isBlank c = true
    · simp [hb]
    · by_cases hs : c ∈ seen
      · simp [hb, hs]
      · rw [if_neg hb, if_neg hs, ih]
        simp only [List.mem_cons, not_or, List.nodup_cons, forall_eq_or_imp]
        constructor
        · rintro ⟨h1, h2, h3⟩
          exact ⟨⟨by simpa using hb, h1⟩, ⟨hs, fun d hd => (h2 d hd).2⟩, fun hc => (h2 c hc).1 rfl, h3⟩
        · rintro ⟨⟨_, h1⟩, ⟨_, h2⟩, hc, h3⟩
          exact ⟨h1, fun d hd => ⟨fun e => hc (e ▸ hd), h2 d hd⟩, h3⟩

/-- the alphabet of the given symbols: lengths are checked first, then blanks and repetitions from left to right -/
def make (positions directions : List Char) (bomb opening closing : Char) : Except Fault Alphabet :=
  if hp : positions.length = Part.positions.size then
    if hd : directions.length = Part.directions.size then
      match h : firstFault [] (positions ++ directions ++ [bomb, opening, closing]) with
      | none =>
        have facts := firstFault_eq_none.1 h
        .ok ⟨positions, directions, bomb, opening, closing, hp, hd, facts.2.2, facts.1⟩
      | some fault => .error fault
    else .error (.wrongLength .directions directions.length)
  else .error (.wrongLength .positions positions.length)

/-- the keys of a keyboard for the cells, a numeric pad for the directions -/
def standard : Alphabet where
  positions := "ZXCVASDFQWERzxcvasdfqwer".toList
  directions := "824679135".toList
  bomb := '*'
  opening := '['
  closing := ']'
  positions_length := by decide
  directions_length := by decide
  distinct := ((@firstFault_eq_none [] _).1 (by rfl)).2.2
  not_blank := ((@firstFault_eq_none [] _).1 (by rfl)).1

instance : Inhabited Alphabet := ⟨standard⟩

/-- the position a character stands for -/
def decodePosition? (a : Alphabet) (c : Char) : Option Position := (a.positions.idxOf? c).map Position.ofIndex

/-- the direction a character stands for -/
def decodeDirection? (a : Alphabet) (c : Char) : Option Direction :=
  (a.directions.idxOf? c).bind Direction.ofOrdinal?

/-- the symbol of a position; none for a bomb and off the playfield -/
def encodePosition? (a : Alphabet) (p : Position) : Option Char := p.index?.bind (a.positions[·]?)

/-- the symbol of a direction -/
def encodeDirection (a : Alphabet) (d : Direction) : Char :=
  a.directions.get ⟨d.ordinal, by rw [a.directions_length]; exact d.ordinal_lt⟩

/-- the meaning of a character: markers first, then directions, then positions -/
def classify (a : Alphabet) (c : Char) : Option Symbol :=
  if c = a.bomb then some .bomb
  else if c = a.opening then some .opening
  else if c = a.closing then some .closing
  else match a.decodeDirection? c with
    | some d => some (.direction d)
    | none => (a.decodePosition? c).map .position

end Alphabet

end RhythmChart
