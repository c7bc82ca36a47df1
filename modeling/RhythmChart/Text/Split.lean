/-
Cutting a text into pieces: at every occurrence of a character, at its first occurrence, and into lines.

A line ends at a line feed, and one carriage return just before that line feed belongs to the line end. A text
that ends in a line feed has no empty line after it, and a carriage return elsewhere is an ordinary character.
-/
namespace RhythmChart.Text

/-- the pieces between the occurrences of `mark`: the first, and those after each mark -/
def pieces (mark : Char) : List Char → List Char × List (List Char)
  | [] => ([], [])
  | c :: cs =>
    let (first, rest) := pieces mark cs
    if c = mark then ([], first :: rest) else (c :: first, rest)

/-- the text before and after the first `mark` -/
def cutAt? (mark : Char) : List Char → Option (List Char × List Char)
  | [] => none
  | c :: cs => if c = mark then some ([], cs) else (cutAt? mark cs).map fun (before, after) => (c :: before, after)

/-- a line without the carriage return of its line end -/
def dropReturn (line : List Char) : List Char :=
  if line.getLast? = some '\r' then line.dropLast else line

/-- the lines of a text; `line` holds what the current one has so far, reversed -/
def linesFrom (line : List Char) : List Char → List (List Char)
  | [] => if line.isEmpty then [] else [line.reverse]
  | c :: cs => if c = '\n' then dropReturn line.reverse :: linesFrom [] cs else linesFrom (c :: line) cs

/-- the lines of a text, without their ends -/
def lines (cs : List Char) : List (List Char) := linesFrom [] cs

/-! ## Small facts -/

@[simp] theorem pieces_nil (mark : Char) : pieces mark [] = ([], []) := rfl

theorem pieces_of_not_mem {mark : Char} {cs : List Char} (h : mark ∉ cs) : pieces mark cs = (cs, []) := by
  induction cs with
  | nil => rfl
  | cons c cs ih =>
    simp only [List.mem_cons, not_or] at h
    simp [pieces, ih h.2, Ne.symm h.1]

theorem pieces_append_mark {mark : Char} {before : List Char} (h : mark ∉ before) (after : List Char) :
    pieces mark (before ++ mark :: after) = (before, (pieces mark after).1 :: (pieces mark after).2) := by
  induction before with
  | nil => simp [pieces]
  | cons c before ih =>
    simp only [List.mem_cons, not_or] at h
    simp [pieces, ih h.2, Ne.symm h.1]

/-- a text without the mark cannot be cut; any other is cut before and after its first mark -/
theorem cutAt?_eq (mark : Char) (cs : List Char) :
    cutAt? mark cs = if mark ∈ cs then some (cs.takeWhile (· ≠ mark), (cs.dropWhile (· ≠ mark)).tail) else none := by
  induction cs with
  | nil => rfl
  | cons c cs ih =>
    by_cases hc : c = mark
    · simp [cutAt?, hc]
    · rw [cutAt?, if_neg hc, ih]
      by_cases hcs : mark ∈ cs <;> simp [hc, hcs, Ne.symm hc]

end RhythmChart.Text
