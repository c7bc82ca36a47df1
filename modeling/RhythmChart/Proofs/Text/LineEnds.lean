/-
The lines of a text and their ends.

A text is a row of ended lines and what is left after the last line feed (`Lined`), in one way or another for every text
(`exists_lined`). Its lines are the ended ones, each without the carriage return of its end, and the rest if there is one
(`Lined.lines`). Putting a carriage return in front of every line feed puts one behind every ended line, and behind
nothing else (`Lined.returned`); the lines are then the ended ones as they were.
-/
import Mathlib.Tactic
import RhythmChart.Text.Split

namespace RhythmChart.Text

/-- a text of lines that each end in a line feed -/
def ended (lines : List (List Char)) : List Char := lines.flatMap (· ++ ['\n'])

/-- a text with a carriage return in front of every line feed -/
def returned (cs : List Char) : List Char := cs.flatMap fun c => if c = '\n' then ['\r', '\n'] else [c]

/-- a text is these ended lines and then this rest, and no line feed is in any of them -/
structure Lined (cs : List Char) (whole : List (List Char)) (rest : List Char) : Prop where
  text : cs = ended whole ++ rest
  whole : ∀ line ∈ whole, '\n' ∉ line
  rest : '\n' ∉ rest

/-- a rest is a line unless it is empty -/
def restLines (rest : List Char) : List (List Char) := if rest.isEmpty then [] else [rest]

variable {cs line rest : List Char} {whole : List (List Char)}

/-! ## Lines -/

theorem ended_cons (line : List Char) (whole : List (List Char)) :
    ended (line :: whole) = line ++ '\n' :: ended whole := by
  simp [ended]

/-- every text is lined -/
theorem exists_lined (cs : List Char) : ∃ whole rest, Lined cs whole rest := by
  induction cs with
  | nil => exact ⟨[], [], rfl, by simp, List.not_mem_nil⟩
  | cons c cs ih =>
    obtain ⟨whole, rest, rfl, hwhole, hrest⟩ := ih
    by_cases hc : c = '\n'
    · refine ⟨[] :: whole, rest, by simp [ended_cons, hc], ?_, hrest⟩
      simpa using hwhole
    · cases whole with
      | nil => exact ⟨[], c :: rest, rfl, by simp, by simp [hrest, Ne.symm hc]⟩
      | cons line whole =>
        rw [List.forall_mem_cons] at hwhole
        refine ⟨(c :: line) :: whole, rest, by simp [ended_cons], ?_, hrest⟩
        rw [List.forall_mem_cons]
        exact ⟨by simp [hwhole.1, Ne.symm hc], hwhole.2⟩

/-- the characters up to the next line feed join the current line -/
theorem linesFrom_append (h : '\n' ∉ line) (current rest : List Char) :
    linesFrom current (line ++ rest) = linesFrom (line.reverse ++ current) rest := by
  induction line generalizing current with
  | nil => rfl
  | cons c line ih =>
    simp only [List.mem_cons, not_or] at h
    rw [List.cons_append, linesFrom, if_neg (Ne.symm h.1), ih h.2]
    simp

theorem lines_ended_line (h : '\n' ∉ line) (rest : List Char) :
    lines (line ++ '\n' :: rest) = dropReturn line :: lines rest := by
  rw [lines, linesFrom_append h, linesFrom, if_pos rfl]
  simp [lines]

theorem lines_rest (h : '\n' ∉ rest) : lines rest = restLines rest := by
  have hlines := linesFrom_append h [] []
  rw [List.append_nil, List.append_nil] at hlines
  rw [lines, hlines, linesFrom]
  simp [restLines]

/-- **The lines of a text.** -/
theorem Lined.lines (h : Lined cs whole rest) : lines cs = whole.map dropReturn ++ restLines rest := by
  obtain ⟨rfl, hwhole, hrest⟩ := h
  induction whole with
  | nil => exact lines_rest hrest
  | cons line whole ih =>
    rw [List.forall_mem_cons] at hwhole
    rw [ended_cons, List.append_assoc, List.cons_append, lines_ended_line hwhole.1, ih hwhole.2]
    rfl

theorem lined_ended (h : ∀ line ∈ whole, '\n' ∉ line) : Lined (ended whole) whole [] :=
  ⟨(List.append_nil _).symm, h, List.not_mem_nil⟩

/-! ## Carriage returns -/

/-- a line is what is left of it, or that and a carriage return -/
theorem eq_dropReturn_or (line : List Char) : line = dropReturn line ∨ line = dropReturn line ++ ['\r'] := by
  unfold dropReturn
  split_ifs with hlast
  · obtain ⟨before, hbefore⟩ := List.getLast?_eq_some_iff.1 hlast
    rw [hbefore]
    simp
  · exact .inl rfl

theorem returned_append (as bs : List Char) : returned (as ++ bs) = returned as ++ returned bs :=
  List.flatMap_append

theorem returned_of_not_mem (h : '\n' ∉ line) : returned line = line := by
  induction line with
  | nil => rfl
  | cons c line ih =>
    simp only [List.mem_cons, not_or] at h
    have hrest : returned (c :: line) = (if c = '\n' then ['\r', '\n'] else [c]) ++ returned line := List.flatMap_cons
    rw [hrest, if_neg (Ne.symm h.1), ih h.2]
    rfl

/-- **Carriage returns.** They come behind the ended lines. -/
theorem Lined.returned (h : Lined cs whole rest) : Lined (returned cs) (whole.map (· ++ ['\r'])) rest := by
  obtain ⟨rfl, hwhole, hrest⟩ := h
  refine ⟨?_, ?_, hrest⟩
  · rw [returned_append, returned_of_not_mem hrest]
    congr 1
    induction whole with
    | nil => rfl
    | cons line whole ih =>
      rw [List.forall_mem_cons] at hwhole
      have hend : returned (line ++ '\n' :: ended whole) = line ++ '\r' :: '\n' :: Text.returned (ended whole) := by
        rw [returned_append, returned_of_not_mem hwhole.1]
        rfl
      rw [ended_cons, hend, ih hwhole.2, List.map_cons, ended_cons]
      simp
  · intro line hline
    obtain ⟨before, hbefore, rfl⟩ := List.mem_map.1 hline
    simp [hwhole before hbefore]

end RhythmChart.Text
