/-
Every line of a chart is read for itself, however the lines end.

Pulled for the nth time, a reader answers what the nth line is read as under its number, as long as no line before it
was refused, and after a refused line it never answers again (`Reader.pull_ofLines`). What a line is read as is told of
the line alone (`Dialect.readEach`), so frames and errors of a chart are found line by line. A carriage return at the
end of a line is a blank there (`Dialect.readLine_dropReturn`): it makes no difference whether a line end takes it away,
and none whether line ends have one.

Main result: `chart_linewise`.
-/
import Mathlib.Tactic
import RhythmChart.Proofs.Chart.Lines
import RhythmChart.Proofs.Line.Trailing
import RhythmChart.Proofs.Text.LineEnds

namespace RhythmChart

/-- what each line is read as under its number, counted from one -/
def Dialect.readEach (d : Dialect) (lines : List (List Char)) : List (Except Line.Error Frame) :=
  lines.mapIdx fun i line => d.readLine (i + 1) line

/-- answers up to the first error, and that error -/
def untilError {ε α : Type} : List (Except ε α) → List (Except ε α)
  | [] => []
  | .ok a :: rest => .ok a :: untilError rest
  | .error e :: _ => [.error e]

/-- answers up to the first error stand where they stood -/
theorem getElem?_of_getElem?_untilError {ε α : Type} {answers : List (Except ε α)} {n : Nat} {answer : Except ε α}
    (h : (untilError answers)[n]? = some answer) : answers[n]? = some answer := by
  induction answers generalizing n with
  | nil => exact h
  | cons first rest ih =>
    cases first with
    | error e => cases n <;> simp_all [untilError]
    | ok a =>
      cases n with
      | zero => exact h
      | succ n => exact ih h

namespace Reader

/-- what a reader answers when it is pulled once more after `n` pulls; without an answer it stays as it is -/
def pull : Nat → Reader → Option (Except Line.Error Frame)
  | 0, r => r.next.map Prod.fst
  | n + 1, r =>
    match r.next with
    | none => pull n r
    | some (_, r) => pull n r

/-! ## Pulling -/

/-- a reader without an answer never has one again -/
theorem pull_of_next_none {r : Reader} (h : r.next = none) (n : Nat) : r.pull n = none := by
  induction n with
  | zero => rw [pull, h]; rfl
  | succ n ih => rw [pull, h]; exact ih

/-- by induction on the lines to come; the reader has refused none so far -/
theorem pull_eq (d : Dialect) (lines : List (List Char)) (line n : Nat) :
    pull n ⟨d, lines, line, false⟩ =
      (untilError (lines.mapIdx fun i text => d.readLine (line + i + 1) text))[n]? := by
  induction lines generalizing line n with
  | nil => exact pull_of_next_none rfl n
  | cons text rest ih =>
    have hnext := next_cons d text rest line
    rw [d.mapIdx_readLine_cons]
    cases hread : d.readLine (line + 1) text with
    | error e =>
      rw [hread] at hnext
      cases n with
      | zero => rw [pull, hnext]; rfl
      | succ n =>
        rw [pull, hnext]
        exact pull_of_next_none rfl n
    | ok frame =>
      rw [hread] at hnext
      cases n with
      | zero => rw [pull, hnext]; rfl
      | succ n =>
        rw [pull, hnext]
        exact ih (line + 1) n

theorem pull_ofLines (d : Dialect) (lines : List (List Char)) (n : Nat) :
    (ofLines d lines).pull n = (untilError (d.readEach lines))[n]? := by
  have h := pull_eq d lines 0 n
  simp only [Nat.zero_add] at h
  exact h

/-- an answer is what the line in its place is read as -/
theorem readLine_of_pull {d : Dialect} {lines : List (List Char)} {n : Nat} {answer : Except Line.Error Frame}
    (h : (ofLines d lines).pull n = some answer) : ∃ line, lines[n]? = some line ∧ d.readLine (n + 1) line = answer := by
  rw [pull_ofLines] at h
  have hown := getElem?_of_getElem?_untilError h
  rw [Dialect.readEach, List.getElem?_mapIdx] at hown
  exact Option.map_eq_some_iff.1 hown

end Reader

/-! ## Frames -/

theorem Dialect.readLine_line {d : Dialect} {line : Nat} {text : List Char} {frame : Frame}
    (h : d.readLine line text = .ok frame) : frame.line = line := by
  unfold readLine at h
  cases hparts : Line.readParts d text with
  | error fault =>
    rw [hparts] at h
    cases h
  | ok parts =>
    rw [hparts] at h
    cases h
    rfl

/-- frames in place of lines carry the numbers of the lines -/
theorem Dialect.readEach_numbered {d : Dialect} {lines : List (List Char)} {frames : List Frame}
    (h : d.readEach lines = frames.map .ok) : ∀ i frame, frames[i]? = some frame → frame.line = i + 1 := by
  intro i frame hframe
  have hanswer : (d.readEach lines)[i]? = some (.ok frame) := by simp [h, hframe]
  simp only [readEach, List.getElem?_mapIdx, Option.map_eq_some_iff] at hanswer
  obtain ⟨line, -, hread⟩ := hanswer
  exact readLine_line hread

/-! ## Line ends -/

/-- the carriage return of a line end would not have mattered -/
theorem Dialect.readLine_dropReturn (d : Dialect) (number : Nat) (line : List Char) :
    d.readLine number (Text.dropReturn line) = d.readLine number line := by
  rcases Text.eq_dropReturn_or line with h | h
  · rw [← h]
  · conv_rhs => rw [h]
    rw [d.readLine_snoc_blank number (by decide)]

/-- changing lines into lines that are read alike -/
theorem Dialect.readEach_map_append {d : Dialect} {change : List Char → List Char}
    (h : ∀ number line, d.readLine number (change line) = d.readLine number line) (whole tail : List (List Char)) :
    d.readEach (whole.map change ++ tail) = d.readEach (whole ++ tail) := by
  unfold readEach
  rw [List.mapIdx_append, List.mapIdx_append, List.length_map]
  congr 1
  exact List.ext_getElem? fun i => by simp [h, Function.comp_def]

theorem Dialect.readEach_lines (d : Dialect) {cs rest : List Char} {whole : List (List Char)}
    (h : Text.Lined cs whole rest) : d.readEach (Text.lines cs) = d.readEach (whole ++ Text.restLines rest) := by
  rw [h.lines, readEach_map_append d.readLine_dropReturn]

/-- carriage returns in front of the line feeds make no difference -/
theorem Dialect.readEach_returned (d : Dialect) (cs : List Char) :
    d.readEach (Text.lines (Text.returned cs)) = d.readEach (Text.lines cs) := by
  obtain ⟨whole, rest, lined⟩ := Text.exists_lined cs
  rw [d.readEach_lines lined, d.readEach_lines lined.returned]
  exact readEach_map_append (fun number line => d.readLine_snoc_blank number (by decide) line) whole _

/-- nor does it whether lines are given or found in a text -/
theorem Dialect.readEach_ended (d : Dialect) {texts : List (List Char)} (h : ∀ text ∈ texts, '\n' ∉ text) :
    d.readEach (Text.lines (Text.ended texts)) = d.readEach texts := by
  rw [d.readEach_lines (Text.lined_ended h)]
  exact congrArg d.readEach (List.append_nil texts)

/-! ## Charts -/

/-- **A chart is read line by line.** A reader of a text answers each pull with what the next line is read as under its
number, up to the first error, and then never again. There is a frame for each line, in order and with its number, just
when every line is accepted, and otherwise the error is that of the first refused line. What a line is read as depends
on no other line. A carriage return in front of every line feed changes no answer, and the lines of a text are answered
like a list of them. -/
theorem chart_linewise (d : Dialect) (text : String) :
    (∀ n, (Reader.ofText d text).pull n = (untilError (d.readEach (Text.lines text.toList)))[n]?) ∧
      ((∃ frames, d.readChart text = .ok frames) ↔
        ∀ answer ∈ d.readEach (Text.lines text.toList), ∃ frame, answer = .ok frame) ∧
      (∀ frames, d.readChart text = .ok frames →
        d.readEach (Text.lines text.toList) = frames.map .ok ∧
          ∀ i frame, frames[i]? = some frame → frame.line = i + 1) ∧
      (∀ e, d.readChart text = .error e ↔
        ∃ (frames : List Frame) (rest : List (Except Line.Error Frame)),
          d.readEach (Text.lines text.toList) = frames.map .ok ++ .error e :: rest) ∧
      (∀ (other : String) n, (Text.lines text.toList)[n]? = (Text.lines other.toList)[n]? →
        ∀ answer answer', (Reader.ofText d text).pull n = some answer →
          (Reader.ofText d other).pull n = some answer' → answer = answer') ∧
      (∀ n, (Reader.ofText d (.ofList (Text.returned text.toList))).pull n = (Reader.ofText d text).pull n) ∧
      d.readChart (.ofList (Text.returned text.toList)) = d.readChart text ∧
      ∀ texts : List (List Char), (∀ line ∈ texts, '\n' ∉ line) →
        ∀ n, (Reader.ofText d (.ofList (Text.ended texts))).pull n = (Reader.ofLines d texts).pull n := by
  have hpull : ∀ (text : String) n,
      (Reader.ofText d text).pull n = (untilError (d.readEach (Text.lines text.toList)))[n]? :=
    fun text n => Reader.pull_ofLines d _ n
  have hchart : ∀ text : String, d.readChart text = collect (d.readEach (Text.lines text.toList)) := d.readChart_eq
  refine ⟨hpull text, ?_, ?_, ?_, ?_, ?_, ?_, ?_⟩
  · rw [hchart]
    exact exists_collect_eq_ok_iff
  · intro frames hframes
    rw [hchart, collect_eq_ok_iff] at hframes
    exact ⟨hframes, Dialect.readEach_numbered hframes⟩
  · intro e
    rw [hchart]
    exact collect_eq_error_iff
  · intro other n hsame answer answer' hanswer hanswer'
    obtain ⟨line, hline, rfl⟩ := Reader.readLine_of_pull hanswer
    obtain ⟨line', hline', rfl⟩ := Reader.readLine_of_pull hanswer'
    obtain rfl : line = line' := Option.some.inj (by rw [← hline, hsame, hline'])
    rfl
  · intro n
    rw [hpull, hpull, String.toList_ofList, d.readEach_returned]
  · rw [hchart, hchart, String.toList_ofList, d.readEach_returned]
  · intro texts htexts n
    rw [hpull, String.toList_ofList, d.readEach_ended htexts, Reader.pull_ofLines]

/-- lines with stray carriage returns, the third of them in an open wall -/
def strayReturns : List (List Char) := ["8Z;bpm=90\r".toList, "\r".toList, "[ZX\r".toList, "5X".toList]

/-- their text is answered with two frames and an error, as they are, and so it is with more carriage returns -/
theorem strayReturns_linewise :
    (∀ line ∈ strayReturns, '\n' ∉ line) ∧
      (Reader.ofText .standard (.ofList (Text.ended strayReturns))).pull 1 = some (.ok ⟨2, .empty, [], []⟩) ∧
      (Reader.ofText .standard (.ofList (Text.ended strayReturns))).pull 2 =
        some (.error ⟨3, .unclosedWall "ZX"⟩) ∧
      (Reader.ofText .standard (.ofList (Text.ended strayReturns))).pull 3 = none ∧
      Dialect.standard.readChart (.ofList (Text.returned (Text.ended strayReturns))) =
        .error ⟨3, .unclosedWall "ZX"⟩ := by
  have unbroken : ∀ line ∈ strayReturns, '\n' ∉ line := by decide
  obtain ⟨-, -, -, -, -, -, returned, given⟩ := chart_linewise .standard (.ofList (Text.ended strayReturns))
  rw [String.toList_ofList] at returned
  refine ⟨unbroken, ?_, ?_, ?_, ?_⟩
  · rw [given _ unbroken]
    decide +kernel
  · rw [given _ unbroken]
    decide +kernel
  · rw [given _ unbroken]
    decide +kernel
  · rw [returned]
    decide +kernel

end RhythmChart
