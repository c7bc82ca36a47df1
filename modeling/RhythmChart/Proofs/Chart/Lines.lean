/-
A chart is read line by line.

A reader stops at the first refused line, but the frames of a chart depend on no later line anyway: they are collected
from the answers that every line has of its own (`Dialect.readChart_eq`). So what all frames of a chart have in common
has to be shown of single lines only (`Dialect.readLine_of_mem_readChart`).
-/
import Mathlib.Tactic
import RhythmChart.Chart

namespace RhythmChart

/-! ## Collecting -/

theorem collect_ok_cons {ε α : Type} (a : α) (rest : List (Except ε α)) :
    collect (.ok a :: rest) = (collect rest).map (a :: ·) := by
  rw [collect]
  cases collect rest <;> rfl

theorem collect_map_ok_append {ε α : Type} (as : List α) (rest : List (Except ε α)) :
    collect (as.map .ok ++ rest) = (collect rest).map (as ++ ·) := by
  induction as with
  | nil => cases hrest : collect rest <;> simp [hrest, Except.map]
  | cons a as ih =>
    rw [List.map_cons, List.cons_append, collect_ok_cons, ih]
    cases collect rest <;> rfl

/-- there are frames when all answers are frames -/
theorem collect_eq_ok_iff {ε α : Type} {answers : List (Except ε α)} {as : List α} :
    collect answers = .ok as ↔ answers = as.map .ok := by
  constructor
  · intro h
    induction answers generalizing as with
    | nil =>
      cases h
      rfl
    | cons first rest ih =>
      cases first with
      | error e => cases h
      | ok a =>
        rw [collect_ok_cons] at h
        cases hrest : collect rest with
        | error e =>
          rw [hrest] at h
          cases h
        | ok bs =>
          rw [hrest] at h
          cases h
          rw [ih hrest, List.map_cons]
  · rintro rfl
    have h := @collect_map_ok_append ε _ as []
    simpa [collect, Except.map] using h

theorem exists_collect_eq_ok_iff {ε α : Type} {answers : List (Except ε α)} :
    (∃ as, collect answers = .ok as) ↔ ∀ answer ∈ answers, ∃ a, answer = .ok a := by
  simp only [collect_eq_ok_iff]
  have h := Set.ext_iff.1 (Set.range_list_map (Except.ok : α → Except ε α)) answers
  simpa [eq_comm] using h

/-- the error of answers is the first, behind frames only -/
theorem collect_eq_error_iff {ε α : Type} {answers : List (Except ε α)} {e : ε} :
    collect answers = .error e ↔
      ∃ (as : List α) (rest : List (Except ε α)), answers = as.map .ok ++ .error e :: rest := by
  constructor
  · intro h
    induction answers with
    | nil => cases h
    | cons first rest ih =>
      cases first with
      | error e' =>
        cases h
        exact ⟨[], rest, rfl⟩
      | ok a =>
        rw [collect_ok_cons] at h
        cases hrest : collect rest with
        | ok bs =>
          rw [hrest] at h
          cases h
        | error e' =>
          rw [hrest] at h
          cases h
          obtain ⟨as, rest', rfl⟩ := ih hrest
          exact ⟨a :: as, rest', rfl⟩
  · rintro ⟨as, rest, rfl⟩
    rw [collect_map_ok_append]
    rfl

theorem mem_of_collect {ε α : Type} {answers : List (Except ε α)} {as : List α} (h : collect answers = .ok as) :
    ∀ a ∈ as, .ok a ∈ answers := by
  intro a ha
  rw [collect_eq_ok_iff.1 h]
  exact List.mem_map_of_mem ha

theorem collect_map {ε α β : Type} (g : α → β) (answers : List (Except ε α)) :
    collect (answers.map (Except.map g)) = (collect answers).map (List.map g) := by
  induction answers with
  | nil => rfl
  | cons first rest ih =>
    cases first with
    | error e => rfl
    | ok a =>
      rw [List.map_cons, Except.map, collect_ok_cons, collect_ok_cons, ih]
      cases collect rest <;> rfl

/-! ## Lines -/

/-- a reader that has not failed answers its next line -/
theorem Reader.next_cons (d : Dialect) (text : List Char) (rest : List (List Char)) (line : Nat) :
    next ⟨d, text :: rest, line, false⟩ =
      some (d.readLine (line + 1) text, ⟨d, rest, line + 1, !(d.readLine (line + 1) text).isOk⟩) :=
  rfl

theorem Dialect.mapIdx_readLine_cons (d : Dialect) (text : List Char) (rest : List (List Char)) (line : Nat) :
    (text :: rest).mapIdx (fun i text => d.readLine (line + i + 1) text) =
      d.readLine (line + 1) text :: rest.mapIdx fun i text => d.readLine (line + 1 + i + 1) text := by
  have hnumber : ∀ i, line + (i + 1) + 1 = line + 1 + i + 1 := by omega
  simp only [List.mapIdx_cons, Nat.add_zero, hnumber]

/-- a reader that has not failed answers each line by its number, as far as that matters -/
theorem Reader.collect_answersFrom (d : Dialect) (lines : List (List Char)) (line : Nat) :
    collect (answersFrom lines.length ⟨d, lines, line, false⟩) =
      collect (lines.mapIdx fun i text => d.readLine (line + i + 1) text) := by
  induction lines generalizing line with
  | nil => rfl
  | cons text rest ih =>
    rw [List.length_cons, answersFrom, next_cons, d.mapIdx_readLine_cons]
    cases d.readLine (line + 1) text with
    | error e => rfl
    | ok frame =>
      have hrest := ih (line + 1)
      simp only [Except.isOk, Except.toBool, Bool.not_true]
      rw [collect_ok_cons, collect_ok_cons, hrest]

/-- **Reading a chart is reading its lines.** -/
theorem Dialect.readChart_eq (d : Dialect) (text : String) :
    d.readChart text = collect ((Text.lines text.toList).mapIdx fun i line => d.readLine (i + 1) line) := by
  have h := Reader.collect_answersFrom d (Text.lines text.toList) 0
  simp only [Nat.zero_add] at h
  exact h

/-- every frame of a chart is the reading of some line -/
theorem Dialect.readLine_of_mem_readChart {d : Dialect} {text : String} {frames : List Frame}
    (h : d.readChart text = .ok frames) : ∀ f ∈ frames, ∃ number line, d.readLine number line = .ok f := by
  intro f hf
  rw [readChart_eq] at h
  obtain ⟨i, _, hline⟩ := List.mem_mapIdx.1 (mem_of_collect h f hf)
  exact ⟨_, _, hline⟩

end RhythmChart
