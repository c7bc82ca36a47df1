/-
The symbols of an alphabet are a code.

The numbers of positions and the ordinals of directions index lists without repetition. So decoding a character and
encoding what it stands for are inverse to each other, for positions (`decodePosition?_eq_some_iff`) and for directions
(`decodeDirection?_eq_some_iff`); a position has a symbol exactly when it is red or blue and on the playfield
(`encodePosition?_isSome_iff`).
-/
import Mathlib.Tactic
import RhythmChart.Alphabet

namespace RhythmChart.Alphabet

variable {a : Alphabet} {c : Char} {p : Position} {d : Direction}

theorem positions_nodup (a : Alphabet) : a.positions.Nodup :=
  (List.nodup_append.1 (List.nodup_append.1 a.distinct).1).1

theorem directions_nodup (a : Alphabet) : a.directions.Nodup :=
  (List.nodup_append.1 (List.nodup_append.1 a.distinct).1).2.1

/-- without repetition a symbol stands at one place only -/
theorem idxOf?_eq_some_iff_getElem? {l : List Char} (h : l.Nodup) {i : Nat} : l.idxOf? c = some i ↔ l[i]? = some c := by
  rw [List.idxOf?_eq_some_iff, List.getElem?_eq_some_iff]
  constructor
  · rintro ⟨hi, hc, _⟩
    exact ⟨hi, hc⟩
  · rintro ⟨hi, hc⟩
    refine ⟨hi, hc, fun j hj heq => ?_⟩
    exact hj.ne ((List.getElem_inj h).1 (heq.trans hc.symm))

/-- **Positions.** Decoding inverts encoding. -/
theorem decodePosition?_eq_some_iff : a.decodePosition? c = some p ↔ a.encodePosition? p = some c := by
  rw [decodePosition?, encodePosition?, Option.map_eq_some_iff, Option.bind_eq_some_iff]
  constructor
  · rintro ⟨i, hi, rfl⟩
    rw [idxOf?_eq_some_iff_getElem? a.positions_nodup] at hi
    obtain ⟨hlt, _⟩ := List.getElem?_eq_some_iff.1 hi
    exact ⟨i, Position.index?_ofIndex (by rwa [a.positions_length] at hlt), hi⟩
  · rintro ⟨i, hindex, hi⟩
    exact ⟨i, (idxOf?_eq_some_iff_getElem? a.positions_nodup).2 hi, Position.ofIndex_of_index? hindex⟩

/-- **Directions.** Decoding inverts encoding. -/
theorem decodeDirection?_eq_some_iff : a.decodeDirection? c = some d ↔ a.encodeDirection d = c := by
  have hplace : a.directions[d.ordinal]? = some (a.encodeDirection d) := List.getElem?_eq_getElem _
  rw [decodeDirection?, Option.bind_eq_some_iff]
  constructor
  · rintro ⟨i, hi, hd⟩
    rw [idxOf?_eq_some_iff_getElem? a.directions_nodup, Direction.ofOrdinal?_eq_some_iff.1 hd, hplace] at hi
    exact Option.some.inj hi
  · rintro rfl
    exact ⟨d.ordinal, (idxOf?_eq_some_iff_getElem? a.directions_nodup).2 hplace, Direction.ofOrdinal?_eq_some_iff.2 rfl⟩

/-- **Which positions have a symbol.** -/
theorem encodePosition?_isSome_iff :
    (a.encodePosition? p).isSome ↔ (p.x.toNat < columns ∧ p.y.toNat < rows) ∧ p.color ≠ .bomb := by
  rw [← Position.index?_isSome_iff]
  unfold encodePosition?
  cases hindex : p.index? with
  | none => simp
  | some i =>
    have hlt : i < a.positions.length := by
      rw [a.positions_length]
      exact Position.index?_lt hindex
    simp [hlt]

theorem encodePosition?_mem (h : a.encodePosition? p = some c) : c ∈ a.positions := by
  obtain ⟨i, _, hi⟩ := Option.bind_eq_some_iff.1 h
  exact List.mem_of_getElem? hi

theorem encodeDirection_mem (a : Alphabet) (d : Direction) : a.encodeDirection d ∈ a.directions := List.get_mem ..

end RhythmChart.Alphabet
