/-
Which symbols make an alphabet, and what an alphabet is worth.

Symbols make an alphabet exactly when both parts have their length and the whole row of symbols is free of blanks and of
repetitions (`Unambiguous`). Otherwise the answer is the first fault: a wrong length, of the positions before that of the
directions, or else the first symbol in the row that is a blank or stood before (`Refused`). The row is checked from left
to right; as the symbols in front of the first flaw are distinct (`firstFault_eq_some_iff`), no flaw in them is missed.

The symbols of an alphabet are then a code (`isCode`): a character is a symbol or has no meaning, no two tests of it can
succeed, and decoding and encoding are inverse to each other.

Main result: `make_exact`.
-/
import Mathlib.Tactic
import RhythmChart.Proofs.Alphabet.Coding
import RhythmChart.Proofs.Line.Grammar

namespace RhythmChart.Alphabet

/-! ## Rows of symbols -/

/-- no symbol is a blank and no two are the same -/
structure Distinct (row : List Char) : Prop where
  not_blank : ∀ c ∈ row, Text.isBlank c = false
  nodup : row.Nodup

/-- a symbol that cannot stand after the given ones -/
inductive Flawed (before : List Char) (c : Char) : Fault → Prop where
  | blank (blank : Text.isBlank c = true) : Flawed before c (.blank c)
  | repeated (visible : Text.isBlank c = false) (again : c ∈ before) : Flawed before c (.repeated c)

/-- the first symbol of a row that cannot stand after those before it -/
def FirstFlaw (row : List Char) (fault : Fault) : Prop :=
  ∃ before c after, row = before ++ c :: after ∧ Distinct before ∧ Flawed before c fault

section Rows

variable {seen before rest row : List Char} {c : Char} {fault : Fault}

theorem firstFault_eq_none_iff : firstFault [] row = none ↔ Distinct row := by
  rw [firstFault_eq_none]
  constructor
  · rintro ⟨not_blank, -, nodup⟩
    exact ⟨not_blank, nodup⟩
  · intro h
    exact ⟨h.not_blank, fun _ _ => List.not_mem_nil, h.nodup⟩

theorem firstFault_append :
    firstFault seen (before ++ rest) = (firstFault seen before).or (firstFault (before.reverse ++ seen) rest) := by
  induction before generalizing seen with
  | nil => simp [firstFault]
  | cons c before ih =>
    rw [List.cons_append, firstFault, firstFault]
    split_ifs
    · rfl
    · rfl
    · rw [ih, List.reverse_cons, List.append_assoc, List.singleton_append]

theorem firstFault_singleton : firstFault seen [c] = some fault ↔ Flawed seen c fault := by
  rw [firstFault, firstFault]
  constructor
  · intro h
    split_ifs at h with hblank hagain
    · cases h
      exact .blank hblank
    · cases h
      exact .repeated (Bool.eq_false_of_not_eq_true hblank) hagain
  · intro h
    cases h with
    | blank hblank => simp [hblank]
    | repeated hvisible hagain => simp [hvisible, hagain]

/-- **Rows.** The check from left to right answers the first flaw. -/
theorem firstFault_eq_some_iff : firstFault [] row = some fault ↔ FirstFlaw row fault := by
  constructor
  · -- from the right, so that the symbols before the last one are a row of their own
    intro h
    induction row using List.reverseRecOn with
    | nil => cases h
    | append_singleton row c ih =>
      rw [firstFault_append, List.append_nil] at h
      cases hrow : firstFault [] row with
      | some earlier =>
        rw [hrow, Option.some_or] at h
        obtain ⟨before, b, after, rfl, hbefore, hflaw⟩ := ih (hrow.trans h)
        exact ⟨before, b, after ++ [c], by simp, hbefore, hflaw⟩
      | none =>
        rw [hrow, Option.none_or, firstFault_singleton] at h
        refine ⟨row, c, [], rfl, firstFault_eq_none_iff.1 hrow, ?_⟩
        cases h with
        | blank hblank => exact .blank hblank
        | repeated hvisible hagain => exact .repeated hvisible (List.mem_reverse.1 hagain)
  · rintro ⟨before, c, after, rfl, hbefore, hflaw⟩
    have hlast : firstFault before.reverse [c] = some fault := by
      refine firstFault_singleton.2 ?_
      cases hflaw with
      | blank hblank => exact .blank hblank
      | repeated hvisible hagain => exact .repeated hvisible (List.mem_reverse.2 hagain)
    have hsplit : before ++ c :: after = before ++ ([c] ++ after) := rfl
    rw [hsplit, firstFault_append, firstFault_eq_none_iff.2 hbefore, Option.none_or, firstFault_append, List.append_nil,
      hlast, Option.some_or]

end Rows

/-! ## Alphabets -/

/-- lengths as they should be, and a distinct row of symbols -/
structure Unambiguous (positions directions : List Char) (bomb opening closing : Char) : Prop where
  positions_length : positions.length = 24
  directions_length : directions.length = 9
  symbols : Distinct (positions ++ directions ++ [bomb, opening, closing])

/-- why symbols make no alphabet: the first length that is wrong, or else the first symbol that cannot stand -/
inductive Refused (positions directions : List Char) (bomb opening closing : Char) : Fault → Prop where
  | positions (length : positions.length ≠ 24) :
      Refused positions directions bomb opening closing (.wrongLength .positions positions.length)
  | directions (positions_length : positions.length = 24) (length : directions.length ≠ 9) :
      Refused positions directions bomb opening closing (.wrongLength .directions directions.length)
  | symbol {fault : Fault} (positions_length : positions.length = 24) (directions_length : directions.length = 9)
      (first : FirstFlaw (positions ++ directions ++ [bomb, opening, closing]) fault) :
      Refused positions directions bomb opening closing fault

section Making

variable {positions directions : List Char} {bomb opening closing : Char} {fault : Fault}

theorem Unambiguous.make (h : Unambiguous positions directions bomb opening closing) :
    ∃ a, make positions directions bomb opening closing = .ok a := by
  have hpositions : positions.length = Part.positions.size := h.positions_length
  have hdirections : directions.length = Part.directions.size := h.directions_length
  unfold Alphabet.make
  rw [dif_pos hpositions, dif_pos hdirections]
  split
  · exact ⟨_, rfl⟩
  · rename_i fault hfault
    rw [firstFault_eq_none_iff.2 h.symbols] at hfault
    cases hfault

theorem Refused.make (h : Refused positions directions bomb opening closing fault) :
    make positions directions bomb opening closing = .error fault := by
  unfold Alphabet.make
  cases h with
  | positions length =>
    have hpositions : positions.length ≠ Part.positions.size := length
    rw [dif_neg hpositions]
  | directions positions_length length =>
    have hpositions : positions.length = Part.positions.size := positions_length
    have hdirections : directions.length ≠ Part.directions.size := length
    rw [dif_pos hpositions, dif_neg hdirections]
  | symbol positions_length directions_length first =>
    have hpositions : positions.length = Part.positions.size := positions_length
    have hdirections : directions.length = Part.directions.size := directions_length
    rw [dif_pos hpositions, dif_pos hdirections]
    split
    · rename_i hnone
      rw [firstFault_eq_some_iff.2 first] at hnone
      cases hnone
    · rename_i other hother
      rw [firstFault_eq_some_iff.2 first] at hother
      cases hother
      rfl

/-- there is no third case -/
theorem unambiguous_or_refused (positions directions : List Char) (bomb opening closing : Char) :
    Unambiguous positions directions bomb opening closing ∨
      ∃ fault, Refused positions directions bomb opening closing fault := by
  by_cases hpositions : positions.length = 24
  · by_cases hdirections : directions.length = 9
    · cases hrow : firstFault [] (positions ++ directions ++ [bomb, opening, closing]) with
      | none => exact .inl ⟨hpositions, hdirections, firstFault_eq_none_iff.1 hrow⟩
      | some fault => exact .inr ⟨fault, .symbol hpositions hdirections (firstFault_eq_some_iff.1 hrow)⟩
    · exact .inr ⟨_, .directions hpositions hdirections⟩
  · exact .inr ⟨_, .positions hpositions⟩

/-- an alphabet has the symbols it is made of -/
theorem parts_of_make {a : Alphabet} (h : make positions directions bomb opening closing = .ok a) :
    a.positions = positions ∧ a.directions = directions ∧ a.bomb = bomb ∧ a.opening = opening ∧ a.closing = closing := by
  unfold Alphabet.make at h
  split at h
  · split at h
    · split at h
      · cases h
        exact ⟨rfl, rfl, rfl, rfl, rfl⟩
      · cases h
    · cases h
  · cases h

end Making

/-! ## Meanings -/

/-- everything that a character could mean, each test made on its own -/
def meanings (a : Alphabet) (c : Char) : List Symbol :=
  (if c = a.bomb then [.bomb] else []) ++ (if c = a.opening then [.opening] else []) ++
    (if c = a.closing then [.closing] else []) ++ (a.decodeDirection? c).toList.map .direction ++
      (a.decodePosition? c).toList.map .position

/-- each character has one meaning if it is a symbol and none if it is not, and what is encoded is decoded again -/
structure IsCode (a : Alphabet) : Prop where
  symbols : ∀ c, (a.classify c).isSome ↔ c ∈ a.symbols
  /-- whichever test comes first: at most one succeeds -/
  meanings : ∀ c, a.meanings c = (a.classify c).toList
  positions : ∀ c p, a.decodePosition? c = some p ↔ a.encodePosition? p = some c
  directions : ∀ c d, a.decodeDirection? c = some d ↔ a.encodeDirection d = c
  cells : ∀ p, (a.encodePosition? p).isSome ↔ (p.color = .red ∨ p.color = .blue) ∧ p.x.toNat < 4 ∧ p.y.toNat < 3

section Meanings

variable {a : Alphabet} {c : Char}

theorem decodeDirection?_eq_none (h : c ∉ a.directions) : a.decodeDirection? c = none := by
  cases hd : a.decodeDirection? c with
  | none => rfl
  | some d => exact absurd (Line.mem_directions hd) h

theorem decodePosition?_eq_none (h : c ∉ a.positions) : a.decodePosition? c = none := by
  cases hp : a.decodePosition? c with
  | none => rfl
  | some p => exact absurd (Line.mem_positions hp) h

/-- a marker is neither a position nor a direction -/
theorem mark_not_mem (h : c = a.bomb ∨ c = a.opening ∨ c = a.closing) : c ∉ a.positions ∧ c ∉ a.directions := by
  have hmark : c ∉ a.positions ++ a.directions := by
    intro hmem
    obtain ⟨hbomb, hopening, hclosing⟩ := Line.ne_marks_of_mem hmem
    rcases h with h | h | h
    · exact hbomb h
    · exact hopening h
    · exact hclosing h
  simpa using hmark

/-- **One meaning at most.** The tests in any order find what the tests in turn find. -/
theorem meanings_eq (a : Alphabet) (c : Char) : a.meanings c = (a.classify c).toList := by
  obtain ⟨hopening, hclosing, hbrackets⟩ := Line.marks_distinct a
  rcases Line.symbol_cases a c with ⟨d, hd⟩ | rfl | ⟨p, hp⟩ | rfl | rfl | hother
  · have hmem := Line.mem_directions hd
    obtain ⟨h₁, h₂, h₃⟩ := Line.ne_marks_of_mem (List.mem_append_right a.positions hmem)
    have hposition : a.decodePosition? c = none := decodePosition?_eq_none fun hp => Line.not_mem_directions hp hmem
    simp [meanings, h₁, h₂, h₃, hd, hposition, Line.classify_direction hd]
  · obtain ⟨h₁, h₂⟩ := mark_not_mem (.inl rfl : a.bomb = a.bomb ∨ _)
    simp [meanings, hopening.symm, hclosing.symm, decodePosition?_eq_none h₁, decodeDirection?_eq_none h₂,
      Line.classify_bomb]
  · have hmem := Line.mem_positions hp
    obtain ⟨h₁, h₂, h₃⟩ := Line.ne_marks_of_mem (List.mem_append_left a.directions hmem)
    simp [meanings, h₁, h₂, h₃, hp, decodeDirection?_eq_none (Line.not_mem_directions hmem),
      Line.classify_position hp]
  · obtain ⟨h₁, h₂⟩ := mark_not_mem (.inr (.inl rfl) : a.opening = a.bomb ∨ a.opening = a.opening ∨ _)
    simp [meanings, hopening, hbrackets.symm, decodePosition?_eq_none h₁, decodeDirection?_eq_none h₂,
      Line.classify_opening]
  · obtain ⟨h₁, h₂⟩ := mark_not_mem (.inr (.inr rfl) : a.closing = a.bomb ∨ a.closing = a.opening ∨ a.closing = a.closing)
    simp [meanings, hclosing, hbrackets, decodePosition?_eq_none h₁, decodeDirection?_eq_none h₂,
      Line.classify_closing]
  · have hnone := Line.classify_other hother
    simp only [symbols, List.mem_append, List.mem_cons, List.not_mem_nil, or_false, not_or] at hother
    obtain ⟨⟨h₁, h₂⟩, h₃, h₄, h₅⟩ := hother
    simp [meanings, h₃, h₄, h₅, decodePosition?_eq_none h₁, decodeDirection?_eq_none h₂, hnone]

theorem classify_isSome_iff : (a.classify c).isSome ↔ c ∈ a.symbols := by
  constructor
  · intro h
    by_contra hother
    rw [Line.classify_other hother] at h
    cases h
  · intro h
    rcases Line.symbol_cases a c with ⟨d, hd⟩ | rfl | ⟨p, hp⟩ | rfl | rfl | hother
    · rw [Line.classify_direction hd]
      rfl
    · rw [Line.classify_bomb]
      rfl
    · rw [Line.classify_position hp]
      rfl
    · rw [Line.classify_opening]
      rfl
    · rw [Line.classify_closing]
      rfl
    · exact absurd h hother

end Meanings

/-- **Every alphabet is a code.** -/
theorem isCode (a : Alphabet) : a.IsCode where
  symbols _ := classify_isSome_iff
  meanings := a.meanings_eq
  positions _ _ := decodePosition?_eq_some_iff
  directions _ _ := decodeDirection?_eq_some_iff
  cells p := by
    rw [encodePosition?_isSome_iff]
    cases p.color <;> simp [columns, rows]

/-- **Making an alphabet.** Symbols make an alphabet exactly when they are unambiguous, and otherwise the answer is the
first fault. The alphabet has these symbols, and they are a code. -/
theorem make_exact (positions directions : List Char) (bomb opening closing : Char) :
    ((∃ a, make positions directions bomb opening closing = .ok a) ↔
        Unambiguous positions directions bomb opening closing) ∧
      (∀ fault, make positions directions bomb opening closing = .error fault ↔
        Refused positions directions bomb opening closing fault) ∧
      ∀ a, make positions directions bomb opening closing = .ok a →
        a.symbols = positions ++ directions ++ [bomb, opening, closing] ∧ a.IsCode := by
  refine ⟨⟨?_, Unambiguous.make⟩, fun fault => ⟨?_, Refused.make⟩, fun a made => ⟨?_, a.isCode⟩⟩
  · rintro ⟨a, made⟩
    rcases unambiguous_or_refused positions directions bomb opening closing with h | ⟨fault, h⟩
    · exact h
    · rw [h.make] at made
      cases made
  · intro refused
    rcases unambiguous_or_refused positions directions bomb opening closing with h | ⟨other, h⟩
    · obtain ⟨a, made⟩ := h.make
      rw [refused] at made
      cases made
    · rw [h.make] at refused
      cases refused
      exact h
  · obtain ⟨rfl, rfl, rfl, rfl, rfl⟩ := parts_of_make made
    rfl

/-- the symbols of the standard alphabet make it, and each has its own meaning -/
theorem standard_made :
    make "ZXCVASDFQWERzxcvasdfqwer".toList "824679135".toList '*' '[' ']' = .ok standard ∧
      standard.meanings 'r' = [.position ⟨.blue, 3, 2⟩] ∧ standard.meanings '5' = [.direction .any] ∧
      standard.meanings '0' = [] := by
  have made : make "ZXCVASDFQWERzxcvasdfqwer".toList "824679135".toList '*' '[' ']' = .ok standard := by rfl
  obtain ⟨-, -, accepted⟩ := make_exact "ZXCVASDFQWERzxcvasdfqwer".toList "824679135".toList '*' '[' ']'
  obtain ⟨-, code⟩ := accepted standard made
  refine ⟨made, ?_, ?_, ?_⟩
  · rw [code.meanings]
    rfl
  · rw [code.meanings]
    rfl
  · rw [code.meanings]
    rfl

end RhythmChart.Alphabet
