/-
Lines of a single note: a marker and a position.

A direction or the bomb marker and a position after it are a note, read strictly or leniently (`readLine_pair`). But the
line is cut at `;` before any symbol is read, and an alphabet may use `;`: what makes an alphabet looks for blanks and for
repetitions only. A line that is cut is refused or has no note (`notes_of_cut_pair`). So an alphabet can write every note
exactly when `;` is none of its positions, no direction and not the bomb marker; as a bracket it does no harm here.

Main result: `usable_iff`. An alphabet that can be made and cannot be used: `semicolonUp_unusable`.
-/
import Mathlib.Tactic
import RhythmChart.Proofs.Line.Writing

namespace RhythmChart.Line

/-! ## Pairs of symbols -/

section Pairs

variable {d : Dialect} {m c : Char} {p : Position} {marker : Item}

theorem cut_spelled (symbol : d.alphabet.encodePosition? p = some c) (dir : Direction) :
    Spells d.alphabet [.direction dir, .position p] [d.alphabet.encodeDirection dir, c] :=
  .direction (Alphabet.decodeDirection?_eq_some_iff.2 rfl)
    (.position (Alphabet.decodePosition?_eq_some_iff.2 symbol) .done)

theorem bomb_spelled (symbol : d.alphabet.encodePosition? p = some c) :
    Spells d.alphabet [.bomb, .position p] [d.alphabet.bomb, c] :=
  .bomb (.position (Alphabet.decodePosition?_eq_some_iff.2 symbol) .done)

/-- a marker and a position place the note that the marker makes of the position -/
theorem scan_pair (hmarker : marker.isMarker = true) (spelled : Spells d.alphabet [marker, .position p] [m, c]) :
    scan d .start [m, c] = .ok [.note (noteOf [marker] p)] := by
  have allowed : Allowed d [marker, .position p] := allowed_iff.2 (allowedAfter_marked hmarker fun _ => .nil)
  rw [scan_complete spelled allowed]
  cases marker with
  | direction _ | bomb => rfl
  | position _ | wall _ _ _ => cases hmarker

theorem unblanked_pair (hmarker : marker.isMarker = true)
    (spelled : Spells d.alphabet [marker, .position p] [m, c]) : Text.unblanked [m, c] = [m, c] := by
  have hm : m ∈ d.alphabet.symbols := by
    cases spelled with
    | direction symbol _ => simp [Alphabet.symbols, mem_directions symbol]
    | bomb _ => simp [Alphabet.symbols]
    | position _ _ => cases hmarker
  have hc : c ∈ d.alphabet.symbols := by
    cases spelled with
    | direction _ rest | bomb rest =>
      cases rest with
      | position symbol _ => simp [Alphabet.symbols, mem_positions symbol]
    | position _ _ => cases hmarker
  simp [Text.unblanked, d.alphabet.not_blank m hm, d.alphabet.not_blank c hc]

/-- a pair without `;` is read as the note -/
theorem readLine_pair (hmarker : marker.isMarker = true) (spelled : Spells d.alphabet [marker, .position p] [m, c])
    (hm : m ≠ ';') (hc : c ≠ ';') (line : Nat) :
    d.readLine line [m, c] = .ok ⟨line, .empty, [noteOf [marker] p], []⟩ := by
  have hmark : ';' ∉ [m, c] := by simp [hm.symm, hc.symm]
  obtain ⟨hplacing, hparts⟩ := parts_of_not_mem hmark
  have hdirectives : readDirectives .empty (directiveParts [m, c]) = .ok .empty := by
    rw [hparts]
    rfl
  rw [readLine_placing hdirectives, hplacing, unblanked_pair hmarker spelled, scan_pair hmarker spelled]
  rfl

/-- a pair that is cut at `;` is refused or read without a note -/
theorem notes_of_cut_pair (h : m = ';' ∨ c = ';') {line : Nat} {frame : Frame}
    (hread : d.readLine line [m, c] = .ok frame) : frame.notes = [] := by
  cases hdirectives : readDirectives .empty (directiveParts [m, c]) with
  | error fault =>
    rw [readLine_malformed hdirectives] at hread
    cases hread
  | ok ds =>
    by_cases hm : m = ';'
    · subst hm
      have hplacing : placingPart [';', c] = [] := (parts_append_mark List.not_mem_nil [c]).1
      rw [readLine_placing hdirectives, hplacing] at hread
      cases hread
      rfl
    · -- nothing stands behind the `;`, and that is no directive
      obtain rfl := h.resolve_left hm
      have hmark : ';' ∉ [m] := by simp [Ne.symm hm]
      have hparts : directiveParts [m, ';'] = [[]] := (parts_append_mark hmark []).2
      rw [hparts] at hdirectives
      cases hdirectives

/-- so a pair is read as its note exactly when it is not cut -/
theorem readLine_pair_iff (hmarker : marker.isMarker = true)
    (spelled : Spells d.alphabet [marker, .position p] [m, c]) (line : Nat) :
    d.readLine line [m, c] = .ok ⟨line, .empty, [noteOf [marker] p], []⟩ ↔ m ≠ ';' ∧ c ≠ ';' := by
  constructor
  · intro hread
    by_contra hcut
    have hnotes := notes_of_cut_pair (by tauto) hread
    simp at hnotes
  · rintro ⟨hm, hc⟩
    exact readLine_pair hmarker spelled hm hc line

theorem readLine_cut_iff (symbol : d.alphabet.encodePosition? p = some c) (dir : Direction) (line : Nat) :
    d.readLine line [d.alphabet.encodeDirection dir, c] = .ok ⟨line, .empty, [.cut p dir], []⟩ ↔
      d.alphabet.encodeDirection dir ≠ ';' ∧ c ≠ ';' :=
  readLine_pair_iff rfl (cut_spelled symbol dir) line

theorem readLine_bomb_iff (symbol : d.alphabet.encodePosition? p = some c) (line : Nat) :
    d.readLine line [d.alphabet.bomb, c] = .ok ⟨line, .empty, [.bomb p], []⟩ ↔ d.alphabet.bomb ≠ ';' ∧ c ≠ ';' :=
  readLine_pair_iff rfl (bomb_spelled symbol) line

end Pairs

/-! ## Alphabets -/

/-- every note and every bomb has a line of its own: its marker and its position -/
structure Usable (d : Dialect) : Prop where
  notes : ∀ line dir p c, d.alphabet.encodePosition? p = some c →
    d.readLine line [d.alphabet.encodeDirection dir, c] = .ok ⟨line, .empty, [.cut p dir], []⟩
  bombs : ∀ line p c, d.alphabet.encodePosition? p = some c →
    d.readLine line [d.alphabet.bomb, c] = .ok ⟨line, .empty, [.bomb p], []⟩

/-- `;` among the symbols of notes would cut the line of some note -/
theorem Usable.mark_not_mem {d : Dialect} (h : Usable d) :
    ';' ∉ d.alphabet.positions ++ d.alphabet.directions ++ [d.alphabet.bomb] := by
  have hcell : OnField 0 0 := ⟨by decide, by decide⟩
  have hred : Color.red ≠ .bomb := by decide
  obtain ⟨c, symbol⟩ := exists_symbol d.alphabet hcell hred
  intro hmem
  simp only [List.mem_append, List.mem_singleton] at hmem
  rcases hmem with (hposition | hdirection) | hbomb
  · obtain ⟨p, hp⟩ := decodePosition_of_mem hposition
    have symbol := Alphabet.decodePosition?_eq_some_iff.1 hp
    exact ((readLine_bomb_iff symbol 1).1 (h.bombs 1 p _ symbol)).2 rfl
  · obtain ⟨dir, hdir⟩ := decodeDirection_of_mem hdirection
    have hcut := (readLine_cut_iff symbol dir 1).1 (h.notes 1 dir _ c symbol)
    exact hcut.1 (Alphabet.decodeDirection?_eq_some_iff.1 hdir)
  · exact ((readLine_bomb_iff symbol 1).1 (h.bombs 1 _ c symbol)).1 hbomb.symm

/-- otherwise no such line is cut -/
theorem usable_of_not_mem {d : Dialect} (h : ';' ∉ d.alphabet.positions ++ d.alphabet.directions ++ [d.alphabet.bomb]) :
    Usable d := by
  simp only [List.mem_append, List.mem_singleton, not_or] at h
  obtain ⟨⟨hpositions, hdirections⟩, hbomb⟩ := h
  have hposition : ∀ p c, d.alphabet.encodePosition? p = some c → c ≠ ';' := by
    rintro p c symbol rfl
    exact hpositions (Alphabet.encodePosition?_mem symbol)
  have hdirection : ∀ dir, d.alphabet.encodeDirection dir ≠ ';' := by
    intro dir hdir
    exact hdirections (hdir ▸ d.alphabet.encodeDirection_mem dir)
  constructor
  · intro line dir p c symbol
    exact (readLine_cut_iff symbol dir line).2 ⟨hdirection dir, hposition p c symbol⟩
  · intro line p c symbol
    exact (readLine_bomb_iff symbol line).2 ⟨Ne.symm hbomb, hposition p c symbol⟩

/-- **Which alphabets can be used.** Every note and every bomb on the playfield has a line of its own, read strictly or
leniently, exactly when no position, no direction and not the bomb marker is `;`. In any alphabet these lines are read as
their note exactly when `;` is not in them, and a line with `;` in it has no note. -/
theorem usable_iff (d : Dialect) :
    (Usable d ↔ ';' ∉ d.alphabet.positions ++ d.alphabet.directions ++ [d.alphabet.bomb]) ∧
      ∀ line p c, d.alphabet.encodePosition? p = some c →
        (∀ dir, d.readLine line [d.alphabet.encodeDirection dir, c] = .ok ⟨line, .empty, [.cut p dir], []⟩ ↔
          d.alphabet.encodeDirection dir ≠ ';' ∧ c ≠ ';') ∧
        (d.readLine line [d.alphabet.bomb, c] = .ok ⟨line, .empty, [.bomb p], []⟩ ↔
          d.alphabet.bomb ≠ ';' ∧ c ≠ ';') ∧
        ∀ m frame, m = ';' ∨ c = ';' → d.readLine line [m, c] = .ok frame → frame.notes = [] := by
  refine ⟨⟨Usable.mark_not_mem, usable_of_not_mem⟩, ?_⟩
  intro line p c symbol
  refine ⟨fun dir => readLine_cut_iff symbol dir line, readLine_bomb_iff symbol line, ?_⟩
  intro m frame hcut hread
  exact notes_of_cut_pair hcut hread

/-- the standard alphabet with `;` for a wall's end -/
def semicolonClosing : Alphabet :=
  { Alphabet.standard with
    closing := ';'
    distinct := ((@Alphabet.firstFault_eq_none [] _).1 (by rfl)).2.2
    not_blank := ((@Alphabet.firstFault_eq_none [] _).1 (by rfl)).1 }

/-- it still writes every note, here a strict one -/
theorem semicolonClosing_usable :
    ';' ∉ semicolonClosing.positions ++ semicolonClosing.directions ++ [semicolonClosing.bomb] ∧
      semicolonClosing.encodePosition? ⟨.blue, 3, 2⟩ = some 'r' ∧
      Dialect.readLine ⟨semicolonClosing, true⟩ 2 "5r".toList = .ok ⟨2, .empty, [.cut ⟨.blue, 3, 2⟩ .any], []⟩ := by
  have absent : ';' ∉ semicolonClosing.positions ++ semicolonClosing.directions ++ [semicolonClosing.bomb] := by decide
  have symbol : semicolonClosing.encodePosition? ⟨.blue, 3, 2⟩ = some 'r' := by decide
  exact ⟨absent, symbol, ((usable_iff ⟨semicolonClosing, true⟩).1.2 absent).notes 2 .any _ _ symbol⟩

/-- the standard alphabet with `;` for the upward direction -/
def semicolonUp : Alphabet :=
  { Alphabet.standard with
    directions := ";24679135".toList
    directions_length := by decide
    distinct := ((@Alphabet.firstFault_eq_none [] _).1 (by rfl)).2.2
    not_blank := ((@Alphabet.firstFault_eq_none [] _).1 (by rfl)).1 }

/-- it is made without a fault, and an upward note on the first cell is taken for a malformed directive -/
theorem semicolonUp_unusable :
    Alphabet.make "ZXCVASDFQWERzxcvasdfqwer".toList ";24679135".toList '*' '[' ']' = .ok semicolonUp ∧
      semicolonUp.encodeDirection .up = ';' ∧ semicolonUp.encodePosition? ⟨.red, 0, 0⟩ = some 'Z' ∧
      Dialect.readLine ⟨semicolonUp, false⟩ 1 ";Z".toList = .error ⟨1, .malformedDirective "Z"⟩ ∧
      ¬ Usable ⟨semicolonUp, false⟩ := by
  have made : Alphabet.make "ZXCVASDFQWERzxcvasdfqwer".toList ";24679135".toList '*' '[' ']' = .ok semicolonUp := by rfl
  have direction : semicolonUp.encodeDirection .up = ';' := by decide
  have symbol : semicolonUp.encodePosition? ⟨.red, 0, 0⟩ = some 'Z' := by decide
  have refused : Dialect.readLine ⟨semicolonUp, false⟩ 1 ";Z".toList = .error ⟨1, .malformedDirective "Z"⟩ := by rfl
  refine ⟨made, direction, symbol, refused, fun usable => ?_⟩
  have hread : Dialect.readLine ⟨semicolonUp, false⟩ 1 ";Z".toList = .ok _ := usable.notes 1 .up _ _ symbol
  rw [refused] at hread
  cases hread

end RhythmChart.Line
