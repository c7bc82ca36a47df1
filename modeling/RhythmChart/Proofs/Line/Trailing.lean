/-
A blank at the end of a line changes nothing.

The blank ends up at the end of one part of the line, the placing part or the last directive (`pieces_snoc`). Blanks in
the placing part are left out before any symbol is read. A directive is cut at its first `=`, which is no blank, and its
value is trimmed; without a `=` the whole part is trimmed into the fault. So the line is read as before
(`Dialect.readLine_snoc_blank`), wherever it ends, also between the brackets of a wall.
-/
import Mathlib.Tactic
import RhythmChart.Proofs.Line.Reading

namespace RhythmChart

variable {c : Char} {cs : List Char}

/-! ## Texts -/

namespace Text

theorem unblanked_snoc (h : isBlank c = true) (cs : List Char) : unblanked (cs ++ [c]) = unblanked cs := by
  simp [unblanked, h]

theorem trim_snoc (h : isBlank c = true) (cs : List Char) : trim (cs ++ [c]) = trim cs := by
  unfold trim trimLeft trimRight
  rw [List.dropWhile_append]
  split
  · rename_i hblank
    rw [List.isEmpty_iff.1 hblank]
    simp [h]
  · simp [h]

theorem cutAt?_snoc {mark : Char} (h : c ≠ mark) (cs : List Char) :
    cutAt? mark (cs ++ [c]) = (cutAt? mark cs).map fun (before, after) => (before, after ++ [c]) := by
  induction cs with
  | nil => simp [cutAt?, h]
  | cons b cs ih =>
    rw [List.cons_append, cutAt?, cutAt?]
    by_cases hb : b = mark
    · simp [hb]
    · rw [if_neg hb, if_neg hb, ih, Option.map_map, Option.map_map]
      rfl

/-- the same piece, perhaps with one more character behind -/
def Extended (c : Char) (piece other : List Char) : Prop := other = piece ∨ other = piece ++ [c]

/-- a character behind a text is behind one of its pieces -/
theorem pieces_snoc {mark : Char} (h : c ≠ mark) (cs : List Char) :
    Extended c (pieces mark cs).1 (pieces mark (cs ++ [c])).1 ∧
      List.Forall₂ (Extended c) (pieces mark cs).2 (pieces mark (cs ++ [c])).2 := by
  induction cs with
  | nil => simp [pieces, h, Extended]
  | cons b cs ih =>
    obtain ⟨hfirst, hrest⟩ := ih
    rw [List.cons_append, pieces, pieces]
    by_cases hb : b = mark
    · simp only [hb, if_true]
      exact ⟨.inl rfl, .cons hfirst hrest⟩
    · simp only [hb, if_false]
      refine ⟨?_, hrest⟩
      rcases hfirst with hsame | hmore
      · exact .inl (by rw [hsame])
      · exact .inr (by rw [hmore, List.cons_append])

theorem Extended.unblanked {piece other : List Char} (hc : isBlank c = true) (h : Extended c piece other) :
    Text.unblanked other = Text.unblanked piece := by
  rcases h with rfl | rfl
  · rfl
  · exact unblanked_snoc hc piece

end Text

/-! ## Lines -/

namespace Line

theorem addDirective_extended {part other : List Char} (hc : Text.isBlank c = true)
    (h : Text.Extended c part other) (ds : Directives) : addDirective ds other = addDirective ds part := by
  rcases h with rfl | rfl
  · rfl
  · have hmark : c ≠ '=' := by
      rintro rfl
      cases hc
    rw [addDirective, addDirective, Text.cutAt?_snoc hmark]
    cases Text.cutAt? '=' part with
    | none => simp [Text.trim_snoc hc]
    | some cut => simp [Text.trim_snoc hc]

theorem readDirectives_extended {parts others : List (List Char)} (hc : Text.isBlank c = true)
    (h : List.Forall₂ (Text.Extended c) parts others) (ds : Directives) :
    readDirectives ds others = readDirectives ds parts := by
  induction h generalizing ds with
  | nil => rfl
  | cons first _ ih =>
    rw [readDirectives, readDirectives, addDirective_extended hc first]
    simp only [ih]

end Line

/-- **Trailing blanks.** A blank behind a line does not change its reading. -/
theorem Dialect.readLine_snoc_blank (d : Dialect) (line : Nat) (hc : Text.isBlank c = true) (text : List Char) :
    d.readLine line (text ++ [c]) = d.readLine line text := by
  have hmark : c ≠ ';' := by
    rintro rfl
    cases hc
  obtain ⟨hplacing, hparts⟩ := Text.pieces_snoc hmark text
  unfold readLine Line.readParts
  simp only [hplacing.unblanked hc, Line.readDirectives_extended hc hparts]

end RhythmChart
