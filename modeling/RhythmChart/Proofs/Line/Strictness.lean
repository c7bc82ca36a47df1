/-
A strict dialect refuses more than a lenient one of the same alphabet, and changes nothing else.

Both read the same items, and a flaw of the lenient reading is a flaw of the strict one (`Flaw.strict`). Items that a
strict dialect does not allow have a first position without a license (`allowed_or_unlicensed`), and it stands before
whatever the lenient reading refuses, because it is one of the items in order (`spells_append`, `Unlicensed`). So the two
scans agree or the strict one ends at that position (`scan_strict`).

Main result: `readLine_strict`.
-/
import Mathlib.Tactic
import RhythmChart.Proofs.Line.Reading

namespace RhythmChart.Line

/-! ## Items -/

section Items

variable {a : Alphabet} {items after : List Item} {cs : List Char} {fault : Fault}

/-- a text of items in a row is their texts in a row -/
theorem spells_append {before : List Item} (h : Spells a (before ++ after) cs) :
    ∃ xs ys, cs = xs ++ ys ∧ Spells a before xs ∧ Spells a after ys := by
  induction before generalizing cs with
  | nil => exact ⟨[], cs, rfl, .done, h⟩
  | cons i before ih =>
    rw [List.cons_append] at h
    cases h with
    | @direction c _ _ _ symbol rest =>
      obtain ⟨xs, ys, rfl, hbefore, hafter⟩ := ih rest
      exact ⟨c :: xs, ys, rfl, .direction symbol hbefore, hafter⟩
    | bomb rest =>
      obtain ⟨xs, ys, rfl, hbefore, hafter⟩ := ih rest
      exact ⟨a.bomb :: xs, ys, rfl, .bomb hbefore, hafter⟩
    | @position c _ _ _ symbol rest =>
      obtain ⟨xs, ys, rfl, hbefore, hafter⟩ := ih rest
      exact ⟨c :: xs, ys, rfl, .position symbol hbefore, hafter⟩
    | @wall c₁ c₂ digits _ _ _ _ _ inside corner₁ corner₂ length rest =>
      obtain ⟨xs, ys, rfl, hbefore, hafter⟩ := ih rest
      exact ⟨a.opening :: (c₁ :: c₂ :: digits) ++ a.closing :: xs, ys, by simp,
        .wall inside corner₁ corner₂ length hbefore, hafter⟩

/-- items are allowed, or have a first position that nothing licenses -/
theorem allowed_or_unlicensed (d : Dialect) (start items : List Item) :
    AllowedAfter d start items ∨ ∃ before p after, items = before ++ .position p :: after ∧
      AllowedAfter d start before ∧ ¬ Licensed (start ++ before) := by
  induction items generalizing start with
  | nil => exact .inl .nil
  | cons i items ih =>
    by_cases hfirst : i.isPosition = true ∧ ¬ Licensed start
    · obtain ⟨hposition, hnot⟩ := hfirst
      cases i with
      | position p => exact .inr ⟨[], p, items, rfl, .nil, by simpa using hnot⟩
      | direction _ | bomb | wall _ _ _ => cases hposition
    · have license : d.strict = true → i.isPosition = true → Licensed start := by
        intro _ hposition
        by_contra hnot
        exact hfirst ⟨hposition, hnot⟩
      rcases ih (start ++ [i]) with hrest | ⟨before, p, after, rfl, hbefore, hnot⟩
      · exact .inl (allowedAfter_cons.2 ⟨license, hrest⟩)
      · refine .inr ⟨i :: before, p, after, rfl, allowedAfter_cons.2 ⟨license, hbefore⟩, ?_⟩
        simpa using hnot

/-- what a lenient dialect refuses, a strict one refuses for the same reason -/
theorem Flaw.strict (h : Flaw ⟨a, false⟩ items cs fault) : Flaw ⟨a, true⟩ items cs fault := by
  cases h with
  | stray symbol => exact .stray symbol
  | unlicensed strict => cases strict
  | nested inside => exact .nested inside
  | unclosed inside => exact .unclosed inside
  | incomplete inside short => exact .incomplete inside short
  | corner₁ inside symbol => exact .corner₁ inside symbol
  | corner₂ inside corner₁ symbol => exact .corner₂ inside corner₁ symbol
  | length inside corner₁ corner₂ numeral => exact .length inside corner₁ corner₂ numeral

theorem Flaw.ne_malformed {d : Dialect} (h : Flaw d items cs fault) (part : String) :
    fault ≠ .malformedDirective part := by
  cases h <;> simp

end Items

/-! ## The placing part -/

section Placing

variable {a : Alphabet} {items : List Item} {left rest : List Char}

/-- items in order, and nothing or a flaw after them -/
inductive Ending (d : Dialect) (items : List Item) : List Char → Except Fault (List Placement) → Prop where
  | complete : Ending d items [] (.ok (placementsAfter [] items))
  | flawed {rest : List Char} {fault : Fault} (flaw : Flaw d items rest fault) : Ending d items rest (.error fault)

theorem Ending.strict {result : Except Fault (List Placement)} (h : Ending ⟨a, false⟩ items rest result) :
    Ending ⟨a, true⟩ items rest result := by
  cases h with
  | complete => exact .complete
  | flawed flaw => exact .flawed flaw.strict

/-- the scan of allowed items answers what comes after them -/
theorem Ending.scan {d : Dialect} {result : Except Fault (List Placement)} (h : Ending d items rest result)
    (spelled : Spells d.alphabet items left) (allowed : Allowed d items) : scan d .start (left ++ rest) = result := by
  cases h with
  | complete => rw [List.append_nil, scan_complete spelled allowed]
  | flawed flaw => exact scan_refused spelled allowed flaw

/-- every text is items in order with such an ending -/
theorem exists_ending (d : Dialect) (cs : List Char) :
    ∃ items left rest result, cs = left ++ rest ∧ Spells d.alphabet items left ∧ Allowed d items ∧
      Ending d items rest result := by
  obtain ⟨items, left, spelled, allowed, rfl | ⟨rest, fault, rfl, flaw⟩⟩ := spells_or_flaw d cs []
  · exact ⟨items, cs, [], _, (List.append_nil cs).symm, spelled, allowed_iff.2 allowed, .complete⟩
  · exact ⟨items, left, rest, _, rfl, spelled, allowed_iff.2 allowed, .flawed flaw⟩

/-- a position symbol after items that do not license it -/
def Unlicensed (a : Alphabet) (cs : List Char) (c : Char) : Prop :=
  ∃ items before after p, cs = before ++ c :: after ∧ Spells a items before ∧ a.decodePosition? c = some p ∧
    ¬ Licensed items

theorem Unlicensed.append {c : Char} (h : Unlicensed a left c) (rest : List Char) : Unlicensed a (left ++ rest) c := by
  obtain ⟨items, before, after, p, rfl, spelled, symbol, license⟩ := h
  exact ⟨items, before, after ++ rest, p, by simp, spelled, symbol, license⟩

/-- **The two scans.** They agree, or the strict one ends at a position among the items that the lenient one reads. -/
theorem scan_strict (spelled : Spells a items left) {result : Except Fault (List Placement)}
    (h : Ending ⟨a, false⟩ items rest result) :
    scan ⟨a, true⟩ .start (left ++ rest) = result ∨
      ∃ c, Unlicensed a left c ∧ scan ⟨a, true⟩ .start (left ++ rest) = .error (.positionBeforeDirection c) := by
  rcases allowed_or_unlicensed ⟨a, true⟩ [] items with allowed | ⟨before, p, after, rfl, hbefore, hnot⟩
  · exact .inl (h.strict.scan spelled (allowed_iff.2 allowed))
  · obtain ⟨xs, ys, rfl, hxs, hys⟩ := spells_append spelled
    cases hys with
    | @position c _ _ ys symbol _ =>
      refine .inr ⟨c, ⟨before, xs, ys, p, rfl, hxs, symbol, hnot⟩, ?_⟩
      have flaw : Flaw ⟨a, true⟩ before (c :: ys ++ rest) (.positionBeforeDirection c) := .unlicensed rfl symbol hnot
      rw [List.append_assoc]
      exact (Ending.flawed flaw).scan hxs (allowed_iff.2 hbefore)

end Placing

/-! ## Lines -/

/-- **Strictness only refuses more.** The strict and the lenient reading of a line are the same, or the strict one
refuses a position of that line before a direction. What the lenient reading refuses in the placing part, after the items
on the left that it reads, the strict reading refuses for the same reason, or it refuses a position among those items. A
malformed directive is refused by both or by neither. -/
theorem readLine_strict (a : Alphabet) (line : Nat) (text : List Char) :
    ((Dialect.mk a true).readLine line text = (Dialect.mk a false).readLine line text ∨
        ∃ c, Unlicensed a (Text.unblanked (placingPart text)) c ∧
          (Dialect.mk a true).readLine line text = .error ⟨line, .positionBeforeDirection c⟩) ∧
      (∀ e, (Dialect.mk a false).readLine line text = .error e → (∀ part, e.fault ≠ .malformedDirective part) →
        ∃ items left rest, Text.unblanked (placingPart text) = left ++ rest ∧ Spells a items left ∧
          Flaw ⟨a, false⟩ items rest e.fault ∧
          ((Dialect.mk a true).readLine line text = .error e ∨
            ∃ c, Unlicensed a left c ∧
              (Dialect.mk a true).readLine line text = .error ⟨line, .positionBeforeDirection c⟩)) ∧
      ∀ part, (Dialect.mk a true).readLine line text = .error ⟨line, .malformedDirective part⟩ ↔
        (Dialect.mk a false).readLine line text = .error ⟨line, .malformedDirective part⟩ := by
  cases hdirectives : readDirectives .empty (directiveParts text) with
  | error fault =>
    rw [readLine_malformed hdirectives, readLine_malformed hdirectives]
    obtain ⟨part, rfl⟩ := readDirectives_malformed hdirectives
    refine ⟨.inl rfl, fun e he hother => ?_, fun _ => Iff.rfl⟩
    cases he
    exact absurd rfl (hother part)
  | ok ds =>
    obtain ⟨items, left, rest, result, hplacing, spelled, allowed, ending⟩ :=
      exists_ending ⟨a, false⟩ (Text.unblanked (placingPart text))
    have lenient := readLine_placing hdirectives ⟨a, false⟩ line
    have strict := readLine_placing hdirectives ⟨a, true⟩ line
    rw [hplacing] at lenient strict
    rw [ending.scan spelled allowed] at lenient
    rcases scan_strict spelled ending with hsame | ⟨c, hc, hposition⟩
    · rw [hsame] at strict
      rw [strict, lenient]
      refine ⟨.inl rfl, fun e he _ => ?_, fun _ => Iff.rfl⟩
      cases ending with
      | complete => cases he
      | flawed flaw =>
        cases he
        exact ⟨items, left, rest, hplacing, spelled, flaw, .inl rfl⟩
    · rw [hposition] at strict
      rw [strict, lenient, hplacing]
      refine ⟨.inr ⟨c, hc.append rest, rfl⟩, fun e he _ => ?_, fun part => ?_⟩
      · cases ending with
        | complete => cases he
        | flawed flaw =>
          cases he
          exact ⟨items, left, rest, rfl, spelled, flaw, .inr ⟨c, hc, rfl⟩⟩
      · cases ending with
        | complete => simp
        | flawed flaw => simp [flaw.ne_malformed part]

/-- a second position after a bomb marker, and then a wall whose first corner is a direction -/
theorem bombedLine_strict :
    (Dialect.mk .standard false).readLine 4 "*Z X [8V2];bpm=90".toList = .error ⟨4, .unrecognizedSymbol '8'⟩ ∧
      ∃ items left rest c, "*ZX[8V2]".toList = left ++ rest ∧
        Flaw ⟨.standard, false⟩ items rest (.unrecognizedSymbol '8') ∧ Unlicensed .standard left c ∧
        (Dialect.mk .standard true).readLine 4 "*Z X [8V2];bpm=90".toList = .error ⟨4, .positionBeforeDirection c⟩ := by
  have lenient : (Dialect.mk .standard false).readLine 4 "*Z X [8V2];bpm=90".toList =
      .error ⟨4, .unrecognizedSymbol '8'⟩ := by rfl
  obtain ⟨-, earlier, -⟩ := readLine_strict .standard 4 "*Z X [8V2];bpm=90".toList
  obtain ⟨items, left, rest, hplacing, _, flaw, hsame | ⟨c, hc, hstrict⟩⟩ := earlier _ lenient (by simp)
  · cases hsame
  · exact ⟨lenient, items, left, rest, c, hplacing, flaw, hc, hstrict⟩

end RhythmChart.Line
