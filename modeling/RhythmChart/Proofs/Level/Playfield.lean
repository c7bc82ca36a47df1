/-
Everything exported lies on the playfield.

Nothing is checked at the end: the bounds come from the alphabet, whose position symbols stand for cells
(`decodePosition?_onPlayfield`). The events of a chart are drawn with these symbols (`compile_drawn`), so all that they
place lies on cells (`Placement.Drawn.wellPlaced`). What a level makes of them then stays in range: a target keeps the
cell of its note (`Note.WellPlaced.target`), and the columns of a wall are counted without an overflow
(`Wall.WellPlaced.width_toNat`).

Main result: `exported_on_playfield`.
-/
import Mathlib.Tactic
import RhythmChart.Level.Build
import RhythmChart.Proofs.Alphabet.Coding
import RhythmChart.Proofs.Compilation.Drawing

namespace RhythmChart

/-! ## Well placed -/

/-- a column and a row of the playfield -/
structure OnPlayfield (x y : UInt8) : Prop where
  column : x.toNat < columns
  row : y.toNat < rows

/-- a note in a cell, which has a direction unless it is a bomb -/
structure Note.WellPlaced (n : Note) : Prop where
  cell : OnPlayfield n.x n.y
  direction : n.direction.isSome ↔ n.color ≠ .bomb

/-- a wall between two cells -/
structure Wall.WellPlaced (w : Wall) : Prop where
  corner₁ : OnPlayfield w.x1 w.y1
  corner₂ : OnPlayfield w.x2 w.y2

def Placement.WellPlaced : Placement → Prop
  | note n => n.WellPlaced
  | wall w => w.WellPlaced

/-! ## Drawing -/

/-- a position symbol stands for a cell in one of the note colors -/
theorem Alphabet.decodePosition?_onPlayfield {a : Alphabet} {c : Char} {p : Position}
    (h : a.decodePosition? c = some p) : OnPlayfield p.x p.y ∧ p.color ≠ .bomb := by
  rw [decodePosition?_eq_some_iff] at h
  have hsome : (a.encodePosition? p).isSome := by simp [h]
  obtain ⟨⟨column, row⟩, color⟩ := encodePosition?_isSome_iff.1 hsome
  exact ⟨⟨column, row⟩, color⟩

/-- what is drawn is well placed -/
theorem Placement.Drawn.wellPlaced {a : Alphabet} {placement : Placement} (h : placement.Drawn a) :
    placement.WellPlaced := by
  cases h with
  | cut symbol d =>
    obtain ⟨cell, color⟩ := Alphabet.decodePosition?_onPlayfield symbol
    exact ⟨cell, by simpa [Note.cut] using color⟩
  | bomb symbol => exact ⟨(Alphabet.decodePosition?_onPlayfield symbol).1, by simp [Note.bomb]⟩
  | wall corner₁ corner₂ length =>
    exact ⟨(Alphabet.decodePosition?_onPlayfield corner₁).1, (Alphabet.decodePosition?_onPlayfield corner₂).1⟩

/-- **A compilation is well placed.** -/
theorem compile_wellPlaced {d : Dialect} {text : String} {c : Compilation} (h : compile d text = .ok c) :
    ∀ e ∈ c.events, e.placed.WellPlaced :=
  fun e he => (compile_drawn h e he).wellPlaced

/-! ## Levels -/

namespace Level

/-- what a target is whose note is well placed -/
structure Target.InRange (t : Target) : Prop where
  lineIndex : t.lineIndex ≤ 3
  lineLayer : t.lineLayer ≤ 2
  kind : t.kind = 0 ∨ t.kind = 1 ∨ t.kind = 3
  cutDirection : t.cutDirection ≤ 8
  /-- a bomb is cut in any direction -/
  bomb : t.kind = 3 → t.cutDirection = 8

/-- what a barrier is whose wall is well placed -/
structure Barrier.InRange (w : Wall) (b : Barrier) : Prop where
  width : 1 ≤ b.width.toNat
  inside : b.lineIndex.toNat + b.width.toNat ≤ 4
  /-- its columns are those from one corner to the other -/
  covers : ∀ column, b.lineIndex.toNat ≤ column ∧ column < b.lineIndex.toNat + b.width.toNat ↔
    min w.x1.toNat w.x2.toNat ≤ column ∧ column ≤ max w.x1.toNat w.x2.toNat
  /-- it is a ceiling when both corners are in the top row -/
  kind : b.kind = if w.y1.toNat + 1 = rows ∧ w.y2.toNat + 1 = rows then 1 else 0
  /-- neither step of the computation of the width leaves the range of a byte -/
  noOverflow : min w.x1 w.x2 ≤ max w.x1 w.x2 ∧ (max w.x1 w.x2 - min w.x1 w.x2).toNat + 1 < UInt8.size

end Level

theorem Note.WellPlaced.target {n : Note} (h : n.WellPlaced) (time : Float) :
    (Level.Target.ofNote time n).InRange ∧
      ((Level.Target.ofNote time n).kind = 0 ∨ (Level.Target.ofNote time n).kind = 1 → n.direction.isSome) := by
  obtain ⟨x, y, color, direction, difficulties⟩ := n
  obtain ⟨⟨column, row⟩, hdirection⟩ := h
  have hx : x ≤ 3 := UInt8.le_iff_toNat_le.2 (Nat.le_of_lt_succ column)
  have hy : y ≤ 2 := UInt8.le_iff_toNat_le.2 (Nat.le_of_lt_succ row)
  have hcut : ∀ d : Direction, UInt8.ofNat d.ordinal ≤ 8 := by
    intro d
    cases d <;> decide
  cases color with
  | red | blue => exact ⟨⟨hx, hy, by simp [Level.Target.ofNote, Level.colorKind], hcut _, by
      simp [Level.Target.ofNote, Level.colorKind]⟩, fun _ => hdirection.2 (by simp)⟩
  | bomb =>
    have hnone : direction = none := by simpa using hdirection
    subst hnone
    exact ⟨⟨hx, hy, .inr (.inr rfl), hcut _, fun _ => rfl⟩, by simp [Level.Target.ofNote, Level.colorKind]⟩

namespace Wall.WellPlaced

variable {w : Wall}

theorem least_le_most (w : Wall) : min w.x1 w.x2 ≤ max w.x1 w.x2 := by
  rw [UInt8.le_iff_toNat_le, UInt8.toNat_min, UInt8.toNat_max]
  omega

theorem difference_toNat (w : Wall) :
    (max w.x1 w.x2 - min w.x1 w.x2).toNat = max w.x1.toNat w.x2.toNat - min w.x1.toNat w.x2.toNat := by
  rw [UInt8.toNat_sub_of_le _ _ (least_le_most w), UInt8.toNat_max, UInt8.toNat_min]

/-- the number of columns does not overflow -/
theorem width_toNat (h : w.WellPlaced) :
    w.width.toNat = max w.x1.toNat w.x2.toNat - min w.x1.toNat w.x2.toNat + 1 := by
  have h₁ := h.corner₁.column
  have h₂ := h.corner₂.column
  unfold columns at h₁ h₂
  rw [width, UInt8.toNat_add, difference_toNat, UInt8.toNat_one]
  omega

/-- a wall is a ceiling when both corners are in the top row -/
theorem ceiling_iff (h : w.WellPlaced) :
    Level.ceilingRow ≤ w.lowest ↔ w.y1.toNat + 1 = rows ∧ w.y2.toNat + 1 = rows := by
  have h₁ := h.corner₁.row
  have h₂ := h.corner₂.row
  have htop : Level.ceilingRow.toNat = 2 := rfl
  unfold rows at h₁ h₂ ⊢
  rw [lowest, UInt8.le_iff_toNat_le, UInt8.toNat_min, htop]
  omega

theorem barrier (h : w.WellPlaced) (time : Float) : (Level.Barrier.ofWall time w).InRange w := by
  have h₁ := h.corner₁.column
  have h₂ := h.corner₂.column
  have hindex : (Level.Barrier.ofWall time w).lineIndex.toNat = min w.x1.toNat w.x2.toNat := UInt8.toNat_min w.x1 w.x2
  have hwidth : (Level.Barrier.ofWall time w).width.toNat = _ := h.width_toNat
  unfold columns at h₁ h₂
  constructor
  · omega
  · omega
  · intro column
    omega
  · simp only [Level.Barrier.ofWall, h.ceiling_iff]
  · rw [difference_toNat]
    refine ⟨least_le_most w, ?_⟩
    change _ < 256
    omega

end Wall.WellPlaced

/-- **Everything exported lies on the playfield.** Whatever chart compiles, a target of its levels has a column, a row,
a kind and a cut direction of the game; it comes from an event, and from a note with a direction unless it is a bomb.
A barrier covers the columns between the corners of the wall that it comes from and no others. -/
theorem exported_on_playfield {d : Dialect} {text : String} {c : Compilation} (compiled : compile d text = .ok c)
    (difficulty : Difficulty) (tempo : Float) :
    let level := Level.build c.events difficulty tempo
    (∀ t ∈ level.targets, t.InRange ∧ ∃ e ∈ c.events, ∃ n, e.placed = .note n ∧ t = .ofNote e.time n ∧
        (t.kind = 0 ∨ t.kind = 1 → n.direction.isSome)) ∧
      ∀ b ∈ level.barriers, ∃ e ∈ c.events, ∃ w, e.placed = .wall w ∧ b = .ofWall e.time w ∧ b.InRange w := by
  have placed := compile_wellPlaced compiled
  constructor
  · intro t ht
    obtain ⟨e, hchosen, htarget⟩ := List.mem_filterMap.1 ht
    have he : e ∈ c.events := List.mem_of_mem_filter hchosen
    have h := placed e he
    unfold Level.target? at htarget
    split at htarget
    · rename_i n hnote
      cases htarget
      rw [hnote] at h
      obtain ⟨inRange, directed⟩ := Note.WellPlaced.target h e.time
      exact ⟨inRange, e, he, n, hnote, rfl, directed⟩
    · cases htarget
  · intro b hb
    obtain ⟨e, hchosen, hbarrier⟩ := List.mem_filterMap.1 hb
    have he : e ∈ c.events := List.mem_of_mem_filter hchosen
    have h := placed e he
    unfold Level.barrier? at hbarrier
    split at hbarrier
    · cases hbarrier
    · rename_i w hwall
      cases hbarrier
      rw [hwall] at h
      exact ⟨e, he, w, hwall, rfl, Wall.WellPlaced.barrier h e.time⟩

/-- a line with a note, a bomb and a wall drawn from right to left, and a second line that layers it -/
def layeredLine : String := "8v*q[RE2];proc=p\n;proc_add=p"

/-- what it comes to: each placement twice -/
def layeredLineCompiled : Compilation :=
  let placed (time : Float) : List Event :=
    [⟨time, .note ⟨3, 0, .blue, some .up, .all⟩⟩, ⟨time, .note ⟨0, 2, .bomb, none, .all⟩⟩,
      ⟨time, .wall ⟨3, 2, 2, 2, 2, .all⟩⟩]
  ⟨[⟨1, ⟨[("proc", "p")]⟩, [⟨3, 0, .blue, some .up, .all⟩, ⟨0, 2, .bomb, none, .all⟩], [⟨3, 2, 2, 2, 2, .all⟩]⟩,
    ⟨2, ⟨[("proc_add", "p")]⟩, [], []⟩], placed 0 ++ placed 1, .blank⟩

/-- its expert level lies on the playfield -/
theorem layeredLine_on_playfield :
    let level := Level.build layeredLineCompiled.events .expert 120
    compile .standard layeredLine = .ok layeredLineCompiled ∧ level.targets.length = 4 ∧ level.barriers.length = 2 ∧
      (∀ t ∈ level.targets, t.InRange) ∧ ∀ b ∈ level.barriers, ∃ w, b.InRange w := by
  intro level
  have read : Dialect.standard.readChart layeredLine = .ok layeredLineCompiled.frames := by decide +kernel
  have performed : perform layeredLineCompiled.frames .blank =
      .ok (layeredLineCompiled.events, layeredLineCompiled.song) := by decide +kernel
  have compiled : compile .standard layeredLine = .ok layeredLineCompiled := by simp only [compile, read, performed]
  obtain ⟨targets, barriers⟩ := exported_on_playfield compiled .expert 120
  refine ⟨compiled, rfl, rfl, fun t ht => (targets t ht).1, fun b hb => ?_⟩
  obtain ⟨e, _, w, _, _, inRange⟩ := barriers b hb
  exact ⟨w, inRange⟩

end RhythmChart
