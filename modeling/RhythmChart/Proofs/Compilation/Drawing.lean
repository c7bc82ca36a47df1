/-
What a chart places is drawn with the symbols of its alphabet.

A symbol can place three things: a note to be cut, a bomb, or a wall between two corners, each at positions that have a
symbol and in every difficulty (`Placement.Drawn`). A scan places nothing else (`Line.scan_drawn`), so neither do the
frames of a chart (`Dialect.readChart_drawn`). The events of a performance come from its frames, and only the length of
a wall is changed on the way.

Main result: `compile_drawn`.
-/
import Mathlib.Tactic
import RhythmChart.Compilation
import RhythmChart.Proofs.Chart.Lines
import RhythmChart.Proofs.Performance.Origins

namespace RhythmChart

/-- a placement that symbols of the alphabet stand for -/
inductive Placement.Drawn (a : Alphabet) : Placement → Prop where
  | cut {c : Char} {p : Position} (symbol : a.decodePosition? c = some p) (d : Direction) : Drawn a (.note (.cut p d))
  | bomb {c : Char} {p : Position} (symbol : a.decodePosition? c = some p) : Drawn a (.note (.bomb p))
  | wall {c₁ c₂ : Char} {p₁ p₂ : Position} (corner₁ : a.decodePosition? c₁ = some p₁)
      (corner₂ : a.decodePosition? c₂ = some p₂) (length : Float) : Drawn a (.wall (.between p₁ p₂ length))

/-- **What is drawn is there in every difficulty.** -/
theorem Placement.Drawn.difficulties {a : Alphabet} {placement : Placement} (h : placement.Drawn a) :
    placement.difficulties = .all := by
  cases h <;> rfl

/-- a frame with such placements only -/
structure Frame.Drawn (a : Alphabet) (f : Frame) : Prop where
  notes : ∀ n ∈ f.notes, (Placement.note n).Drawn a
  walls : ∀ w ∈ f.walls, (Placement.wall w).Drawn a

/-- what comes from a drawn frame is drawn; another length makes no difference -/
theorem Event.ComesFrom.drawn {a : Alphabet} {frame : Frame} {e : Event} (h : e.ComesFrom frame)
    (hframe : frame.Drawn a) : e.placed.Drawn a := by
  cases h with
  | note placed source =>
    rw [placed]
    exact hframe.notes _ source
  | @wall w length placed source =>
    rw [placed]
    cases hframe.walls w source with
    | wall corner₁ corner₂ => exact .wall corner₁ corner₂ length

/-! ## Reading -/

theorem Alphabet.decodePosition?_of_classify {a : Alphabet} {c : Char} {p : Position}
    (h : a.classify c = some (.position p)) : a.decodePosition? c = some p := by
  unfold classify at h
  split_ifs at h
  · cases h
  · cases h
  · cases h
  · split at h
    · cases h
    · simpa using h

namespace Line

theorem readWall_drawn {a : Alphabet} {text : List Char} {w : Wall} (h : readWall a text = .ok w) :
    (Placement.wall w).Drawn a := by
  unfold readWall at h
  split at h
  · split at h
    · cases h
    · rename_i corner₁
      split at h
      · cases h
      · rename_i corner₂
        split at h
        · cases h
        · cases h
          exact .wall corner₁ corner₂ _
  · cases h

/-- what one symbol places is drawn -/
theorem Scan.step_drawn {d : Dialect} {s s' : Scan} {c : Char} {placement : Placement}
    (h : s.step d c = .ok (s', some placement)) : placement.Drawn d.alphabet := by
  unfold step at h
  split at h
  · -- inside a wall only its closing bracket places something
    split at h
    · cases h
    · split at h
      · split at h
        · cases h
        · rename_i hwall
          cases h
          exact readWall_drawn hwall
      · cases h
  · split at h
    · cases h
    · cases h
    · cases h
    · rename_i hclass
      have symbol := Alphabet.decodePosition?_of_classify hclass
      split at h
      · cases h
        exact .bomb symbol
      · split at h
        · cases h
          exact .cut symbol _
        · split at h
          · cases h
          · cases h
            exact .bomb symbol
    · cases h
    · cases h

/-- what a placing part places is drawn -/
theorem scan_drawn {d : Dialect} {s : Scan} {cs : List Char} {placements : List Placement}
    (h : scan d s cs = .ok placements) : ∀ placement ∈ placements, placement.Drawn d.alphabet := by
  induction cs generalizing s placements with
  | nil =>
    unfold scan at h
    split at h
    · cases h
    · cases h
      intro placement hp
      cases hp
  | cons c cs ih =>
    unfold scan at h
    split at h
    · cases h
    · rename_i hstep
      split at h
      · cases h
      · rename_i hrest
        cases h
        intro placement hp
        rcases List.mem_append.1 hp with hp | hp
        · rw [Option.mem_toList.1 hp] at hstep
          exact Scan.step_drawn hstep
        · exact ih hrest placement hp

theorem readParts_drawn {d : Dialect} {text : List Char} {directives : Directives} {placements : List Placement}
    (h : readParts d text = .ok (directives, placements)) : ∀ placement ∈ placements, placement.Drawn d.alphabet := by
  unfold readParts at h
  simp only at h
  split at h
  · cases h
  · split at h
    · cases h
    · rename_i hscan
      cases h
      exact scan_drawn hscan

end Line

theorem Dialect.readLine_drawn {d : Dialect} {line : Nat} {text : List Char} {f : Frame}
    (h : d.readLine line text = .ok f) : f.Drawn d.alphabet := by
  unfold readLine at h
  split at h
  · cases h
  · rename_i hparts
    cases h
    have drawn := Line.readParts_drawn hparts
    constructor
    · intro n hn
      obtain ⟨placement, hp, hnote⟩ := List.mem_filterMap.1 hn
      cases placement with
      | note => cases hnote; exact drawn _ hp
      | wall => cases hnote
    · intro w hw
      obtain ⟨placement, hp, hwall⟩ := List.mem_filterMap.1 hw
      cases placement with
      | note => cases hwall
      | wall => cases hwall; exact drawn _ hp

/-- **A chart is drawn with its alphabet.** -/
theorem Dialect.readChart_drawn {d : Dialect} {text : String} {frames : List Frame}
    (h : d.readChart text = .ok frames) : ∀ f ∈ frames, f.Drawn d.alphabet := by
  intro f hf
  obtain ⟨number, line, hread⟩ := readLine_of_mem_readChart h f hf
  exact readLine_drawn hread

/-! ## Compiling -/

/-- a compilation performs the frames of its chart to the end -/
theorem compile_ok {d : Dialect} {text : String} {c : Compilation} (h : compile d text = .ok c) :
    d.readChart text = .ok c.frames ∧
      let played := (Performance.start c.frames.toArray .blank .start).drain
      played.error = none ∧ c.events = played.events ∧ c.song = played.final.song := by
  unfold compile at h
  split at h
  · cases h
  · rename_i frames hread
    split at h
    · cases h
    · rename_i events song hperform
      cases h
      unfold perform at hperform
      simp only at hperform
      split at hperform
      · cases hperform
      · rename_i succeeded
        cases hperform
        exact ⟨hread, succeeded, rfl, rfl⟩

/-- **So are its events.** -/
theorem compile_drawn {d : Dialect} {text : String} {c : Compilation} (h : compile d text = .ok c) :
    ∀ e ∈ c.events, e.placed.Drawn d.alphabet := by
  obtain ⟨read, -, events, -⟩ := compile_ok h
  intro e he
  rw [events] at he
  obtain ⟨frame, hframe, source⟩ := Performance.events_comeFrom c.frames.toArray .blank .start e he
  exact source.drawn (Dialect.readChart_drawn read frame (by simpa using hframe))

end RhythmChart
