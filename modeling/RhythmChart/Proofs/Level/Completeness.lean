/-
The five levels of a chart are alike and complete.

What a chart places is there in every difficulty (`Placement.Drawn.difficulties`), so the filter by difficulty drops
nothing: the level of any difficulty holds every note and every wall (`Level.build_full`), and it is left out only if
there is no note at all (`LevelSet.levelsOf_full`).

Main result: `chart_levels_alike`.
-/
import Mathlib.Tactic
import RhythmChart.Level.Build
import RhythmChart.Proofs.Compilation.Drawing

namespace RhythmChart

/-! ## What events hold -/

/-- the notes of events, each with its time -/
def notesOf (events : List Event) : List (Float × Note) := events.filterMap fun e => e.placed.note?.map (e.time, ·)

/-- the walls of events, each with its time -/
def wallsOf (events : List Event) : List (Float × Wall) := events.filterMap fun e => e.placed.wall?.map (e.time, ·)

theorem filterMap_target (events : List Event) :
    events.filterMap Level.target? = (notesOf events).map fun (time, n) => .ofNote time n := by
  rw [notesOf, List.map_filterMap]
  congr 1
  funext e
  unfold Level.target?
  cases e.placed <;> rfl

theorem filterMap_barrier (events : List Event) :
    events.filterMap Level.barrier? = (wallsOf events).map fun (time, w) => .ofWall time w := by
  rw [wallsOf, List.map_filterMap]
  congr 1
  funext e
  unfold Level.barrier?
  cases e.placed <;> rfl

theorem mem_notesOf {events : List Event} {time : Float} {n : Note} :
    (time, n) ∈ notesOf events ↔ ⟨time, .note n⟩ ∈ events := by
  unfold notesOf
  rw [List.mem_filterMap]
  constructor
  · rintro ⟨⟨_, placed⟩, he, hn⟩
    cases placed with
    | note m =>
      cases hn
      exact he
    | wall w => cases hn
  · intro he
    exact ⟨_, he, rfl⟩

theorem mem_wallsOf {events : List Event} {time : Float} {w : Wall} :
    (time, w) ∈ wallsOf events ↔ ⟨time, .wall w⟩ ∈ events := by
  unfold wallsOf
  rw [List.mem_filterMap]
  constructor
  · rintro ⟨⟨_, placed⟩, he, hw⟩
    cases placed with
    | note n => cases hw
    | wall v =>
      cases hw
      exact he
  · intro he
    exact ⟨_, he, rfl⟩

theorem notesOf_eq_nil_iff {events : List Event} : notesOf events = [] ↔ ∀ e ∈ events, e.isNote = false := by
  unfold notesOf Event.isNote
  rw [List.filterMap_eq_nil_iff]
  refine forall₂_congr fun e _ => ?_
  cases e.placed.note? <;> simp

/-! ## Levels -/

/-- the level with every note and every wall of the events -/
def Level.full (events : List Event) (tempo : Float) : Level :=
  { Level.empty tempo with
    targets := (notesOf events).map fun (time, n) => .ofNote time n
    barriers := (wallsOf events).map fun (time, w) => .ofWall time w }

/-- the level of a difficulty in which all events appear -/
theorem Level.build_full {events : List Event} {d : Difficulty} (h : ∀ e ∈ events, e.difficulties.contains d = true)
    (tempo : Float) : Level.build events d tempo = Level.full events tempo := by
  rw [build, List.filter_eq_self.2 h]
  simp only [filterMap_target, filterMap_barrier]
  rfl

/-- there are all levels or none -/
theorem LevelSet.levelsOf_full {events : List Event} (h : ∀ e ∈ events, e.difficulties = .all) (tempo : Float) :
    levelsOf events tempo = if notesOf events = [] then [] else Difficulty.all.map (·, Level.full events tempo) := by
  have hbuild : ∀ d, Level.build events d tempo = Level.full events tempo := by
    intro d
    refine Level.build_full (fun e he => ?_) tempo
    rw [h e he]
    exact Difficulties.all_contains d
  unfold levelsOf
  simp only [hbuild]
  split_ifs with hnone
  · simp [Level.full, hnone]
  · exact List.filter_eq_self.2 (by simp [Level.full, hnone])

/-- **The levels of a chart are alike and complete.** A chart that compiles and has a tempo can be exported. Without a
note there is neither a level nor an entry for one. Otherwise there is one level for each difficulty, in rank order and
with an entry in the manifest; they are all the same, and hold every note and every wall once, in the order and with the
times of the events. -/
theorem chart_levels_alike {d : Dialect} {text : String} {c : Compilation} {tempo : Float}
    (compiled : compile d text = .ok c) (timed : c.song.tempo = some tempo) (audioPath : String) (cover : Option String) :
    ∃ set, LevelSet.build c.events c.song audioPath cover = .ok set ∧
      (((set.levels = [] ∧ set.manifest.entries = []) ∧ ∀ e ∈ c.events, e.isNote = false) ∨
        (∃ e ∈ c.events, e.isNote = true) ∧ set.manifest.entries.map (·.difficulty) = Difficulty.all ∧
          ∃ level, set.levels = Difficulty.all.map (·, level) ∧
            level.targets = ((notesOf c.events).map fun (time, n) => .ofNote time n) ∧
            level.barriers = (wallsOf c.events).map fun (time, w) => .ofWall time w) := by
  have full : ∀ e ∈ c.events, e.difficulties = .all := fun e he => (compile_drawn compiled e he).difficulties
  have levels := LevelSet.levelsOf_full full tempo
  unfold LevelSet.build
  rw [timed]
  refine ⟨_, rfl, ?_⟩
  by_cases hnone : notesOf c.events = []
  · rw [if_pos hnone] at levels
    exact .inl ⟨⟨levels, by simp [levels]⟩, notesOf_eq_nil_iff.1 hnone⟩
  · rw [if_neg hnone] at levels
    refine .inr ⟨?_, ?_, _, levels, rfl, rfl⟩
    · by_contra hno
      refine hnone (notesOf_eq_nil_iff.2 fun e he => ?_)
      exact Bool.eq_false_iff.2 fun hnote => hno ⟨e, he, hnote⟩
    · simp only [levels]
      rfl

/-- a note and a wall in a procedure that is layered where a bomb is placed -/
def walledChart : String := "8v[RE2];bpm=120;proc=p\n*q;proc_add=p;measure=2"

/-- each of its five levels has three targets and two barriers -/
theorem walledChart_levels :
    ∃ c set level, compile .standard walledChart = .ok c ∧ c.song.tempo = some 120 ∧
      LevelSet.build c.events c.song "song.ogg" none = .ok set ∧ set.levels = Difficulty.all.map (·, level) ∧
      level.targets.length = 3 ∧ level.barriers.length = 2 := by
  have outcome : (compile .standard walledChart).toOption.map
      (fun c => (c.song.tempo, (notesOf c.events).length, (wallsOf c.events).length)) = some (some 120, 3, 2) := by
    decide +kernel
  cases compiled : compile .standard walledChart with
  | error e =>
    rw [compiled] at outcome
    cases outcome
  | ok c =>
    rw [compiled] at outcome
    simp only [Except.toOption, Option.map_some, Option.some.injEq, Prod.mk.injEq] at outcome
    obtain ⟨timed, notes, walls⟩ := outcome
    obtain ⟨set, built, ⟨_, silent⟩ | ⟨_, _, level, levels, targets, barriers⟩⟩ :=
      chart_levels_alike compiled timed "song.ogg" none
    · rw [notesOf_eq_nil_iff.2 silent] at notes
      cases notes
    · exact ⟨c, set, level, rfl, timed, built, levels, by rw [targets, List.length_map, notes],
        by rw [barriers, List.length_map, walls]⟩

end RhythmChart
