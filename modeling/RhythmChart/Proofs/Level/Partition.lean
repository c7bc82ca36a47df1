/-
Levels partition the events by the bits of their difficulties.

A difficulty is in a mask when the bit of its rank is set, whatever the bits above the ranks are
(`Difficulties.contains_eq_testBit`). A level holds what is marked for its difficulty, so it can be built piece by piece
(`Level.targets_append`, `Level.barriers_append`). Only difficulties with a marked note have a level
(`LevelSet.mem_levelsOf`); walls alone make none.

Main result: `LevelSet.build_partitions`.
-/
import Mathlib.Tactic
import Mathlib.Data.Nat.Bitwise
import RhythmChart.Proofs.Level.Completeness
import RhythmChart.Proofs.Level.Saving

namespace RhythmChart

variable {events : List Event} {d : Difficulty} {tempo : Float}

/-! ## Bits of a mask -/

theorem Difficulty.bit_toNat (d : Difficulty) : d.bit.toNat = 2 ^ d.rank.toNat := by
  cases d <;> rfl

theorem Difficulties.contains_eq_testBit (s : Difficulties) (d : Difficulty) :
    s.contains d = s.bits.toNat.testBit d.rank.toNat := by
  rw [Bool.eq_iff_iff, contains, bne_iff_ne, ne_eq, ← UInt8.toNat_inj, UInt8.toNat_and, d.bit_toNat, Nat.and_two_pow]
  cases s.bits.toNat.testBit d.rank.toNat <;> simp

theorem Difficulty.all_ranks : Difficulty.all.Pairwise (·.rank < ·.rank) := by decide

/-! ## What is marked for a difficulty -/

/-- the notes of events in whose mask the bit of a difficulty is set -/
def notesIn (d : Difficulty) (events : List Event) : List (Float × Note) :=
  (notesOf events).filter fun (_, n) => n.difficulties.bits.toNat.testBit d.rank.toNat

/-- the walls of events in whose mask the bit of a difficulty is set -/
def wallsIn (d : Difficulty) (events : List Event) : List (Float × Wall) :=
  (wallsOf events).filter fun (_, w) => w.difficulties.bits.toNat.testBit d.rank.toNat

theorem notesOf_filter (d : Difficulty) (events : List Event) :
    notesOf (events.filter (·.difficulties.contains d)) = notesIn d events := by
  rw [notesOf, notesIn, notesOf, List.filterMap_filter, List.filter_filterMap]
  congr 1
  funext e
  rw [Difficulties.contains_eq_testBit, Event.difficulties]
  cases e.placed with
  | note n => rfl
  | wall w => exact ite_self none

theorem wallsOf_filter (d : Difficulty) (events : List Event) :
    wallsOf (events.filter (·.difficulties.contains d)) = wallsIn d events := by
  rw [wallsOf, wallsIn, wallsOf, List.filterMap_filter, List.filter_filterMap]
  congr 1
  funext e
  rw [Difficulties.contains_eq_testBit, Event.difficulties]
  cases e.placed with
  | note n => exact ite_self none
  | wall w => rfl

theorem notesIn_ne_nil_iff : notesIn d events ≠ [] ↔
    ∃ time n, ⟨time, .note n⟩ ∈ events ∧ n.difficulties.bits.toNat.testBit d.rank.toNat = true := by
  rw [ne_eq, List.eq_nil_iff_forall_not_mem, not_forall]
  simp only [not_not, notesIn, List.mem_filter, Prod.exists, mem_notesOf]

/-! ## Levels -/

namespace Level

theorem targets_build (events : List Event) (d : Difficulty) (tempo : Float) :
    (build events d tempo).targets = (notesIn d events).map fun (time, n) => .ofNote time n := by
  rw [← notesOf_filter, ← filterMap_target]
  rfl

theorem barriers_build (events : List Event) (d : Difficulty) (tempo : Float) :
    (build events d tempo).barriers = (wallsIn d events).map fun (time, w) => .ofWall time w := by
  rw [← wallsOf_filter, ← filterMap_barrier]
  rfl

theorem targets_append (before after : List Event) (d : Difficulty) (tempo : Float) :
    (build (before ++ after) d tempo).targets = (build before d tempo).targets ++ (build after d tempo).targets := by
  simp only [build, List.filter_append, List.filterMap_append]

theorem barriers_append (before after : List Event) (d : Difficulty) (tempo : Float) :
    (build (before ++ after) d tempo).barriers =
      (build before d tempo).barriers ++ (build after d tempo).barriers := by
  simp only [build, List.filter_append, List.filterMap_append]

end Level

namespace LevelSet

variable {level : Level}

theorem mem_levelsOf :
    (d, level) ∈ levelsOf events tempo ↔ level = Level.build events d tempo ∧ notesIn d events ≠ [] := by
  have hall : d ∈ Difficulty.all := by cases d <;> decide
  have htargets : (!(Level.build events d tempo).targets.isEmpty) = true ↔ notesIn d events ≠ [] := by
    rw [Level.targets_build]
    simp
  rw [levelsOf, List.mem_filter]
  constructor
  · intro ⟨hmem, hnote⟩
    obtain ⟨_, _, heq⟩ := List.mem_map.1 hmem
    cases heq
    exact ⟨rfl, htargets.1 hnote⟩
  · rintro ⟨rfl, hnote⟩
    exact ⟨List.mem_map.2 ⟨d, hall, rfl⟩, htargets.2 hnote⟩

theorem mem_difficulties_levelsOf : d ∈ (levelsOf events tempo).map (·.1) ↔
    ∃ time n, ⟨time, .note n⟩ ∈ events ∧ n.difficulties.bits.toNat.testBit d.rank.toNat = true := by
  rw [← notesIn_ne_nil_iff, List.mem_map]
  constructor
  · rintro ⟨⟨_, level⟩, hlevel, rfl⟩
    exact (mem_levelsOf.1 hlevel).2
  · intro hnote
    exact ⟨(d, _), mem_levelsOf.2 ⟨rfl, hnote⟩, rfl⟩

/-- **A level set partitions the events.** Whatever masks the events have, a song without a tempo cannot be exported, and
any other can. The levels are in rank order, each once, and belong to the difficulties whose bit is in the mask of some
note. The manifest has an entry for each of them in the same order, with a file of its own that is not the manifest's. A
level holds the notes and the walls that are marked for it, in the order of the events. Of two lists of events in a row,
a level holds what it holds of the first and then what it holds of the second. -/
theorem build_partitions (events : List Event) (song : Song) (audioPath : String) (cover : Option String) :
    (build events song audioPath cover = .error .missingTempo ↔ song.tempo = none) ∧
      (∀ tempo, song.tempo = some tempo → ∃ set, build events song audioPath cover = .ok set ∧
        (set.levels.map (·.1)).Pairwise (·.rank < ·.rank) ∧
        (∀ d, d ∈ set.levels.map (·.1) ↔
          ∃ time n, ⟨time, .note n⟩ ∈ events ∧ n.difficulties.bits.toNat.testBit d.rank.toNat = true) ∧
        set.manifest.entries = set.levels.map (fun (d, _) =>
          ⟨d, d.rank, audioPath, Level.fileName d, song.offset, song.offset⟩) ∧
        (Manifest.fileName :: set.manifest.entries.map (·.levelPath)).Nodup ∧
        ∀ d level, (d, level) ∈ set.levels → level = Level.build events d tempo ∧
          level.targets = (notesIn d events).map (fun (time, n) => .ofNote time n) ∧
          level.barriers = (wallsIn d events).map (fun (time, w) => .ofWall time w)) ∧
      ∀ more d tempo,
        (Level.build (events ++ more) d tempo).targets =
          (Level.build events d tempo).targets ++ (Level.build more d tempo).targets ∧
        (Level.build (events ++ more) d tempo).barriers =
          (Level.build events d tempo).barriers ++ (Level.build more d tempo).barriers := by
  refine ⟨?_, ?_, fun more d tempo => ⟨Level.targets_append .., Level.barriers_append ..⟩⟩
  · unfold build
    cases song.tempo <;> simp
  · intro tempo timed
    have built : ∃ set, build events song audioPath cover = .ok set ∧ set.levels = levelsOf events tempo ∧
        set.manifest.entries = set.levels.map (fun (d, _) => entry song audioPath d) := by
      unfold build
      rw [timed]
      exact ⟨_, rfl, rfl, rfl⟩
    obtain ⟨set, built, levels, entries⟩ := built
    refine ⟨set, built, ?_, ?_, entries, ?_, ?_⟩
    · exact Difficulty.all_ranks.sublist (build_levels built)
    · intro d
      rw [levels]
      exact mem_difficulties_levelsOf
    · rw [← files_names built]
      exact fileNames_nodup.sublist (files_names_sublist built)
    · intro d level hlevel
      rw [levels] at hlevel
      obtain ⟨rfl, -⟩ := mem_levelsOf.1 hlevel
      exact ⟨rfl, Level.targets_build .., Level.barriers_build ..⟩

/-- two notes of which one is hard and one is in the bits above the ranks, with an easy wall between them -/
def unevenEvents : List Event :=
  [⟨1, .note ⟨0, 0, .red, some .up, ⟨0b11100100⟩⟩⟩, ⟨2, .wall ⟨0, 0, 1, 0, 2, ⟨0b00000001⟩⟩⟩,
    ⟨0, .note ⟨1, 0, .bomb, none, ⟨0b11100000⟩⟩⟩]

/-- they make one level -/
theorem unevenEvents_partition :
    ∃ set, build unevenEvents { Song.blank with tempo := some 120 } "song.ogg" none = .ok set ∧
      set.levels.map (·.1) = [.hard] ∧ ∀ level, (.hard, level) ∈ set.levels →
        level.targets = [⟨1, 0, 0, 0, 0⟩] ∧ level.barriers = [] := by
  obtain ⟨-, built, -⟩ := build_partitions unevenEvents { Song.blank with tempo := some 120 } "song.ogg" none
  obtain ⟨set, built, _, _, _, _, contents⟩ := built 120 rfl
  refine ⟨set, built, ?_, ?_⟩
  · cases built
    decide +kernel
  · intro level hlevel
    obtain ⟨-, targets, barriers⟩ := contents _ level hlevel
    rw [targets, barriers]
    decide +kernel

end LevelSet

end RhythmChart
