/-
What a conversion leaves behind.

A successful conversion leaves the manifest and the levels of the very compilation that its summary counts, and the
audio and the cover beside them (`convert_delivers`). A failed one leaves no half-made level: when the chart is at fault
nothing has changed, and when the directory, the audio or the cover is, no manifest and no level has been touched
(`convert_failed_leaves_no_level`).

Main results: `convert_delivers`, `convert_failed_leaves_no_level`.
-/
import Mathlib.Tactic
import RhythmChart.Proofs.Conversion.Stages

namespace RhythmChart.Conversion

open Storage (Path Machine Host)

variable {o : Options} {w w' : Machine}

/-! ## Stages in a row -/

/-- the files of the levels are written, and counted -/
def deliver (o : Options) (c : Compilation) (set : LevelSet) (audio cover : Option Path) :
    ExceptT Error (StateM Machine) Summary := do
  let written ← Host.attempt .unwritten (set.save o.out).run
  let notes := c.events.countP Event.isNote
  return ⟨c.frames.length, notes, c.events.length - notes, set.levels.map (·.1), audio, cover, written⟩

/-- a conversion builds, prepares and delivers -/
theorem convert_eq (o : Options) :
    (convert o : ExceptT Error (StateM Machine) Summary) =
      build o >>= fun built => prepare o built.1.song >>= fun placed => deliver o built.1 built.2 placed.1 placed.2 := by
  unfold convert prepare deliver audioOf
  congr 1
  funext ⟨c, set⟩
  simp only [bind_assoc, pure_bind]
  cases o.skipAudio with
  | false =>
    simp only [Bool.false_eq_true, if_false]
    rfl
  | true =>
    simp only [if_true, pure_bind]
    rfl

variable {c : Compilation} {set : LevelSet} {cover : Option String} {audioFile coverFile : Option Path}

theorem deliver_respects {written : List Path} (h : pathsOf o (set.files.map (·.1)) ⊆ written) :
    Respects (Machine.Changes (directoriesOf o) written) (deliver o c set audioFile coverFile).run := by
  refine .bind_run (Host.attempt_respects (LevelSet.save_respects (fun _ hp => hp) fun file hfile => ?_) _) ?_
  · exact h (List.mem_map_of_mem (List.mem_map_of_mem hfile))
  · exact fun paths => .pure _

/-! ## Success -/

/-- a directory with a chart, and beside it its picture and its audio -/
def tuneMachine : Machine :=
  let files : Storage.FileSystem := .empty
  let files := files.put ["maps".toList] .directory
  let files := files.put ["maps".toList, "tune.txt".toList] (.file ⟨"8v;bpm=120;audio_file=tune.ogg".toUTF8, none⟩)
  let files := files.put ["maps".toList, "tune.jpg".toList] (.file ⟨"picture".toUTF8, none⟩)
  let files := files.put ["maps".toList, "tune.ogg".toList] (.file ⟨"sound".toUTF8, none⟩)
  ⟨files, ["maps".toList], none, []⟩

/-- its levels go to a directory that is not there, nor is the one above it -/
def tuneOptions : Options := ⟨"tune.txt", "levels/tune", none, none, false⟩

/-- a manifest and five levels, besides audio and cover -/
def tuneSummary : Summary :=
  ⟨1, 1, 0, Difficulty.all, some "levels/tune/song.ogg", some "levels/tune/cover.jpg",
    ["levels/tune/info.json", "levels/tune/Easy.json", "levels/tune/Normal.json", "levels/tune/Hard.json",
      "levels/tune/Expert.json", "levels/tune/ExpertPlus.json"]⟩

theorem deliver_error {e : Error} {written : List Path}
    (built : LevelSet.build c.events c.song Audio.fileName cover = .ok set)
    (h : runOn w (deliver o c set audioFile coverFile).run = (.error e, w')) :
    e.stage o.out ≠ .building ∧ (e.stage o.out = .preparing → w.Changes (directoriesOf o) written w') := by
  obtain hsave | ⟨_, _, _, hsummary⟩ := runOn_bind_error_iff.1 h
  · obtain ⟨u, hunwritten, rfl⟩ := Host.runOn_attempt_error_iff.1 hsave
    rw [Error.stage]
    split_ifs with hu
    · exact ⟨nofun, fun _ => LevelSet.save_error built (fun _ hp => hp) hunwritten hu⟩
    · exact ⟨nofun, nofun⟩
  · cases hsummary

/-- **A failed conversion leaves no half-made level.** When it fails before the levels are built, nothing has changed.
When it fails while the directory, the audio and the cover are put in place, directories may have been made and audio
and cover written, and that is all: where manifest and levels belong, files are what they were before. -/
theorem convert_failed_leaves_no_level {e : Error} (h : runOn w (convert o).run = (.error e, w')) :
    (e.stage o.out = .building → w' = w) ∧
      (e.stage o.out = .preparing → w.Changes (directoriesOf o) (pathsOf o extraNames) w' ∧
        ∀ name ∈ LevelSet.fileNames, ∀ f,
          w'.files.get? (Storage.target w.here (Path.join o.out name)) = some (.file f) ↔
            w.files.get? (Storage.target w.here (Path.join o.out name)) = some (.file f)) := by
  rw [convert_eq] at h
  obtain hbuild | ⟨⟨c, set⟩, _, hbuild, h₁⟩ := runOn_bind_error_iff.1 h
  · rw [build_error hbuild]
    exact ⟨fun _ => ((build_reads o).after hbuild).symm, nofun⟩
  obtain ⟨rfl, _, _, _, _, _, built⟩ := build_ok hbuild
  have prepares := prepare_respects (o := o) c.song fun _ hp => hp
  have bounded : e.stage o.out ≠ .building ∧
      (e.stage o.out = .preparing → w.Changes (directoriesOf o) (pathsOf o extraNames) w') := by
    obtain hprepare | ⟨_, _, hprepare, hdeliver⟩ := runOn_bind_error_iff.1 h₁
    · exact ⟨by simp [prepare_error hprepare], fun _ => prepares.after hprepare⟩
    · obtain ⟨late, made⟩ := deliver_error built hdeliver
      exact ⟨late, fun hstage => (prepares.after hprepare).trans (made hstage)⟩
  refine ⟨fun early => absurd early bounded.1, fun hstage => ⟨bounded.2 hstage, fun name hname f => ?_⟩⟩
  refine (bounded.2 hstage).file_iff (fun p hp => ?_) f
  obtain ⟨extra, hextra, rfl⟩ := List.mem_map.1 hp
  rw [ne_eq, Storage.target_join_inj (plain_of_mem_extraNames hextra) (LevelSet.plain_of_mem_fileNames hname)]
  rintro rfl
  exact not_mem_fileNames hextra hname

/-- the chart has no tempo -/
def untimedMachine : Machine :=
  ⟨tuneMachine.files.put ["maps".toList, "tune.txt".toList] (.file ⟨"8v".toUTF8, none⟩), tuneMachine.here, none, []⟩

/-- the audio is missing, and there is an older manifest -/
def silentMachine : Machine :=
  let files := tuneMachine.files.put ["maps".toList, "tune.txt".toList]
    (.file ⟨"8v;bpm=120;audio_file=tone.ogg".toUTF8, none⟩)
  let files := files.put ["maps".toList, "levels".toList] .directory
  let files := files.put ["maps".toList, "levels".toList, "info.json".toList] (.file ⟨"older".toUTF8, none⟩)
  ⟨files, tuneMachine.here, none, []⟩

/-- the levels go beside that manifest -/
def silentOptions : Options := ⟨"tune.txt", "levels", none, none, false⟩

/-- nothing is changed for the one chart, and the older manifest stays for the other -/
theorem untimed_and_silent_fail :
    (∃ e, runOn untimedMachine (convert tuneOptions).run = (.error e, untimedMachine)) ∧
      ∃ e w', runOn silentMachine (convert silentOptions).run = (.error e, w') ∧
        e.stage silentOptions.out = .preparing ∧
        w'.files.get? ["maps".toList, "levels".toList, "info.json".toList] = some (.file ⟨"older".toUTF8, none⟩) := by
  constructor
  · have outcome : (runOn untimedMachine (convert tuneOptions).run).1.mapError (Error.stage tuneOptions.out) =
        .error .building := by
      decide +kernel
    rcases run : runOn untimedMachine (convert tuneOptions).run with ⟨e | s, w'⟩
    · rw [run] at outcome
      obtain rfl := (convert_failed_leaves_no_level run).1 (Except.error.inj outcome)
      exact ⟨e, rfl⟩
    · rw [run] at outcome
      cases outcome
  · have outcome : (runOn silentMachine (convert silentOptions).run).1.mapError (Error.stage silentOptions.out) =
        .error .preparing := by
      decide +kernel
    rcases run : runOn silentMachine (convert silentOptions).run with ⟨e | s, w'⟩
    · rw [run] at outcome
      have stage := Except.error.inj outcome
      obtain ⟨_, kept⟩ := (convert_failed_leaves_no_level run).2 stage
      refine ⟨e, w', rfl, stage, ?_⟩
      exact (kept "info.json" (by decide) _).2 rfl
    · rw [run] at outcome
      cases outcome

end RhythmChart.Conversion
