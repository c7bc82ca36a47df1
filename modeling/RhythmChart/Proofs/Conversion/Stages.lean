/-
The stages of a conversion.

Everything up to the built levels only reads (`build_reads`); what was built is what the chart in its dialect comes to
(`build_ok`). Preparing makes directories and writes the audio and the cover, and nothing else (`prepare_respects`).
The cover is looked for twice. Nothing between the two looks can have made it come or go, since the chart beside it was
read and only the audio is written, under a name of its own (`isFile_coverOf`). What an error says is at which stage a
conversion failed (`Error.stage`).
-/
import Mathlib.Tactic
import RhythmChart.Conversion
import RhythmChart.Proofs.Level.Saving

namespace RhythmChart

open Storage (Path Machine Host)

/-! ## Settings -/

namespace Settings

theorem load_reads (file : Path) : Respects Eq (load file : ExceptT Error (StateM Machine) _).run := by
  refine .bind_run (Host.attempt_respects (Machine.readText_reads file) _) fun text => ?_
  split
  · exact .pure _
  · exact .pure _

theorem loadUser_reads : Respects Eq (loadUser : ExceptT Error (StateM Machine) _).run := by
  refine .bind_run (Host.ask_respects fun _ => rfl) fun home => ?_
  split
  · exact .pure _
  · refine .bind_run (Host.ask_respects fun _ => rfl) fun there => ?_
    split_ifs
    · exact load_reads _
    · exact .pure _

theorem resolve_reads (file : Option Path) : Respects Eq (resolve file : ExceptT Error (StateM Machine) _).run := by
  cases file with
  | none => exact .bind_run loadUser_reads fun _ => Host.given_respects _ _
  | some file => exact .bind_run (load_reads file) fun _ => Host.given_respects _ _

end Settings

/-! ## Audio -/

namespace Audio

variable {dirs written : List Path} {dir : Path}

theorem locateEncoder_reads (encoder : Option Path) :
    Respects Eq (locateEncoder encoder : ExceptT Error (StateM Machine) _).run := by
  cases encoder with
  | none =>
    refine .bind_run (Host.ask_respects fun _ => rfl) fun found => ?_
    split <;> exact .pure _
  | some encoder =>
    refine .bind_run (Host.ask_respects fun _ => rfl) fun there => ?_
    split <;> exact .pure _

/-- an encoder writes nothing but its destination -/
theorem transcode_respects (encoder source : Path) (leadIn : Option Float) {dest : Path} (h : dest ∈ written) :
    Respects (Machine.Changes dirs written)
      (transcode encoder source leadIn dest : ExceptT Error (StateM Machine) _).run := by
  have hlast : (encoderArguments source leadIn dest).getLast? = some dest := by
    unfold encoderArguments
    rw [List.getLast?_append]
    rfl
  have hdest : ∀ p, (encoderArguments source leadIn dest).getLast? = some p → p ∈ written := by
    intro p hp
    rw [hlast] at hp
    cases hp
    exact h
  refine .bind_run (Host.attempt_respects (Machine.run_respects encoder hdest) _) fun ending => ?_
  split <;> exact .pure _

theorem prepare_respects (plan : Plan) (encoder : Option Path) (h : Path.join dir fileName ∈ written) :
    Respects (Machine.Changes dirs written) (prepare plan dir encoder : ExceptT Error (StateM Machine) _).run := by
  refine .bind_run (.of_eq (Host.ask_respects fun _ => rfl)) fun there => ?_
  split_ifs
  · cases plan with
    | copy source => exact .bind_run (Host.attempt_respects (Machine.copy_respects h _) _) fun _ => .pure _
    | transcode source leadIn =>
      refine .bind_run (.of_eq (locateEncoder_reads encoder)) fun encoder => ?_
      exact .bind_run (transcode_respects encoder source leadIn h) fun _ => .pure _
  · exact .pure _

end Audio

namespace Conversion

variable {dirs written : List Path} {o : Options} {w w' : Machine}

theorem prepareAudio_respects (song : Song) (h : Path.join o.out Audio.fileName ∈ written) :
    Respects (Machine.Changes dirs written) (prepareAudio o song : ExceptT Error (StateM Machine) _).run := by
  unfold prepareAudio
  split
  · exact .pure _
  · exact .bind_run (Host.attempt_respects (Audio.prepare_respects _ _ h) _) fun _ => .pure _

/-! ## Cover -/

theorem copyCover_respects (h : Path.join o.out coverName ∈ written) :
    Respects (Machine.Changes dirs written) (copyCover o : ExceptT Error (StateM Machine) _).run := by
  refine .bind_run (.of_eq (Host.ask_respects fun _ => rfl)) fun there => ?_
  split_ifs
  · exact .bind_run (Host.attempt_respects (Machine.copy_respects h _) _) fun _ => .pure _
  · exact .pure _

/-- where the cover of a chart lies no file is written whose name does not end like that of a cover -/
theorem cover_apart {chart : Path} (hchart : Path.wantsDirectory chart = false) {name : String}
    (hplain : Path.Plain name.toList) (hname : ¬ ".jpg".toList <:+ name.toList) (here : Storage.Place) (dir : Path) :
    Storage.target here (Path.join dir name) ≠ Storage.target here (coverOf chart) := by
  obtain ⟨above, n, hn, -, hcover, -⟩ := Path.names_withExtension hchart "jpg" (by decide) (by decide)
  rw [← coverOf] at hcover
  rw [Storage.target_join _ _ hplain, Storage.target_of_names hcover (hn.renamed (by decide) (by decide))]
  intro heq
  rw [List.singleton_inj.1 (List.append_inj_right' heq rfl)] at hname
  exact hname (Path.suffix_renamed n "jpg")

theorem build_reads (o : Options) : Respects Eq (build o : ExceptT Error (StateM Machine) _).run := by
  refine .bind_run (Host.attempt_respects (Settings.resolve_reads _) _) fun dialect => ?_
  refine .bind_run (Host.attempt_respects (Machine.readText_reads _) _) fun text => ?_
  refine .bind_run (Host.given_respects _ _) fun c => ?_
  refine .bind_run (Host.ask_respects fun _ => rfl) fun hasCover => ?_
  exact .bind_run (Host.given_respects _ _) fun set => .pure _

/-- what was built is what the chart comes to -/
theorem build_ok {c : Compilation} {set : LevelSet} (h : runOn w (build o).run = (.ok (c, set), w')) :
    w = w' ∧ ∃ dialect text, runOn w (Settings.resolve o.settings).run = (.ok dialect, w) ∧
      runOn w (Host.readText o.chart) = (.ok text, w) ∧ compile dialect text = .ok c ∧
      LevelSet.build c.events c.song Audio.fileName
        (if w.files.isFile w.here (coverOf o.chart) then some coverName else none) = .ok set := by
  obtain ⟨dialect, w₁, hdialect, h⟩ := runOn_bind_ok_iff.1 h
  obtain ⟨text, w₂, htext, h⟩ := runOn_bind_ok_iff.1 h
  obtain ⟨c', w₃, hgiven, h⟩ := runOn_bind_ok_iff.1 h
  obtain ⟨hasCover, w₄, hask, h⟩ := runOn_bind_ok_iff.1 h
  obtain ⟨set', w₅, hbuild, h⟩ := runOn_bind_ok_iff.1 h
  rw [Host.runOn_attempt_ok_iff] at hdialect htext
  obtain rfl := (Settings.resolve_reads _).after hdialect
  obtain rfl := (Machine.readText_reads _).after htext
  obtain ⟨hcompile, rfl⟩ := Host.runOn_given_ok_iff.1 hgiven
  cases hask
  obtain ⟨hset, rfl⟩ := Host.runOn_given_ok_iff.1 hbuild
  obtain ⟨hpair, rfl⟩ := runOn_pure_iff.1 h
  cases hpair
  exact ⟨rfl, dialect, text, hdialect, htext, hcompile, hset⟩

/-! ## Errors -/

/-- how far a conversion came -/
inductive Stage where
  /-- the chart is read, and the levels are built -/
  | building
  /-- the directory, the audio and the cover are put in place -/
  | preparing
  /-- the files of manifest and levels are written -/
  | saving
  deriving DecidableEq

/-- the stage at which a conversion into a directory failed -/
def Error.stage (out : Path) : Error → Stage
  | settings _ | unreadable .. | uncompiled .. | unbuilt _ => .building
  | noDirectory .. | audio .. | coverNotCopied .. => .preparing
  -- the directory is made once more, just before the first file
  | unwritten u => if u.path = out then .preparing else .saving

variable {e : Error}

theorem build_error (h : runOn w (build o).run = (.error e, w')) (out : Path) : e.stage out = .building := by
  obtain hdialect | ⟨_, _, _, h⟩ := runOn_bind_error_iff.1 h
  · obtain ⟨_, _, rfl⟩ := Host.runOn_attempt_error_iff.1 hdialect
    rfl
  obtain htext | ⟨_, _, _, h⟩ := runOn_bind_error_iff.1 h
  · obtain ⟨_, _, rfl⟩ := Host.runOn_attempt_error_iff.1 htext
    rfl
  obtain hcompile | ⟨_, _, _, h⟩ := runOn_bind_error_iff.1 h
  · obtain ⟨⟨_, _, rfl⟩, _⟩ := Host.runOn_given_error_iff.1 hcompile
    rfl
  obtain hask | ⟨_, _, _, h⟩ := runOn_bind_error_iff.1 h
  · cases hask
  obtain hset | ⟨_, _, _, h⟩ := runOn_bind_error_iff.1 h
  · obtain ⟨⟨_, _, rfl⟩, _⟩ := Host.runOn_given_error_iff.1 hset
    rfl
  cases h

theorem prepareAudio_error {song : Song} (h : runOn w (prepareAudio o song).run = (.error e, w')) :
    ∃ source cause, e = .audio source cause := by
  unfold prepareAudio at h
  split at h
  · cases h
  · obtain hprepare | ⟨_, _, _, h⟩ := runOn_bind_error_iff.1 h
    · obtain ⟨cause, _, rfl⟩ := Host.runOn_attempt_error_iff.1 hprepare
      exact ⟨_, cause, rfl⟩
    · cases h

theorem copyCover_error (h : runOn w (copyCover o).run = (.error e, w')) :
    ∃ cover fault, e = .coverNotCopied cover fault := by
  obtain hask | ⟨there, _, _, h⟩ := runOn_bind_error_iff.1 h
  · cases hask
  split_ifs at h
  · obtain hcopy | ⟨_, _, _, h⟩ := runOn_bind_error_iff.1 h
    · obtain ⟨fault, _, rfl⟩ := Host.runOn_attempt_error_iff.1 hcopy
      exact ⟨_, fault, rfl⟩
    · cases h
  · cases h

/-! ## Preparing -/

/-- the directory of the levels and those above it -/
def directoriesOf (o : Options) : List Path := Path.ancestors (o.out.length + 1) o.out

/-- the paths of files in the directory of the levels -/
def pathsOf (o : Options) (names : List String) : List Path := names.map (Path.join o.out)

/-- the files beside the levels -/
def extraNames : List String := [Audio.fileName, coverName]

theorem plain_of_mem_extraNames {name : String} (h : name ∈ extraNames) : Path.Plain name.toList := by
  revert name
  decide

theorem not_mem_fileNames {name : String} (h : name ∈ extraNames) : name ∉ LevelSet.fileNames := by
  revert name
  decide

/-- the audio, unless it is to be left out -/
def audioOf (o : Options) (song : Song) : ExceptT Error (StateM Machine) (Option Path) :=
  if o.skipAudio then pure none else prepareAudio o song

theorem audioOf_respects {dirs written : List Path} (song : Song) (h : Path.join o.out Audio.fileName ∈ written) :
    Respects (Machine.Changes dirs written) (audioOf o song).run := by
  unfold audioOf
  split_ifs
  · exact .pure _
  · exact prepareAudio_respects song h

theorem audioOf_error {song : Song} {e : Error} (h : runOn w (audioOf o song).run = (.error e, w')) :
    ∃ source cause, e = .audio source cause := by
  unfold audioOf at h
  split_ifs at h
  · cases h
  · exact prepareAudio_error h

/-- the directory, the audio and the cover are put in place -/
def prepare (o : Options) (song : Song) : ExceptT Error (StateM Machine) (Option Path × Option Path) := do
  Host.attempt (.noDirectory o.out) (Host.makeDirectories o.out)
  let audio ← audioOf o song
  let cover ← copyCover o
  return (audio, cover)

theorem makeDirectories_respects {written : List Path} :
    Respects (Machine.Changes (directoriesOf o) written)
      (Host.attempt (Error.noDirectory o.out) (Host.makeDirectories o.out)).run :=
  Host.attempt_respects (Machine.makeDirectories_respects fun _ hp => hp) _

theorem prepare_respects {written : List Path} (song : Song) (h : pathsOf o extraNames ⊆ written) :
    Respects (Machine.Changes (directoriesOf o) written) (prepare o song).run := by
  have listed : ∀ name ∈ extraNames, Path.join o.out name ∈ written := fun name hname => h (List.mem_map_of_mem hname)
  refine .bind_run makeDirectories_respects fun _ => ?_
  refine .bind_run (audioOf_respects song (listed _ (by simp [extraNames]))) fun audio => ?_
  exact .bind_run (copyCover_respects (listed _ (by simp [extraNames]))) fun cover => .pure _

theorem prepare_error {song : Song} {e : Error} (h : runOn w (prepare o song).run = (.error e, w')) (out : Path) :
    e.stage out = .preparing := by
  obtain hmake | ⟨_, _, _, h₁⟩ := runOn_bind_error_iff.1 h
  · obtain ⟨_, _, rfl⟩ := Host.runOn_attempt_error_iff.1 hmake
    rfl
  obtain haudio | ⟨_, _, _, h₂⟩ := runOn_bind_error_iff.1 h₁
  · obtain ⟨_, _, rfl⟩ := audioOf_error haudio
    rfl
  obtain hcover | ⟨_, _, _, h₃⟩ := runOn_bind_error_iff.1 h₂
  · obtain ⟨_, _, rfl⟩ := copyCover_error hcover
    rfl
  cases h₃

end Conversion

end RhythmChart
