/-
What a conversion copies beside the levels.

The audio of a song may come from anywhere, and the cover from beside the chart; both are copied under names of their
own. Nothing else that a conversion writes lies where these files do: the source of the audio ends in `ogg` and the
cover in `jpg` (`ogg_apart`, `cover_apart`). So what a copy comes to is left at the end. A copy is emptied before it is
written, and it is not asked whether it is the file itself: an asset that lies where its copy goes is lost
(`inPlace_loses_audio`).

Main result: `convert_copies`.
-/
import Mathlib.Tactic
import RhythmChart.Proofs.Storage.Copying
import RhythmChart.Proofs.Conversion.Outcome

namespace RhythmChart.Conversion

open Storage (Path Machine Host)
open Storage.Machine (Copied Intact)

variable {o : Options} {w w' : Machine} {c : Compilation}

/-! ## Names -/

/-- whether a name has the extension of a copied audio file -/
def IsOggName (n : List Char) : Prop :=
  ((Path.cutExtension? n).map (·.2)).any (fun extension => extension.map Char.toLower = ['o', 'g', 'g']) = true

instance (n : List Char) : Decidable (IsOggName n) := inferInstanceAs (Decidable (_ = true))

/-- the names under which something else than audio is written -/
def otherNames : List String := coverName :: LevelSet.fileNames

theorem not_isOggName {name : String} (h : name ∈ otherNames) : ¬ IsOggName name.toList := by
  revert name
  decide

theorem plain_of_mem_otherNames {name : String} (h : name ∈ otherNames) : Path.Plain name.toList := by
  revert name
  decide

theorem not_jpg {name : String} (h : name ∈ LevelSet.fileNames) : ¬ ".jpg".toList <:+ name.toList := by
  revert name
  decide

/-- the audio of a song is copied from a path that ends in the name of an Ogg file -/
theorem audioPlan?_copy {chart source : Path} {song : Song} (h : audioPlan? chart song = some (.copy source)) :
    ∃ p front, Audio.Plan.isOgg p = true ∧ Path.Open front ∧ source = .ofList (front ++ p.toList) := by
  obtain ⟨plan, hplan, hsource⟩ := Option.map_eq_some_iff.1 h
  have hogg : ∀ p, plan = .copy p → Audio.Plan.isOgg p = true := by
    intro p hp
    obtain ⟨file, -, hfile⟩ := Option.map_eq_some_iff.1 hplan
    split_ifs at hfile with hlead hext
    · rw [hp] at hfile
      cases hfile
    · rw [hp] at hfile
      cases hfile
      exact hext
    · rw [hp] at hfile
      cases hfile
  cases plan with
  | transcode p leadIn =>
    split at hsource <;> cases hsource
  | copy p =>
    split at hsource
    · rename_i dir _
      cases hsource
      obtain ⟨front, hfront, hjoin⟩ := Path.join_behind dir p
      exact ⟨p, front, hogg p rfl, hfront, hjoin⟩
    · cases hsource
      exact ⟨source, [], hogg source rfl, .inl rfl, by simp⟩

/-- nothing but audio is written where such a path leads -/
theorem ogg_apart {chart source : Path} {song : Song} (h : audioPlan? chart song = some (.copy source))
    (hfile : Path.wantsDirectory source = false) {name : String} (hname : name ∈ otherNames) (dir : Path) :
    Storage.target w.here (Path.join dir name) ≠ Storage.target w.here source := by
  obtain ⟨p, front, hogg, hfront, hsource⟩ := audioPlan?_copy h
  obtain ⟨extension, hextension, hlower⟩ : ∃ extension, Path.extension? p = some extension ∧
      extension.map Char.toLower = ['o', 'g', 'g'] := by
    unfold Audio.Plan.isOgg at hogg
    cases hextension : Path.extension? p with
    | none => simp [hextension] at hogg
    | some extension => exact ⟨extension, rfl, by simpa [hextension] using hogg⟩
  obtain ⟨above, n, hn, hnames, hcut⟩ := Path.names_of_extension hfront hsource hextension hfile
  rw [Storage.target_join _ _ (plain_of_mem_otherNames hname), Storage.target_of_names hnames hn]
  intro heq
  have hlast : name.toList = n := List.singleton_inj.1 (List.append_inj_right' heq rfl)
  refine not_isOggName hname ?_
  rw [hlast, IsOggName, hcut]
  simpa using hlower

/-! ## Copies in a row of stages -/

theorem audioOf_copies {song : Song} {source : Path} {audio : Option Path} (wanted : o.skipAudio = false)
    (planned : audioPlan? o.chart song = some (.copy source)) (h : runOn w (audioOf o song).run = (.ok audio, w')) :
    ∃ f, Copied w w' source (Path.join o.out Audio.fileName) f := by
  rw [audioOf, wanted, if_neg (by decide), prepareAudio, planned] at h
  obtain ⟨_, _, hprepare, hpure⟩ := runOn_bind_ok_iff.1 h
  obtain ⟨-, rfl⟩ := runOn_pure_iff.1 hpure
  obtain ⟨there, _, hask, hrest⟩ := runOn_bind_ok_iff.1 (Host.runOn_attempt_ok_iff.1 hprepare)
  cases hask
  split_ifs at hrest
  · obtain ⟨_, _, hcopy, hpure⟩ := runOn_bind_ok_iff.1 hrest
    obtain ⟨-, rfl⟩ := runOn_pure_iff.1 hpure
    exact Machine.copied_of_copy (Host.runOn_attempt_ok_iff.1 hcopy)
  · cases hrest

theorem copyCover_copies {cover : Path} (h : runOn w (copyCover o).run = (.ok (some cover), w')) :
    cover = Path.join o.out coverName ∧ ∃ f, Copied w w' (coverOf o.chart) cover f := by
  obtain ⟨there, _, hask, h⟩ := runOn_bind_ok_iff.1 h
  cases hask
  split_ifs at h
  · obtain ⟨_, _, hcopy, hpure⟩ := runOn_bind_ok_iff.1 h
    obtain ⟨hcover, rfl⟩ := runOn_pure_iff.1 hpure
    cases hcover
    exact ⟨rfl, Machine.copied_of_copy (Host.runOn_attempt_ok_iff.1 hcopy)⟩
  · cases (runOn_pure_iff.1 h).1

/-- the machines between the stages of a successful conversion -/
structure Course (o : Options) (song : Song) (cover : Option Path) (w w₁ w₂ w₃ w' : Machine) : Prop where
  chart : Path.wantsDirectory o.chart = false
  made : ∀ written, w.Changes (directoriesOf o) written w₁
  audio : ∃ audio, runOn w₁ (audioOf o song).run = (.ok audio, w₂)
  cover : runOn w₂ (copyCover o).run = (.ok cover, w₃)
  saved : ∀ names, LevelSet.fileNames ⊆ names → w₃.Changes (directoriesOf o) (pathsOf o names) w'

theorem convert_course {s : Summary} (h : runOn w (convert o).run = (.ok s, w')) :
    ∃ c set w₁ w₂ w₃, runOn w (build o).run = (.ok (c, set), w) ∧ Course o c.song s.cover w w₁ w₂ w₃ w' := by
  rw [convert_eq] at h
  obtain ⟨⟨c, set⟩, _, hbuild, h₁⟩ := runOn_bind_ok_iff.1 h
  obtain ⟨⟨audioFile, coverFile⟩, _, hprepare, hdeliver⟩ := runOn_bind_ok_iff.1 h₁
  obtain ⟨rfl, _, _, -, htext, -, built⟩ := build_ok hbuild
  obtain ⟨chart, hchart⟩ := Machine.find_of_readText htext
  obtain ⟨-, hfile, -⟩ := Storage.FileSystem.find_eq_file.1 hchart
  obtain ⟨_, w₁, hmake, h₂⟩ := runOn_bind_ok_iff.1 hprepare
  obtain ⟨_, w₂, haudio, h₃⟩ := runOn_bind_ok_iff.1 h₂
  obtain ⟨_, w₃, hcover, h₄⟩ := runOn_bind_ok_iff.1 h₃
  obtain ⟨hpair, rfl⟩ := runOn_pure_iff.1 h₄
  cases hpair
  have saved : ∀ names, LevelSet.fileNames ⊆ names → w₃.Changes (directoriesOf o) (pathsOf o names) w' := by
    intro names hnames
    have hfiles : set.files.map (·.1) ⊆ names := fun _ hname =>
      hnames ((LevelSet.files_names_sublist built).subset hname)
    exact (deliver_respects (List.map_subset _ hfiles)).after hdeliver
  obtain ⟨_, _, -, hsummary⟩ := runOn_bind_ok_iff.1 hdeliver
  obtain ⟨rfl, -⟩ := runOn_pure_iff.1 hsummary
  exact ⟨c, set, w₁, w₂, w₃, hbuild, hfile, fun _ => makeDirectories_respects.after hmake, ⟨_, haudio⟩, hcover, saved⟩

namespace Course

variable {song : Song} {cover : Option Path} {w₁ w₂ w₃ : Machine}

/-- until the cover is copied only the audio is written -/
theorem sounded (h : Course o song cover w w₁ w₂ w₃ w') :
    w.Changes (directoriesOf o) [Path.join o.out Audio.fileName] w₂ := by
  obtain ⟨audio, haudio⟩ := h.audio
  exact (h.made _).trans ((audioOf_respects song List.mem_cons_self).after haudio)

/-- after the audio everything is written under other names -/
theorem covered (h : Course o song cover w w₁ w₂ w₃ w') :
    w₂.Changes (directoriesOf o) (pathsOf o otherNames) w' := by
  have copied : w₂.Changes (directoriesOf o) (pathsOf o otherNames) w₃ :=
    (copyCover_respects (List.mem_map_of_mem List.mem_cons_self)).after h.cover
  exact copied.trans (h.saved _ (List.subset_cons_self _ _))

theorem audio_copied (h : Course o song cover w w₁ w₂ w₃ w') {source : Path} (wanted : o.skipAudio = false)
    (planned : audioPlan? o.chart song = some (.copy source)) :
    ∃ f, Copied w w' source (Path.join o.out Audio.fileName) f := by
  obtain ⟨audio, haudio⟩ := h.audio
  obtain ⟨f, copied⟩ := audioOf_copies wanted planned haudio
  refine ⟨f, (copied.earlier (h.made []) nofun).later h.covered ?_⟩
  intro p hp
  obtain ⟨name, hname, rfl⟩ := List.mem_map.1 hp
  refine ⟨ogg_apart planned copied.isFilePath hname _, ?_⟩
  rw [ne_eq, Storage.target_join_inj (plain_of_mem_otherNames hname) (by decide)]
  rintro rfl
  exact absurd hname (by decide)

theorem cover_copied {dest : Path} (h : Course o song (some dest) w w₁ w₂ w₃ w') :
    dest = Path.join o.out coverName ∧ ∃ f, Copied w w' (coverOf o.chart) dest f := by
  obtain ⟨rfl, f, copied⟩ := copyCover_copies h.cover
  refine ⟨rfl, f, (copied.earlier h.sounded ?_).later (h.saved _ fun _ h => h) ?_⟩
  · intro p hp
    obtain rfl := List.mem_singleton.1 hp
    exact cover_apart h.chart (by decide) (by decide) _ _
  · intro p hp
    obtain ⟨name, hname, rfl⟩ := List.mem_map.1 hp
    have hplain := LevelSet.plain_of_mem_fileNames hname
    refine ⟨cover_apart h.chart hplain (not_jpg hname) _ _, ?_⟩
    rw [ne_eq, Storage.target_join_inj hplain (by decide)]
    rintro rfl
    exact absurd hname (by decide)

end Course

/-- what a copy of a file comes to: both hold what the file held, unless they are one place; then it is empty -/
def CopiedAsset (w w' : Machine) (source dest : Path) : Prop :=
  ∃ f, Copied w w' source dest f ∧
    (Intact w w' source dest ↔ Storage.target w.here source ≠ Storage.target w.here dest ∨ f.content = .empty)

/-- **What becomes of the assets.** When a conversion succeeds, the audio that was to be copied was there before and the
cover that was copied too. Afterwards the file and its copy both hold what it held, unless they are one place; then
nothing is left in it. So the two are intact just when they are two places or there was nothing to lose. -/
theorem convert_copies {s : Summary} (h : runOn w (convert o).run = (.ok s, w')) :
    ∃ c set, runOn w (build o).run = (.ok (c, set), w) ∧
      (∀ source, o.skipAudio = false → audioPlan? o.chart c.song = some (.copy source) →
        CopiedAsset w w' source (Path.join o.out Audio.fileName)) ∧
      ∀ cover, s.cover = some cover → cover = Path.join o.out coverName ∧ CopiedAsset w w' (coverOf o.chart) cover := by
  obtain ⟨c, set, w₁, w₂, w₃, hbuild, course⟩ := convert_course h
  refine ⟨c, set, hbuild, ?_, ?_⟩
  · intro source wanted planned
    obtain ⟨f, copied⟩ := course.audio_copied wanted planned
    exact ⟨f, copied, copied.intact_iff⟩
  · intro cover hcover
    rw [hcover] at course
    obtain ⟨rfl, f, copied⟩ := course.cover_copied
    exact ⟨rfl, f, copied, copied.intact_iff⟩

/-- the audio and the cover of the tune go to another directory and are intact -/
theorem tune_copied : ∃ w', runOn tuneMachine (convert tuneOptions).run = (.ok tuneSummary, w') ∧
    Intact tuneMachine w' "tune.ogg" "levels/tune/song.ogg" ∧ Intact tuneMachine w' "tune.jpg" "levels/tune/cover.jpg" := by
  have outcome : (runOn tuneMachine (convert tuneOptions).run).1.toOption = some tuneSummary := by decide +kernel
  have plan : (runOn tuneMachine (build tuneOptions).run).1.toOption.map
      (fun built => audioPlan? tuneOptions.chart built.1.song) = some (some (.copy "tune.ogg")) := by decide +kernel
  rcases run : runOn tuneMachine (convert tuneOptions).run with ⟨e | s, w'⟩
  · rw [run] at outcome
    cases outcome
  · rw [run] at outcome
    obtain rfl : s = tuneSummary := Option.some.inj outcome
    obtain ⟨c, set, hbuild, audio, cover⟩ := convert_copies run
    rw [hbuild] at plan
    obtain ⟨_, -, intact⟩ := audio "tune.ogg" rfl (Option.some.inj plan)
    obtain ⟨-, _, -, intact'⟩ := cover "levels/tune/cover.jpg" rfl
    exact ⟨w', rfl, intact.2 (.inl (by decide +kernel)), intact'.2 (.inl (by decide +kernel))⟩

/-- the audio of this chart has the name of a copy already -/
def inPlaceMachine : Machine :=
  let files := tuneMachine.files.put ["maps".toList, "tune.txt".toList]
    (.file ⟨"8v;bpm=120;audio_file=song.ogg".toUTF8, none⟩)
  let files := files.put ["maps".toList, "song.ogg".toList] (.file ⟨"sound".toUTF8, none⟩)
  ⟨files, tuneMachine.here, none, []⟩

/-- the levels go beside the chart -/
def inPlaceOptions : Options := ⟨"tune.txt", ".", none, none, false⟩

/-- the conversion succeeds, and the audio is lost -/
theorem inPlace_loses_audio :
    inPlaceMachine.files.read inPlaceMachine.here "song.ogg" = .ok "sound".toUTF8 ∧
      ∃ c set s w', runOn inPlaceMachine (build inPlaceOptions).run = (.ok (c, set), inPlaceMachine) ∧
        audioPlan? inPlaceOptions.chart c.song = some (.copy "song.ogg") ∧
        runOn inPlaceMachine (convert inPlaceOptions).run = (.ok s, w') ∧ s.audio = some "./song.ogg" ∧
        w'.files.read w'.here "song.ogg" = .ok .empty ∧ w'.files.read w'.here "./song.ogg" = .ok .empty := by
  have plan : (runOn inPlaceMachine (build inPlaceOptions).run).1.toOption.map
      (fun built => audioPlan? inPlaceOptions.chart built.1.song) = some (some (.copy "song.ogg")) := by decide +kernel
  have outcome : (runOn inPlaceMachine (convert inPlaceOptions).run).1.toOption.map (·.audio) =
      some (some "./song.ogg") := by decide +kernel
  have left : ∀ p ∈ ["song.ogg", "./song.ogg"], (runOn inPlaceMachine (convert inPlaceOptions).run).2.files.read
      (runOn inPlaceMachine (convert inPlaceOptions).run).2.here p = .ok .empty := by decide +kernel
  refine ⟨by decide +kernel, ?_⟩
  rcases run : runOn inPlaceMachine (convert inPlaceOptions).run with ⟨e | s, w'⟩
  · rw [run] at outcome
    cases outcome
  · rw [run] at outcome left
    rcases hbuild : runOn inPlaceMachine (build inPlaceOptions).run with ⟨e | ⟨c, set⟩, w₁⟩
    · rw [hbuild] at plan
      cases plan
    · rw [hbuild] at plan
      obtain rfl := (build_reads inPlaceOptions).after hbuild
      exact ⟨c, set, s, w', rfl, Option.some.inj plan, rfl, Option.some.inj outcome, left _ (by simp), left _ (by simp)⟩

end RhythmChart.Conversion
