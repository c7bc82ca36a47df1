/-
Which files of a chart can be loaded again.

A float that is not finite is written as null (`Json.Value.float_eq_null_iff`), and where a number belongs null is not
read: neither a level nor a manifest is read off its file when one of its floats is not finite
(`Level.ofFile?_fileText_eq_none`, `Manifest.ofFile?_fileText_eq_none`). When all of them are finite every file is read
as what it was written from (`LevelSet.readBack_iff`). The tempo and the offset of a song and the times and lengths of
events are what directives made of them, and only the measure is checked there: a chart with an infinite tempo is
exported like any other (`endlessChart_not_read_back`).

Main result: `exported_files_read_back_iff`.
-/
import Mathlib.Tactic
import RhythmChart.Proofs.Level.Completeness
import RhythmChart.Proofs.Level.Files
import RhythmChart.Proofs.Performance.Directives

namespace RhythmChart

open Json (Value ReadsBack)

/-! ## Floats without digits -/

namespace Json.Value

theorem float_eq_null_iff {x : Float} : float x = null ↔ x.isFinite = false := by
  rw [float, Layout.numeral?]
  constructor
  · intro hnull
    by_contra hfinite
    obtain ⟨b, hb⟩ := Magnitude.ofFloat_of_isFinite (Bool.not_eq_false _ ▸ hfinite)
    rw [hb] at hnull
    cases hnull
  · intro hfinite
    cases hmagnitude : Magnitude.ofFloat x with
    | finite b => simp [Magnitude.isFinite_of_ofFloat hmagnitude] at hfinite
    | infinite => rfl
    | notANumber => rfl

/-- what is read as a float is finite -/
theorem finite_of_float? {x y : Float} (h : (float x).float? = some y) : x.isFinite = true := by
  by_contra hfinite
  rw [float_eq_null_iff.2 (Bool.eq_false_iff.2 hfinite)] at h
  cases h

/-- every element of a list that is read is -/
theorem of_list?_map {α : Type} {value : α → Value} {element? : Value → Option α} {as bs : List α}
    (h : (array (as.map value)).list? element? = some bs) : ∀ a ∈ as, ∃ b, element? (value a) = some b := by
  rw [list?] at h
  induction as generalizing bs with
  | nil =>
    intro a ha
    cases ha
  | cons a as ih =>
    rw [List.map_cons, List.mapM_cons] at h
    obtain ⟨b, hb, hrest⟩ := Option.bind_eq_some_iff.1 h
    obtain ⟨rest, hrest, -⟩ := Option.bind_eq_some_iff.1 hrest
    exact List.forall_mem_cons.2 ⟨⟨b, hb⟩, ih hrest⟩

end Json.Value

/-! ## Levels -/

namespace Level

theorem Light.finite_of_ofValue? {l r : Light} (h : ofValue? l.toValue = some r) : l.time.isFinite = true := by
  rw [ofValue?, toValue, Value.fields?_record_self] at h
  · simp only [List.map_cons, List.map_nil, Option.bind_eq_bind, Option.bind_some, Option.bind_eq_some_iff] at h
    obtain ⟨time, htime, -⟩ := h
    exact Value.finite_of_float? htime
  · rfl
  · decide

theorem Target.finite_of_ofValue? {t r : Target} (h : ofValue? t.toValue = some r) : t.time.isFinite = true := by
  rw [ofValue?, toValue, Value.fields?_record_self] at h
  · simp only [List.map_cons, List.map_nil, Option.bind_eq_bind, Option.bind_some, Option.bind_eq_some_iff] at h
    obtain ⟨time, htime, -⟩ := h
    exact Value.finite_of_float? htime
  · rfl
  · decide

theorem Barrier.finite_of_ofValue? {b r : Barrier} (h : ofValue? b.toValue = some r) :
    ∀ x ∈ b.floats, x.isFinite = true := by
  rw [ofValue?, toValue, Value.fields?_record_self] at h
  · simp only [List.map_cons, List.map_nil, Option.bind_eq_bind, Option.bind_some, Option.bind_eq_some_iff] at h
    obtain ⟨time, htime, _, _, _, _, duration, hduration, -⟩ := h
    simp [floats, Value.finite_of_float? htime, Value.finite_of_float? hduration]
  · rfl
  · decide

theorem finite_of_ofValue? {l r : Level} (h : ofValue? l.toValue = some r) : ∀ x ∈ l.floats, x.isFinite = true := by
  rw [ofValue?, toValue, Value.fields?_record_self] at h
  · simp only [List.map_cons, List.map_nil, Option.bind_eq_bind, Option.bind_some, Option.bind_eq_some_iff] at h
    obtain ⟨_, _, tempo, htempo, _, _, speed, hspeed, _, _, period, hperiod, lights, hlights, targets, htargets,
      barriers, hbarriers, -⟩ := h
    intro x hx
    simp only [floats, List.mem_append, List.mem_map, List.mem_flatMap, List.mem_cons, List.not_mem_nil, or_false] at hx
    rcases hx with (((rfl | rfl | rfl) | ⟨light, hlight, rfl⟩) | ⟨target, htarget, rfl⟩) | ⟨barrier, hbarrier, hx⟩
    · exact Value.finite_of_float? htempo
    · exact Value.finite_of_float? hspeed
    · exact Value.finite_of_float? hperiod
    · obtain ⟨_, hread⟩ := Value.of_list?_map hlights light hlight
      exact Light.finite_of_ofValue? hread
    · obtain ⟨_, hread⟩ := Value.of_list?_map htargets target htarget
      exact Target.finite_of_ofValue? hread
    · obtain ⟨_, hread⟩ := Value.of_list?_map hbarriers barrier hbarrier
      exact Barrier.finite_of_ofValue? hread x hx
  · rfl
  · decide

/-- nothing is read off the file of a level with a float that is not finite -/
theorem ofFile?_fileText_eq_none {l : Level} (h : ∃ x ∈ l.floats, x.isFinite = false) : ofFile? l.fileText = none := by
  obtain ⟨x, hx, hfinite⟩ := h
  rw [ofFile?, fileText, String.toList_ofList, Value.read?_render l.writable, Option.eq_none_iff_forall_ne_some]
  intro r hr
  rw [finite_of_ofValue? hr x hx] at hfinite
  cases hfinite

end Level

/-! ## Manifests -/

namespace Manifest

theorem Entry.finite_of_ofValue? {e r : Entry} (h : ofValue? e.toValue = some r) :
    ∀ x ∈ e.floats, x.isFinite = true := by
  rw [ofValue?, toValue, Value.fields?_record_self] at h
  · simp only [List.map_cons, List.map_nil, Option.bind_eq_bind, Option.bind_some, Option.bind_eq_some_iff] at h
    obtain ⟨_, _, _, _, _, _, _, _, offset, hoffset, oldOffset, holdOffset, -⟩ := h
    simp [floats, Value.finite_of_float? hoffset, Value.finite_of_float? holdOffset]
  · rfl
  · decide

theorem finite_of_ofValue? {m r : Manifest} (h : ofValue? m.toValue = some r) :
    ∀ x ∈ m.floats, x.isFinite = true := by
  rw [ofValue?, fields?_toValue] at h
  simp only [Option.bind_eq_bind, Option.bind_some, Option.bind_eq_some_iff] at h
  obtain ⟨_, _, _, _, _, _, tempo, htempo, start, hstart, duration, hduration, _, _, _, _, entries, hentries, -⟩ := h
  intro x hx
  simp only [floats, List.mem_append, List.mem_flatMap, List.mem_cons, List.not_mem_nil, or_false] at hx
  rcases hx with (rfl | rfl | rfl) | ⟨entry, hentry, hx⟩
  · exact Value.finite_of_float? htempo
  · exact Value.finite_of_float? hstart
  · exact Value.finite_of_float? hduration
  · obtain ⟨_, hread⟩ := Value.of_list?_map hentries entry hentry
    exact Entry.finite_of_ofValue? hread x hx

/-- nothing is read off the file of a manifest with a float that is not finite -/
theorem ofFile?_fileText_eq_none {m : Manifest} (h : ∃ x ∈ m.floats, x.isFinite = false) :
    ofFile? m.fileText = none := by
  obtain ⟨x, hx, hfinite⟩ := h
  rw [ofFile?, fileText, String.toList_ofList, Value.read?_render m.writable, Option.eq_none_iff_forall_ne_some]
  intro r hr
  rw [finite_of_ofValue? hr x hx] at hfinite
  cases hfinite

end Manifest

/-! ## The song of a chart -/

/-- a song whose exported numbers are finite -/
structure Song.Finite (s : Song) : Prop where
  tempo : ∀ x, s.tempo = some x → x.isFinite = true
  offset : s.offset.isFinite = true

/-- what a frame gives for a directive is finite when it is a number at all -/
def Frame.FiniteFor (f : Frame) (d : Directive) : Prop :=
  ∀ raw x, f.directive? d.key = some raw → Decimal.readFloat raw.toList = some x → x.isFinite = true

namespace Performance

variable {site : Site} {frame : Frame} {song : Song} {timeline : Timeline}

/-- a directive leaves a finite song when the numbers given for the tempo and the offset are finite -/
theorem Applies.finite {p q : Pass} {d : Directive} {raw : String} (h : Applies site p d raw q)
    (given : d = .tempo ∨ d = .audioOffset → ∀ x, Decimal.readFloat raw.toList = some x → x.isFinite = true)
    (finite : p.song.Finite) : q.song.Finite := by
  cases h with
  | tempo number =>
    refine ⟨?_, finite.offset⟩
    intro x hx
    cases hx
    exact given (.inl rfl) _ number
  | audioOffset number => exact ⟨finite.tempo, given (.inr rfl) _ number⟩
  | _ => exact ⟨finite.tempo, finite.offset⟩

/-- the numbers of a frame that a song is exported with are finite -/
def Measured (frame : Frame) : Prop := frame.FiniteFor .tempo ∧ frame.FiniteFor .audioOffset

theorem run_finite (measured : Measured frame) (ds : List Directive) {p : Pass} (finite : p.song.Finite) :
    (Pass.run site frame ds p).1.song.Finite := by
  refine run_preserves (fun q => q.song.Finite) ?_ finite
  intro d _ raw q r present applied
  refine applied.finite ?_
  rintro (rfl | rfl) x hx
  · exact measured.1 raw x present hx
  · exact measured.2 raw x present hx

/-- a move sets the song by a directive pass or not at all -/
theorem Moves.song_finite {p q : Performance} (m : Moves p q) (measured : ∀ frame ∈ p.frames, Measured frame)
    (finite : p.song.Finite) : q.song.Finite := by
  have passed : ∀ {c below frame pass}, At p c below frame → p.passAt c below frame = (pass, none) →
      pass.song.Finite := by
    intro c below frame pass here passed
    have hpass : (p.passAt c below frame).1.song.Finite :=
      run_finite (measured frame (Array.mem_of_getElem? here.frame)) Directive.order finite
    rwa [passed] at hpass
  cases m with
  | left | unspliced | spliced | placed => exact finite
  | directed here _ hpass => exact passed here hpass
  | layered here _ hpass => exact passed here hpass

theorem Turns.song_finite {n : Nat} {p q : Performance} {given : List Event} (run : Turns n p given q)
    (measured : ∀ frame ∈ p.frames, Measured frame) (finite : p.song.Finite) : q.song.Finite := by
  induction run with
  | none p => exact finite
  | moved first _ ih =>
    have m := turn_moved_iff.1 first
    apply ih
    · rwa [m.kept.1]
    · exact m.song_finite measured finite
  | event first _ ih =>
    obtain ⟨pending, -, rfl⟩ := turn_event_iff.1 first
    exact ih measured finite

end Performance

/-- **The numbers of a song.** Finite tempos and offsets in a chart leave a song with a finite tempo and offset. -/
theorem compile_song_finite {d : Dialect} {text : String} {c : Compilation} (compiled : compile d text = .ok c)
    (measured : ∀ frame ∈ c.frames, Performance.Measured frame) : c.song.Finite := by
  obtain ⟨-, succeeded, -, song⟩ := compile_ok compiled
  obtain ⟨n, -, run, -⟩ := Performance.drain_succeeded succeeded
  rw [song]
  apply run.song_finite
  · simpa [Performance.start] using measured
  · have hzero : (0 : Float).isFinite = true := by decide +kernel
    exact ⟨nofun, hzero⟩

/-! ## Exported charts -/

/-- the floats of an event -/
def Event.floats (e : Event) : List Float := e.time :: (e.placed.wall?.map (·.length)).toList

/-- the targets and the barriers of a full level hold the floats of the events -/
theorem Level.mem_floats_full {events : List Event} {tempo x : Float} :
    x ∈ (Level.full events tempo).floats ↔ x ∈ [tempo, 10, 0.5] ∨ ∃ e ∈ events, x ∈ e.floats := by
  have targets : (full events tempo).targets.map (·.time) = (notesOf events).map (·.1) := by
    rw [full, List.map_map]
    rfl
  have barriers : (full events tempo).barriers.flatMap Barrier.floats =
      (wallsOf events).flatMap fun timed => [timed.1, timed.2.length] := by
    rw [full, List.flatMap_map]
    rfl
  rw [floats, targets, barriers, List.append_assoc, List.append_assoc, List.mem_append]
  change x ∈ [tempo, 10, 0.5] ∨ x ∈ (notesOf events).map (·.1) ++ _ ↔ _
  refine or_congr_right ?_
  rw [List.mem_append, List.mem_map, List.mem_flatMap]
  constructor
  · rintro (⟨⟨time, n⟩, hn, rfl⟩ | ⟨⟨time, w⟩, hw, hx⟩)
    · exact ⟨_, mem_notesOf.1 hn, List.mem_singleton.2 rfl⟩
    · exact ⟨_, mem_wallsOf.1 hw, hx⟩
  · rintro ⟨⟨time, placed⟩, he, hx⟩
    cases placed with
    | note n => exact .inl ⟨(time, n), mem_notesOf.2 he, (List.mem_singleton.1 hx).symm⟩
    | wall w => exact .inr ⟨(time, w), mem_wallsOf.2 he, hx⟩

/-- every number of an exported chart -/
def LevelSet.floats (s : LevelSet) : List Float := s.manifest.floats ++ s.levels.flatMap (·.2.floats)

/-- what is exported of a chart is finite: its tempo and, if it has a note, its offset and what its events hold -/
structure Compilation.Finite (c : Compilation) : Prop where
  tempo : ∀ x, c.song.tempo = some x → x.isFinite = true
  offset : (∃ e ∈ c.events, e.isNote = true) → c.song.offset.isFinite = true
  events : (∃ e ∈ c.events, e.isNote = true) → ∀ e ∈ c.events, ∀ x ∈ e.floats, x.isFinite = true

section
variable {d : Dialect} {text audioPath : String} {c : Compilation} {cover : Option String} {set : LevelSet}

theorem mem_floats_of_build (compiled : compile d text = .ok c)
    (built : LevelSet.build c.events c.song audioPath cover = .ok set) {x : Float} :
    x ∈ set.floats ↔ x = 0 ∨ c.song.tempo = some x ∨
      (∃ e ∈ c.events, e.isNote = true) ∧ (x = 10 ∨ x = 0.5 ∨ x = c.song.offset ∨ ∃ e ∈ c.events, x ∈ e.floats) := by
  have full : ∀ e ∈ c.events, e.difficulties = .all := fun e he => (compile_drawn compiled e he).difficulties
  have note : (∃ e ∈ c.events, e.isNote = true) ↔ notesOf c.events ≠ [] := by
    rw [ne_eq, notesOf_eq_nil_iff]
    simp
  unfold LevelSet.build at built
  split at built
  · cases built
  · rename_i tempo htempo
    cases built
    have levels := LevelSet.levelsOf_full full tempo
    rw [note, htempo, Option.some.injEq]
    by_cases hnone : notesOf c.events = []
    · rw [if_pos hnone] at levels
      simp only [LevelSet.floats, Manifest.floats, levels, hnone, List.map_nil, List.flatMap_nil, List.append_nil,
        List.mem_cons, List.not_mem_nil, or_false, or_self, ne_eq, not_true, false_and]
      grind
    · rw [if_neg hnone] at levels
      have offsets : x ∈ ((Difficulty.all.map (·, Level.full c.events tempo)).map fun level =>
          LevelSet.entry c.song audioPath level.1).flatMap Manifest.Entry.floats ↔ x = c.song.offset := by
        simp [Difficulty.all, LevelSet.entry, Manifest.Entry.floats]
      have contents : x ∈ (Difficulty.all.map (·, Level.full c.events tempo)).flatMap (·.2.floats) ↔
          x ∈ (Level.full c.events tempo).floats := by
        simp [Difficulty.all]
      rw [LevelSet.floats, List.mem_append, Manifest.floats, List.mem_append]
      simp only [levels]
      rw [offsets, contents, Level.mem_floats_full]
      simp only [List.mem_cons, List.not_mem_nil, or_false, ne_eq, hnone, not_false_iff, true_and]
      grind

/-- **What is exported is finite** exactly when these numbers of the chart are. -/
theorem finite_of_build_iff (compiled : compile d text = .ok c)
    (built : LevelSet.build c.events c.song audioPath cover = .ok set) :
    (∀ x ∈ set.floats, x.isFinite = true) ↔ c.Finite := by
  have hzero : (0 : Float).isFinite = true := by decide +kernel
  have hspeed : (10 : Float).isFinite = true := by decide +kernel
  have hperiod : (0.5 : Float).isFinite = true := by decide +kernel
  simp only [mem_floats_of_build compiled built]
  constructor
  · intro h
    refine ⟨fun x hx => h x (.inr (.inl hx)), fun note => ?_, fun note e he x hx => ?_⟩
    · exact h _ (.inr (.inr ⟨note, .inr (.inr (.inl rfl))⟩))
    · exact h x (.inr (.inr ⟨note, .inr (.inr (.inr ⟨e, he, hx⟩))⟩))
  · rintro finite x (rfl | hx | ⟨note, rfl | rfl | rfl | ⟨e, he, hx⟩⟩)
    · exact hzero
    · exact finite.tempo x hx
    · exact hspeed
    · exact hperiod
    · exact finite.offset note
    · exact finite.events note e he x hx

end

namespace LevelSet

/-- each file is read as what it was written from -/
structure ReadBack (s : LevelSet) : Prop where
  manifest : Manifest.ofFile? s.manifest.fileText = some s.manifest
  levels : ∀ d level, (d, level) ∈ s.levels → Level.ofFile? level.fileText = some level

variable {s : LevelSet}

theorem mem_floats {x : Float} :
    x ∈ s.floats ↔ x ∈ s.manifest.floats ∨ ∃ d level, (d, level) ∈ s.levels ∧ x ∈ level.floats := by
  rw [floats, List.mem_append, List.mem_flatMap]
  simp

theorem readBack_iff (readsBack : ∀ x ∈ s.floats, x.isFinite = true → ReadsBack x) :
    s.ReadBack ↔ ∀ x ∈ s.floats, x.isFinite = true := by
  constructor
  · intro back x hx
    by_contra hfinite
    have hx' := Bool.eq_false_iff.2 hfinite
    rcases mem_floats.1 hx with hx | ⟨d, level, hlevel, hx⟩
    · have hnone := Manifest.ofFile?_fileText_eq_none ⟨x, hx, hx'⟩
      rw [back.manifest] at hnone
      cases hnone
    · have hnone := Level.ofFile?_fileText_eq_none ⟨x, hx, hx'⟩
      rw [back.levels d level hlevel] at hnone
      cases hnone
  · intro finite
    have kept : ∀ x ∈ s.floats, Kept x := fun x hx => ⟨finite x hx, readsBack x hx (finite x hx)⟩
    constructor
    · exact Manifest.ofFile?_fileText fun x hx => kept x (mem_floats.2 (.inl hx))
    · intro d level hlevel
      exact Level.ofFile?_fileText fun x hx => kept x (mem_floats.2 (.inr ⟨d, level, hlevel, hx⟩))

/-- a manifest has numbers of its song only -/
theorem manifest_finite {events : List Event} {song : Song} {audioPath : String} {cover : Option String}
    (built : build events song audioPath cover = .ok s) (finite : song.Finite) :
    ∀ x ∈ s.manifest.floats, x.isFinite = true := by
  have hzero : (0 : Float).isFinite = true := by decide +kernel
  unfold build at built
  split at built
  · cases built
  · rename_i tempo htempo
    cases built
    intro x hx
    rcases List.mem_append.1 hx with hx | hx
    · simp only [List.mem_cons, List.not_mem_nil, or_false, or_self] at hx
      rcases hx with rfl | rfl
      · exact finite.tempo _ htempo
      · exact hzero
    · obtain ⟨entry, hentry, hx⟩ := List.mem_flatMap.1 hx
      obtain ⟨_, -, rfl⟩ := List.mem_map.1 hentry
      have hoffset : x = song.offset := by simpa [Manifest.Entry.floats, LevelSet.entry] using hx
      rw [hoffset]
      exact finite.offset

end LevelSet

/-- **Which exported charts can be loaded again.** The numbers in the files of a chart are finite exactly when its tempo
is and, if it has a note, its offset and the times and lengths of its events are. If so, every file is read as what it
was written from, given that the numeral of each finite number in it is read as that number. Otherwise a number that is
not finite stands as null in its file, and nothing is read off that file. For the manifest it is enough that the tempos
and offsets in the chart are finite. -/
theorem exported_files_read_back_iff {d : Dialect} {text audioPath : String} {c : Compilation} {cover : Option String}
    {set : LevelSet} (compiled : compile d text = .ok c)
    (built : LevelSet.build c.events c.song audioPath cover = .ok set) :
    ((∀ x ∈ set.floats, x.isFinite = true) ↔ c.Finite) ∧
      ((∀ x ∈ set.floats, x.isFinite = true → ReadsBack x) → (set.ReadBack ↔ c.Finite)) ∧
      (∀ x ∈ set.manifest.floats, x.isFinite = false →
        Value.float x = .null ∧ Manifest.ofFile? set.manifest.fileText = none) ∧
      (∀ d level, (d, level) ∈ set.levels → ∀ x ∈ level.floats, x.isFinite = false →
        Value.float x = .null ∧ Level.ofFile? level.fileText = none) ∧
      ((∀ frame ∈ c.frames, Performance.Measured frame) → ∀ x ∈ set.manifest.floats, x.isFinite = true) := by
  have finite := finite_of_build_iff compiled built
  refine ⟨finite, ?_, ?_, ?_, ?_⟩
  · intro readsBack
    exact (LevelSet.readBack_iff readsBack).trans finite
  · intro x hx hfinite
    exact ⟨Value.float_eq_null_iff.2 hfinite, Manifest.ofFile?_fileText_eq_none ⟨x, hx, hfinite⟩⟩
  · intro d level _ x hx hfinite
    exact ⟨Value.float_eq_null_iff.2 hfinite, Level.ofFile?_fileText_eq_none ⟨x, hx, hfinite⟩⟩
  · intro measured
    exact LevelSet.manifest_finite built (compile_song_finite compiled measured)

/-- the export of a chart -/
def exportOf (d : Dialect) (text : String) : Option LevelSet := do
  let c ← (compile d text).toOption
  (LevelSet.build c.events c.song "song.ogg" none).toOption

theorem exists_of_exportOf {d : Dialect} {text : String} {set : LevelSet} (h : exportOf d text = some set) :
    ∃ c, compile d text = .ok c ∧ LevelSet.build c.events c.song "song.ogg" none = .ok set := by
  obtain ⟨c, hc, hset⟩ := Option.bind_eq_some_iff.1 h
  refine ⟨c, ?_, ?_⟩
  · cases hcompile : compile d text <;> simp_all [Except.toOption]
  · cases hbuild : LevelSet.build c.events c.song "song.ogg" none <;> simp_all [Except.toOption]

/-- the chart with the procedure that is layered reads back -/
theorem walledChart_read_back : ∃ set, exportOf .standard walledChart = some set ∧ set.levels.length = 5 ∧
    set.ReadBack := by
  have outcome : (exportOf .standard walledChart).map (fun set =>
      (set.levels.length, decide (∀ x ∈ set.floats, x.isFinite = true ∧ ReadsBack x))) = some (5, true) := by
    decide +kernel
  obtain ⟨set, hset, hnumbers⟩ := Option.map_eq_some_iff.1 outcome
  obtain ⟨hlength, hnumbers⟩ := Prod.mk.inj hnumbers
  have numbers := of_decide_eq_true hnumbers
  obtain ⟨c, compiled, built⟩ := exists_of_exportOf hset
  obtain ⟨finite, back, -⟩ := exported_files_read_back_iff compiled built
  exact ⟨set, hset, hlength, (back fun x hx _ => (numbers x hx).2).2 (finite.1 fun x hx => (numbers x hx).1)⟩

/-- a note at a tempo without end -/
def endlessChart : String := "8Z;bpm=inf"

/-- it is exported, and none of its six files can be loaded -/
theorem endlessChart_not_read_back : ∃ set, exportOf .standard endlessChart = some set ∧ set.levels.length = 5 ∧
    Manifest.ofFile? set.manifest.fileText = none ∧
    ∀ d level, (d, level) ∈ set.levels → Level.ofFile? level.fileText = none := by
  have outcome : (exportOf .standard endlessChart).map (fun set => (set.levels.length, set.manifest.tempo.isFinite,
      decide (∀ level ∈ set.levels, level.2.tempo.isFinite = false))) = some (5, false, true) := by
    decide +kernel
  obtain ⟨set, hset, hnumbers⟩ := Option.map_eq_some_iff.1 outcome
  obtain ⟨hlength, hmanifest, hlevels⟩ : set.levels.length = 5 ∧ set.manifest.tempo.isFinite = false ∧
      decide (∀ level ∈ set.levels, level.2.tempo.isFinite = false) = true := by simpa using hnumbers
  refine ⟨set, hset, hlength, ?_, ?_⟩
  · exact Manifest.ofFile?_fileText_eq_none ⟨set.manifest.tempo, by simp [Manifest.floats], hmanifest⟩
  · intro d level hlevel
    have hfinite := of_decide_eq_true hlevels (d, level) hlevel
    exact Level.ofFile?_fileText_eq_none ⟨level.tempo, by simp [Level.floats], hfinite⟩

end RhythmChart
