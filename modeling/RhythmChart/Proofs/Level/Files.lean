/-
The files of a song, written and read.

Every record is written with distinct keys, and those are the keys it is read by; a manifest without a cover has no key
for it and is read as one without. Names and paths are arbitrary texts, integers have the whole range of their fields,
and the lists have any length. Floats are finite and such that their numeral is read as the float it was written for
(`Json.ReadsBack`): the reader is quick rather than exact, and does not promise that for every float.

Main result: `files_read_back`.
-/
import Mathlib.Tactic
import RhythmChart.Level.File
import RhythmChart.Proofs.Json.Roundtrip

namespace RhythmChart

open Json (Value ReadsBack)

/-- a float that can be written, and whose text is read as the float -/
structure Kept (x : Float) : Prop where
  finite : x.isFinite = true
  readsBack : ReadsBack x

theorem Kept.float?_float {x : Float} (h : Kept x) : (Value.float x).float? = some x :=
  Value.float?_float h.finite h.readsBack

theorem Difficulty.ofName?_name (d : Difficulty) : ofName? d.name = some d := by
  cases d <;> decide

theorem Environment.ofName?_name (e : Environment) : ofName? e.name = some e := by
  cases e <;> decide

/-! ## Levels -/

namespace Level

/-- the floats of a barrier -/
def Barrier.floats (b : Barrier) : List Float := [b.time, b.duration]

/-- every float of a level -/
def floats (l : Level) : List Float :=
  [l.tempo, l.noteJumpSpeed, l.shufflePeriod] ++ l.lights.map (·.time) ++ l.targets.map (·.time) ++
    l.barriers.flatMap Barrier.floats

theorem Light.writable (l : Light) : l.toValue.Writable := by
  apply Value.record_writable
  simp [Value.float_writable, Value.integer_writable]

theorem Light.ofValue?_toValue {l : Light} (time : Kept l.time) : ofValue? l.toValue = some l := by
  rw [ofValue?, toValue, Value.fields?_record_self]
  · simp [time.float?_float, Value.int?_integer]
  · rfl
  · decide

theorem Target.writable (t : Target) : t.toValue.Writable := by
  apply Value.record_writable
  simp [Value.float_writable, Value.natural, Value.integer_writable]

theorem Target.ofValue?_toValue {t : Target} (time : Kept t.time) : ofValue? t.toValue = some t := by
  rw [ofValue?, toValue, Value.fields?_record_self]
  · simp [time.float?_float, Value.byte?_natural]
  · rfl
  · decide

theorem Barrier.writable (b : Barrier) : b.toValue.Writable := by
  apply Value.record_writable
  simp [Value.float_writable, Value.natural, Value.integer_writable]

theorem Barrier.ofValue?_toValue {b : Barrier} (kept : ∀ x ∈ b.floats, Kept x) : ofValue? b.toValue = some b := by
  have time : Kept b.time := kept _ (by simp [floats])
  have duration : Kept b.duration := kept _ (by simp [floats])
  rw [ofValue?, toValue, Value.fields?_record_self]
  · simp [time.float?_float, duration.float?_float, Value.byte?_natural]
  · rfl
  · decide

theorem writable (l : Level) : l.toValue.Writable := by
  apply Value.record_writable
  simp [Value.text_writable, Value.float_writable, Value.natural, Value.integer_writable,
    Value.array_writable Light.writable, Value.array_writable Target.writable, Value.array_writable Barrier.writable]

theorem ofValue?_toValue {l : Level} (kept : ∀ x ∈ l.floats, Kept x) : ofValue? l.toValue = some l := by
  simp only [floats, List.mem_append, List.mem_map, List.mem_flatMap] at kept
  have tempo : Kept l.tempo := kept _ (by simp)
  have speed : Kept l.noteJumpSpeed := kept _ (by simp)
  have period : Kept l.shufflePeriod := kept _ (by simp)
  have lights : (Value.array (l.lights.map Light.toValue)).list? Light.ofValue? = some l.lights := by
    apply Value.list?_map
    intro light hlight
    exact Light.ofValue?_toValue (kept _ (.inl (.inl (.inr ⟨light, hlight, rfl⟩))))
  have targets : (Value.array (l.targets.map Target.toValue)).list? Target.ofValue? = some l.targets := by
    apply Value.list?_map
    intro target htarget
    exact Target.ofValue?_toValue (kept _ (.inl (.inr ⟨target, htarget, rfl⟩)))
  have barriers : (Value.array (l.barriers.map Barrier.toValue)).list? Barrier.ofValue? = some l.barriers := by
    apply Value.list?_map
    intro barrier hbarrier
    exact Barrier.ofValue?_toValue fun x hx => kept x (.inr ⟨barrier, hbarrier, hx⟩)
  rw [ofValue?, toValue, Value.fields?_record_self]
  · simp [Value.text?_text, tempo.float?_float, Value.word?_natural, speed.float?_float, period.float?_float, lights,
      targets, barriers]
  · rfl
  · decide

/-- a level is read off its file -/
theorem ofFile?_fileText {l : Level} (kept : ∀ x ∈ l.floats, Kept x) : ofFile? l.fileText = some l := by
  rw [ofFile?, fileText, String.toList_ofList, Value.read?_render l.writable]
  exact ofValue?_toValue kept

end Level

/-! ## Manifests -/

namespace Manifest

/-- the floats of an entry -/
def Entry.floats (e : Entry) : List Float := [e.offset, e.oldOffset]

/-- every float of a manifest -/
def floats (m : Manifest) : List Float :=
  [m.tempo, m.previewStart, m.previewDuration] ++ m.entries.flatMap Entry.floats

theorem Entry.writable (e : Entry) : e.toValue.Writable := by
  apply Value.record_writable
  simp [Value.text_writable, Value.float_writable, Value.natural, Value.integer_writable]

theorem Entry.ofValue?_toValue {e : Entry} (kept : ∀ x ∈ e.floats, Kept x) : ofValue? e.toValue = some e := by
  have offset : Kept e.offset := kept _ (by simp [floats])
  have oldOffset : Kept e.oldOffset := kept _ (by simp [floats])
  rw [ofValue?, toValue, Value.fields?_record_self]
  · simp [Value.choice?_text, Difficulty.ofName?_name, Value.byte?_natural, Value.text?_text, offset.float?_float,
      oldOffset.float?_float]
  · rfl
  · decide

theorem writable (m : Manifest) : m.toValue.Writable := by
  apply Value.record_writable
  cases hcover : m.cover <;>
    simp [coverMember, hcover, Value.text_writable, Value.float_writable, Value.array_writable Entry.writable]

/-- the cover is the only key that can be missing -/
theorem fields?_toValue (m : Manifest) : m.toValue.fields? keys =
    some [some (.text m.title), some (.text m.subtitle), some (.text m.author), some (.float m.tempo),
      some (.float m.previewStart), some (.float m.previewDuration), m.cover.map Value.text,
      some (.text m.environment.name), some (.array (m.entries.map Entry.toValue))] := by
  rw [toValue, Value.fields?_record]
  · cases hcover : m.cover with
    | none => simp [coverMember, hcover, keys, List.lookup_cons]
    | some cover => simp [coverMember, hcover, keys, List.lookup_cons]
  · cases hcover : m.cover with
    | none => simp [coverMember, hcover]
    | some cover => simp [coverMember, hcover]

theorem nullable?_cover (cover : Option String) :
    ((cover.map Value.text).getD .null).nullable? Value.text? = some cover := by
  cases cover with
  | none => rfl
  | some cover =>
    have htext := Value.text?_text cover
    simpa [Value.text, Value.nullable?] using htext

theorem ofValue?_toValue {m : Manifest} (kept : ∀ x ∈ m.floats, Kept x) : ofValue? m.toValue = some m := by
  simp only [floats, List.mem_append, List.mem_flatMap] at kept
  have tempo : Kept m.tempo := kept _ (by simp)
  have start : Kept m.previewStart := kept _ (by simp)
  have duration : Kept m.previewDuration := kept _ (by simp)
  have entries : (Value.array (m.entries.map Entry.toValue)).list? Entry.ofValue? = some m.entries := by
    apply Value.list?_map
    intro entry hentry
    exact Entry.ofValue?_toValue fun x hx => kept x (.inr ⟨entry, hentry, hx⟩)
  rw [ofValue?, fields?_toValue]
  simp [Value.text?_text, tempo.float?_float, start.float?_float, duration.float?_float, nullable?_cover,
    Value.choice?_text, Environment.ofName?_name, entries]

/-- a manifest is read off its file -/
theorem ofFile?_fileText {m : Manifest} (kept : ∀ x ∈ m.floats, Kept x) : ofFile? m.fileText = some m := by
  rw [ofFile?, fileText, String.toList_ofList, Value.read?_render m.writable]
  exact ofValue?_toValue kept

end Manifest

/-! ## Both files -/

/-- **The files of a song read back.** A manifest whose floats are finite is read off its file, and so is a level, if
the numeral of each of those floats is read as that float. -/
theorem files_read_back :
    (∀ m : Manifest, (∀ x ∈ m.floats, x.isFinite = true) → (∀ x ∈ m.floats, ReadsBack x) →
      Manifest.ofFile? m.fileText = some m) ∧
    (∀ l : Level, (∀ x ∈ l.floats, x.isFinite = true) → (∀ x ∈ l.floats, ReadsBack x) →
      Level.ofFile? l.fileText = some l) := by
  constructor
  · intro m finite readsBack
    exact Manifest.ofFile?_fileText fun x hx => ⟨finite x hx, readsBack x hx⟩
  · intro l finite readsBack
    exact Level.ofFile?_fileText fun x hx => ⟨finite x hx, readsBack x hx⟩

/-- a manifest with a cover, quotes, a backslash and controls in its texts, and two entries -/
def quotedManifest : Manifest where
  title := "a \"song\" \\ of\ttwo\nlines"
  subtitle := ""
  author := "née 🎵"
  tempo := 174.5
  previewStart := -0.25
  previewDuration := 1e-7
  cover := some "\x01cover.jpg"
  environment := .triangle
  entries := [⟨.easy, 1, "song.ogg", "Easy.json", -3.75, 1e21⟩, ⟨.expertPlus, 255, "/", "\x7f", 0, -0.0⟩]

/-- a level with lights below zero, a note and a wall -/
def litLevel : Level where
  version := Level.formatVersion
  tempo := 174.5
  beatsPerBar := 4294967295
  noteJumpSpeed := 10
  shuffle := 0
  shufflePeriod := 0.5
  lights := [⟨0.1, -2147483648, 2147483647⟩, ⟨1.5, 0, -1⟩]
  targets := [⟨123456.789, 3, 2, 0, 255⟩]
  barriers := [⟨2.25, 0, 1, 1.3e-5, 4⟩]

theorem quoted_and_lit_read_back :
    Manifest.ofFile? quotedManifest.fileText = some quotedManifest ∧ Level.ofFile? litLevel.fileText = some litLevel := by
  constructor
  · apply files_read_back.1
    · decide +kernel
    · decide +kernel
  · apply files_read_back.2
    · decide +kernel
    · decide +kernel

end RhythmChart
