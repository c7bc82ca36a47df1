/-
What a directive pass reads of the song.

A pass writes all settings of the song, but it reads only the tempo and the silence before the audio. On two songs that
are alike in these it does the same to everything else, and leaves songs that are alike (`run_singing`). Only two
directives change the two settings; a frame with neither of them keeps the song alike (`run_alike`).
-/
import Mathlib.Tactic
import RhythmChart.Proofs.Performance.Directives

namespace RhythmChart

/-- two songs with the same tempo and the same silence before the audio -/
structure Song.Alike (s t : Song) : Prop where
  tempo : s.tempo = t.tempo
  leadIn : s.leadIn = t.leadIn

theorem Song.Alike.refl (s : Song) : s.Alike s := ⟨rfl, rfl⟩

theorem Song.Alike.symm {s t : Song} (h : s.Alike t) : t.Alike s := ⟨h.tempo.symm, h.leadIn.symm⟩

theorem Song.Alike.trans {s t u : Song} (h : s.Alike t) (h' : t.Alike u) : s.Alike u :=
  ⟨h.tempo.trans h'.tempo, h.leadIn.trans h'.leadIn⟩

namespace Performance

/-- a pass with another song -/
def Pass.singing (p : Pass) (song : Song) : Pass := { p with song }

/-- one directive on alike songs -/
theorem apply_singing (site : Site) {p : Pass} {song : Song} (d : Directive) (raw : String) (h : p.song.Alike song) :
    (∃ fault, p.apply site d raw = .error fault ∧ (p.singing song).apply site d raw = .error fault) ∨
      ∃ q song', p.apply site d raw = .ok q ∧ (p.singing song).apply site d raw = .ok (q.singing song') ∧
        q.song.Alike song' := by
  obtain ⟨⟨audioFile, title, subtitle, author, tempo, offset, leadIn⟩, timeline, ps, frameOffset, layered, spliced⟩ := p
  obtain ⟨audioFile', title', subtitle', author', tempo', offset', leadIn'⟩ := song
  obtain ⟨rfl, rfl⟩ := h
  cases d with
  | audioFile | title | subtitle | author | layer | splice => exact .inr ⟨_, _, rfl, rfl, rfl, rfl⟩
  | setTime | tempo | audioOffset | offset | frameOffset =>
    simp only [Pass.apply, Pass.singing]
    cases Pass.number _ raw with
    | error fault => exact .inl ⟨fault, rfl, rfl⟩
    | ok x => exact .inr ⟨_, _, rfl, rfl, rfl, rfl⟩
  | leadIn =>
    simp only [Pass.apply, Pass.singing]
    cases Pass.number .leadIn raw with
    | error fault => exact .inl ⟨fault, rfl, rfl⟩
    | ok seconds =>
      cases tempo with
      | none => exact .inl ⟨_, rfl, rfl⟩
      | some tempo => exact .inr ⟨_, _, rfl, rfl, rfl, rfl⟩
  | measure =>
    simp only [Pass.apply, Pass.singing]
    cases Pass.number .measure raw with
    | error fault => exact .inl ⟨fault, rfl, rfl⟩
    | ok measure =>
      simp only [bind, Except.bind]
      cases Pass.validMeasure measure with
      | false => exact .inl ⟨_, rfl, rfl⟩
      | true => exact .inr ⟨_, _, rfl, rfl, rfl, rfl⟩
  | define =>
    simp only [Pass.apply, Pass.singing]
    cases site.topLevel with
    | false => exact .inr ⟨_, _, rfl, rfl, rfl, rfl⟩
    | true =>
      simp only [if_true]
      cases Declaration.read raw with
      | error fault => exact .inl ⟨fault, rfl, rfl⟩
      | ok declaration =>
        simp only [bind, Except.bind]
        cases ps.define declaration site.pos site.count with
        | error fault => exact .inl ⟨fault, rfl, rfl⟩
        | ok defined => exact .inr ⟨_, _, rfl, rfl, rfl, rfl⟩

/-- **Alike songs.** A pass does the same on them, and leaves alike songs. -/
theorem run_singing (site : Site) (frame : Frame) (ds : List Directive) {p : Pass} {song : Song}
    (h : p.song.Alike song) :
    ∃ song', (Pass.run site frame ds p).1.song.Alike song' ∧
      Pass.run site frame ds (p.singing song) =
        ((Pass.run site frame ds p).1.singing song', (Pass.run site frame ds p).2) := by
  induction ds generalizing p song with
  | nil => exact ⟨song, h, rfl⟩
  | cons d ds ih =>
    simp only [Pass.run]
    cases frame.directive? d.key with
    | none => exact ih h
    | some raw =>
      rcases apply_singing site d raw h with ⟨fault, refused, refused'⟩ | ⟨q, song', passed, passed', h'⟩
      · simp only [refused, refused']
        exact ⟨song, h, rfl⟩
      · simp only [passed, passed']
        exact ih h'

/-- the other directives keep the two settings -/
theorem Applies.alike {site : Site} {p q : Pass} {d : Directive} {raw : String} (h : Applies site p d raw q)
    (tempo : d ≠ .tempo) (leadIn : d ≠ .leadIn) : q.song.Alike p.song := by
  cases h with
  | tempo => exact absurd rfl tempo
  | leadIn => exact absurd rfl leadIn
  | _ => exact ⟨rfl, rfl⟩

/-- a frame that sets neither a tempo nor silence -/
def Quiet (frame : Frame) : Prop :=
  frame.directive? Directive.tempo.key = none ∧ frame.directive? Directive.leadIn.key = none

instance (frame : Frame) : Decidable (Quiet frame) := inferInstanceAs (Decidable (_ ∧ _))

/-- **Quiet frames.** A pass of a quiet frame leaves a song like the one before. -/
theorem run_alike (site : Site) {frame : Frame} (quiet : Quiet frame) (ds : List Directive) (p : Pass) :
    (Pass.run site frame ds p).1.song.Alike p.song := by
  refine run_preserves (fun q => q.song.Alike p.song) ?_ (.refl p.song)
  intro d _ raw q r present applied alike
  have tempo : d ≠ .tempo := by
    rintro rfl
    rw [quiet.1] at present
    cases present
  have leadIn : d ≠ .leadIn := by
    rintro rfl
    rw [quiet.2] at present
    cases present
  exact (applied.alike tempo leadIn).trans alike

end Performance

end RhythmChart
