/-
A performance knows fourteen keys.

A frame is reduced to what can be heard of it: its placements, and of its directives those with a known key, in the
order in which they are applied (`Frame.known`). Frames that differ in the order of their directives, or in directives
that nobody knows, are reduced to the same frame (`Frame.known_eq_iff`). Applying the directives of a frame looks up
known keys only (`Pass.run_known`), so the recursive reading of a performance is the same after the reduction
(`recite_known`), and so is the performance.

Main result: `perform_known`.
-/
import Mathlib.Tactic
import RhythmChart.Proofs.Performance.Directives
import RhythmChart.Proofs.Performance.Refinement

namespace RhythmChart

/-! ## Frames -/

theorem Directive.key_injective : Function.Injective key := by
  intro d e h
  have hd := ofKey?_key d
  rw [h, ofKey?_key] at hd
  exact (Option.some.inj hd).symm

namespace Frame

/-- the known directives, in the order in which a frame applies them -/
def knownEntries (value? : Directive → Option String) : List Directive → List (String × String) :=
  List.filterMap fun d => (value? d).map (d.key, ·)

/-- the frame with its known directives only -/
def known (f : Frame) : Frame :=
  { f with directives := ⟨knownEntries (f.directive? ·.key) Directive.order⟩ }

theorem lookup_knownEntries (value? : Directive → Option String) (ds : List Directive) (d : Directive) :
    (knownEntries value? ds).lookup d.key = if d ∈ ds then value? d else none := by
  induction ds with
  | nil => rfl
  | cons e rest ih =>
    unfold knownEntries at ih ⊢
    by_cases hd : d = e
    · subst hd
      cases hvalue : value? d <;> simp [hvalue, ih]
    · have hkey : (d.key == e.key) = false := beq_eq_false_iff_ne.2 fun h => hd (Directive.key_injective h)
      cases hvalue : value? e <;> simp [hvalue, List.lookup_cons, hkey, ih, hd]

/-- known directives keep their values -/
theorem directive?_known (f : Frame) (d : Directive) : f.known.directive? d.key = f.directive? d.key := by
  have hlookup := lookup_knownEntries (f.directive? ·.key) Directive.order d
  rw [if_pos d.mem_order] at hlookup
  exact hlookup

/-- two frames are heard alike when they place the same and give every known key the same value -/
theorem known_eq_iff {f g : Frame} :
    f.known = g.known ↔ f.line = g.line ∧ f.notes = g.notes ∧ f.walls = g.walls ∧
      ∀ d : Directive, f.directive? d.key = g.directive? d.key := by
  constructor
  · intro h
    refine ⟨(congrArg Frame.line h :), (congrArg Frame.notes h :), (congrArg Frame.walls h :), fun d => ?_⟩
    rw [← directive?_known, h, directive?_known]
  · rintro ⟨hline, hnotes, hwalls, hdirectives⟩
    unfold known
    simp only [hline, hnotes, hwalls, hdirectives]

end Frame

/-! ## Performances -/

namespace Performance

theorem Pass.run_known (site : Site) (f : Frame) (ds : List Directive) (p : Pass) :
    run site f.known ds p = run site f ds p := by
  induction ds generalizing p with
  | nil => rfl
  | cons d rest ih =>
    unfold run
    rw [Frame.directive?_known]
    cases f.directive? d.key with
    | none => exact ih p
    | some raw =>
      simp only
      cases p.apply site d raw with
      | error fault => rfl
      | ok q => exact ih q

theorem recite_known (frames : Array Frame) (active : List String) (pos stop : Nat) (song : Song) (timeline : Timeline)
    (ps : Procedures) :
    recite (frames.map Frame.known) active pos stop song timeline ps =
      recite frames active pos stop song timeline ps := by
  induction active, pos, stop, song, timeline, ps using recite.induct frames with
  | case1 active pos stop song timeline ps inside here =>
    rw [recite_done (.inr here), recite_done (.inr (by simp [here]))]
  | case2 active pos stop song timeline ps inside frame here pass fault run =>
    have here' : (frames.map Frame.known)[pos]? = some frame.known := by simp [here]
    rw [recite_refused inside here run, recite_refused inside here' (by rw [Array.size_map, Pass.run_known, run])]
    rfl
  | case3 active pos stop song timeline ps inside frame here pass run ihCall ihNext =>
    have here' : (frames.map Frame.known)[pos]? = some frame.known := by simp [here]
    rw [recite_passed inside here run, recite_passed inside here' (by rw [Array.size_map, Pass.run_known, run])]
    have hcall : call (frames.map Frame.known) active frame.known.line pass.procedures =
        call frames active frame.line pass.procedures := by
      funext name song timeline
      cases name with
      | none => rfl
      | some name =>
        simp only [call]
        cases found : summon pass.procedures active name with
        | error fault => rfl
        | ok span => exact ihCall _ _ _ _ found
    rw [hcall]
    congr 1
    funext song timeline
    exact ihNext song timeline
  | case4 active pos stop song timeline ps outside =>
    rw [recite_done (.inl (Nat.not_lt.1 outside)), recite_done (.inl (Nat.not_lt.1 outside))]

theorem recital_known (frames : Array Frame) (song : Song) (timeline : Timeline) :
    recital (frames.map Frame.known) song timeline = recital frames song timeline := by
  unfold recital
  rw [recite_known, Array.size_map]

/-- what a performance comes to is what its recursive reading says -/
theorem perform_eq_recital (frames : List Frame) (song : Song) :
    perform frames song =
      match (recital frames.toArray song .start).error with
      | some e => .error e
      | none => .ok ((recital frames.toArray song .start).events, (recital frames.toArray song .start).song) := by
  unfold perform
  obtain ⟨n, q, hn, run, ⟨herror, rfl⟩ | ⟨e, extra, herror, failed⟩⟩ := turns_recital frames.toArray song .start
  · rw [drain_of_ended run hn (turn_ended_iff.2 ⟨rfl, rfl⟩), herror]
    rfl
  · rw [drain_of_failed run hn failed, herror]

/-- **Unknown directives are not heard.** Frames that are reduced to their known directives are performed as before. -/
theorem perform_known (frames : List Frame) (song : Song) :
    perform (frames.map Frame.known) song = perform frames song := by
  rw [perform_eq_recital, perform_eq_recital, ← List.map_toArray, recital_known]

end Performance

end RhythmChart
