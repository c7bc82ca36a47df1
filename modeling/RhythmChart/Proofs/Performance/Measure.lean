/-
No division meets a bad measure.

Offsets, lengths and the clock itself are counted in frames and divided by the measure (`Divides`). A measure is set by
one directive only, which takes finite numbers above zero and refuses all others. So a pass keeps the measure of its
timeline positive, after each of its directives (`run_measure`), and a turn keeps those of all timelines, the copies and
those that a failure leaves included (`Effect.measures`). A pass that comes to another number ends the performance
before the frame has given anything (`ReachesMeasure.refused`).

Main result: `measures_stay_positive`.
-/
import Mathlib.Tactic
import RhythmChart.Proofs.Decimal.Arithmetic
import RhythmChart.Proofs.Performance.History

namespace RhythmChart.Performance

open Decimal (Positive)

theorem validMeasure_iff {x : Float} : Pass.validMeasure x = true ↔ Positive x := by
  simp [Pass.validMeasure, Positive]

/-! ## Passes -/

theorem Applies.measure_positive {site : Site} {p q : Pass} {d : Directive} {raw : String} (h : Applies site p d raw q)
    (positive : Positive p.timeline.measure) : Positive q.timeline.measure := by
  cases h with
  | measure _ valid => exact validMeasure_iff.1 valid
  | _ => exact positive

/-- after any of the directives, and when one of them fails -/
theorem run_measure (site : Site) (frame : Frame) (ds : List Directive) {p : Pass}
    (positive : Positive p.timeline.measure) : Positive (Pass.run site frame ds p).1.timeline.measure :=
  run_preserves (fun q => Positive q.timeline.measure) (fun _ _ _ _ _ _ applied => applied.measure_positive)
    positive

/-! ## Turns -/

section Turns

variable {p q : Performance} {c : Cursor} {below : List Cursor} {frame : Frame} {x m : Float}

/-- the directives of the frame at which `c` is, up to `d` -/
def passBefore (p : Performance) (c : Cursor) (below : List Cursor) (frame : Frame) (d : Directive) :
    Pass × Option Fault :=
  Pass.run ⟨c.pos, p.frames.size, below.isEmpty⟩ frame d.before (.start p.song (p.timelineAt c.slot) p.procedures)

/-- the turn of `p` divides `x` by the measure `m` -/
inductive Divides (p : Performance) : Float → Float → Prop where
  /-- an offset, with the measure that the directives before it leave -/
  | offset {c : Cursor} {below : List Cursor} {frame : Frame} {x : Float} {pass : Pass} (directs : Directs p c below frame)
      (reached : p.passBefore c below frame .offset = (pass, none)) (given : frame.number? .offset = some x) :
      Divides p x pass.timeline.measure
  /-- the offset of the frame's own placements -/
  | frameOffset {c : Cursor} {below : List Cursor} {frame : Frame} (here : At p c below frame) (stage : c.stage = .place) :
      Divides p c.frameOffset (p.timelineAt c.slot).measure
  /-- the length of a wall -/
  | length {c : Cursor} {below : List Cursor} {frame : Frame} {w : Wall} (here : At p c below frame)
      (stage : c.stage = .place) (placed : w ∈ frame.walls) : Divides p w.length (p.timelineAt c.slot).measure
  /-- one frame of the clock -/
  | tick {c : Cursor} {below : List Cursor} {frame : Frame} (here : At p c below frame) (stage : c.stage = .place) :
      Divides p 1 (p.timelineAt c.slot).measure

/-- every timeline has a positive measure -/
def Measures (p : Performance) : Prop := ∀ t ∈ p.timelines, Positive t.measure

theorem Measures.at_slot (h : Measures p) (seated : Seated p) (stack : p.stack = c :: below) :
    Positive (p.timelineAt c.slot).measure := h _ (timelineAt_mem (seated.slot_lt stack))

theorem Measures.divides (h : Measures p) (seated : Seated p) (divides : Divides p x m) : Positive m := by
  cases divides with
  | @offset c below frame _ pass directs reached =>
    have positive : Positive (p.passBefore c below frame .offset).1.timeline.measure :=
      run_measure _ frame _ (h.at_slot seated directs.stack)
    rwa [reached] at positive
  | frameOffset here | length here | tick here => exact h.at_slot seated here.stack

/-- **A turn keeps the measures positive**, whether it fails or not. -/
theorem Effect.measures (effect : Effect p q) (seated : Seated p) (h : Measures p) : Measures q := by
  intro t ht
  cases effect with
  | @visit c below frame pass fault directs made _ _ _ copies =>
    rcases List.mem_or_eq_of_mem_set (copies t ht) with old | rfl
    · exact h t old
    · have positive : Positive (p.passAt c below frame).1.timeline.measure :=
        run_measure _ frame _ (h.at_slot seated directs.stack)
      rwa [made] at positive
  | other _ _ _ _ timelines =>
    obtain ⟨u, hu, rfl | rfl⟩ := timelines t ht
    · exact h t hu
    · exact h u hu

/-- the directives of the frame `f` come to a measure of the number `x` -/
structure ReachesMeasure (p : Performance) (c : Cursor) (below : List Cursor) (f : Frame) (x : Float) : Prop
    extends Directs p c below f where
  reached : (p.passBefore c below f .measure).2 = none
  given : f.number? .measure = some x

/-- the turn that refuses a measure, and what it leaves -/
theorem ReachesMeasure.refused (h : ReachesMeasure p c below frame x) (bad : ¬Positive x) (seated : Seated p) :
    ∃ q, Fails p ⟨frame.line, .invalidMeasure x⟩ q ∧ (q.timelineAt c.slot).measure = (p.timelineAt c.slot).measure ∧
      ∀ slot, slot ≠ c.slot → q.timelineAt slot = p.timelineAt slot := by
  obtain ⟨raw, present, given⟩ := Option.bind_eq_some_iff.1 h.given
  rcases before : p.passBefore c below frame .measure with ⟨pass, fault | fault⟩
  · have kept : (p.passBefore c below frame .measure).1.timeline.measure = (p.timelineAt c.slot).measure :=
      run_keeps (fun q => q.timeline.measure) (fun e he _ _ _ _ applied =>
        applied.measure_kept (Directive.ne_of_mem .measure e (List.mem_append_left _ he))) _
    rw [before] at kept
    unfold passBefore at before
    have applied : pass.apply ⟨c.pos, p.frames.size, below.isEmpty⟩ .measure raw = .error (.invalidMeasure x) := by
      have invalid : ¬Pass.validMeasure x = true := fun valid => bad (validMeasure_iff.1 valid)
      simp only [Pass.apply, Pass.number_eq_ok.2 given, bind, Except.bind, if_neg invalid]
    have refused : p.passAt c below frame = (pass, some (.invalidMeasure x)) := by
      unfold passAt
      rw [Directive.order_split .measure, run_append, before]
      simp only [Pass.run, present, applied]
    have inside := seated.slot_lt h.stack
    refine ⟨_, .directive h.toAt h.stage refused, ?_, fun slot other => ?_⟩
    · change ((p.timelines.set c.slot pass.timeline).getD c.slot .start).measure = _
      rw [List.getD_eq_getElem?_getD, List.getElem?_set_self inside]
      exact kept
    · change (p.timelines.set c.slot pass.timeline).getD slot .start = p.timelines.getD slot .start
      rw [List.getD_eq_getElem?_getD, List.getElem?_set_ne other.symm, List.getD_eq_getElem?_getD]
  · have reached := h.reached
    rw [before] at reached
    cases reached

end Turns

/-! ## Performances -/

theorem Reaches.measures {frames : Array Frame} {song : Song} {timeline : Timeline} {p : Performance}
    (positive : Positive timeline.measure) (reached : Reaches (start frames song timeline) p) : Measures p := by
  induction reached with
  | here =>
    intro t ht
    rwa [List.mem_singleton.1 ht]
  | turn run next ih =>
    have seated := (run.standing (Turn.going next)).seated
    exact (seated.effect next).measures seated ih

/-- **Measures.** On a timeline with a positive measure a performance divides by positive numbers only: in all its
states every timeline has a positive measure, between the directives of a frame too. When its directives come to a
measure of another number, the performance ends with that number and the line of the frame; it has given what it had
given before the frame, and the timeline keeps its measure. -/
theorem measures_stay_positive (frames : Array Frame) (song : Song) (timeline : Timeline)
    (positive : Positive timeline.measure) :
    (∀ p, Reaches (start frames song timeline) p → (∀ t ∈ p.timelines, Positive t.measure) ∧
        (∀ x m, Divides p x m → Positive m) ∧
        ∀ c below frame, Directs p c below frame → ∀ ds, ds <+: Directive.order →
          Positive (Pass.run ⟨c.pos, p.frames.size, below.isEmpty⟩ frame ds
            (.start p.song (p.timelineAt c.slot) p.procedures)).1.timeline.measure) ∧
      ∀ n given p c below frame x, Turns n (start frames song timeline) given p → ReachesMeasure p c below frame x →
        (x == 0) = true ∨ x < 0 ∨ x.isInf = true ∨ x.isNaN = true →
        ∃ q, (start frames song timeline).drain = ⟨given, some ⟨frame.line, .invalidMeasure x⟩, q⟩ ∧
          q.turn = .ended ∧ q.pending = [] ∧ (q.timelineAt c.slot).measure = (p.timelineAt c.slot).measure ∧
          ∀ slot, slot ≠ c.slot → q.timelineAt slot = p.timelineAt slot := by
  constructor
  · intro p reached
    have measures := reached.measures positive
    refine ⟨measures, fun x m divides => ?_, fun c below frame directs ds _ => ?_⟩
    · have going : p.turn ≠ .ended := by
        intro ended
        have empty := (turn_ended_iff.1 ended).2
        cases divides with
        | offset directs => exact absurd ended directs.going
        | frameOffset here | length here | tick here =>
          rw [here.stack] at empty
          cases empty
      exact measures.divides (reached.standing going).seated divides
    · exact run_measure _ frame ds (measures.at_slot (reached.standing directs.going).seated directs.stack)
  · intro n given p c below frame x run reaches bad
    have seated := (Seated.start frames song timeline).turns run
    obtain ⟨q, failed, own, others⟩ := reaches.refused (Decimal.not_positive_iff.2 bad) seated
    have stopped := failed.stopped
    exact ⟨q, drain_of_failed run (turns_lt_bound run) failed.turn, stopped, (turn_ended_iff.1 stopped).1, own, others⟩

/-- a procedure that sets a measure and is layered, and a frame whose measure is not a number -/
def unmeasured : Array Frame :=
  #[⟨1, ⟨[("proc", "p"), ("measure", "4")]⟩, [], []⟩, ⟨2, ⟨[("proc_add", "p")]⟩, [], []⟩,
    ⟨3, ⟨[("measure", "nan")]⟩, [⟨0, 0, .red, none, .all⟩], []⟩]

/-- both timelines are measured while the procedure is performed, and the last frame gives nothing -/
theorem unmeasured_stays_positive :
    Positive Timeline.start.measure ∧
      (∃ p, Reaches (start unmeasured .blank .start) p ∧ p.timelines.length = 2 ∧ ∀ t ∈ p.timelines, Positive t.measure) ∧
      ∃ x q, x.isNaN = true ∧ (start unmeasured .blank .start).drain = ⟨[], some ⟨3, .invalidMeasure x⟩, q⟩ := by
  have one : Positive Timeline.start.measure := by
    unfold Positive
    decide +kernel
  obtain ⟨measures, refused⟩ := measures_stay_positive unmeasured .blank .start one
  have layered : Turns 4 (start unmeasured .blank .start) [] _ :=
    .moved rfl (.moved rfl (.moved rfl (.moved rfl (.none _))))
  refine ⟨one, ⟨_, layered.reaches, rfl, (measures _ layered.reaches).1⟩, ?_⟩
  have before : Turns 10 (start unmeasured .blank .start) [] _ :=
    .moved rfl (.moved rfl (.moved rfl (.moved rfl (.moved rfl (.moved rfl (.moved rfl (.moved rfl (.moved rfl
      (.moved rfl (.none _))))))))))
  obtain ⟨x, given, nan⟩ : ∃ x, Decimal.readFloat "nan".toList = some x ∧ x.isNaN = true := ⟨_, rfl, by decide +kernel⟩
  obtain ⟨q, ends, -⟩ := refused 10 [] _ _ [] _ x before ⟨⟨⟨rfl, rfl, Nat.lt_succ_self 2, rfl⟩, rfl⟩, rfl, given⟩
    (.inr (.inr (.inr nan)))
  exact ⟨x, q, nan, ends⟩

end RhythmChart.Performance
