/-
What one directive does, and what a pass makes of it.

`Applies` has a constructor for each thing that a directive can do to a pass when it succeeds (`applies`). So what a
directive leaves alone is read off its constructors, and a run of directives keeps whatever each of them keeps
(`run_preserves`, `run_keeps`). A directive stands once in the order; when nothing else touches a view of the pass, the
pass shows there what that one directive made (`run_once`). From this follow the tempos and the silence that a frame
leaves (`run_tempo`, `run_leadIn`), and the time that a frame sets (`run_setTime`).
-/
import Mathlib.Tactic
import RhythmChart.Proofs.Effects
import RhythmChart.Proofs.Performance.Passes

namespace RhythmChart

namespace Directive

theorem mem_order (d : Directive) : d ∈ order := by cases d <;> decide

/-- the directives that a frame applies before this one -/
def before (d : Directive) : List Directive := order.takeWhile (· ≠ d)

/-- the directives that a frame applies after this one -/
def after (d : Directive) : List Directive := (order.dropWhile (· ≠ d)).tail

theorem order_split (d : Directive) : order = d.before ++ d :: d.after := by cases d <;> rfl

/-- a directive is applied once -/
theorem ne_of_mem (d : Directive) : ∀ e ∈ d.before ++ d.after, e ≠ d := by cases d <;> decide

end Directive

/-- the number that a frame gives for a directive, if it gives one -/
def Frame.number? (f : Frame) (d : Directive) : Option Float :=
  (f.directive? d.key).bind fun raw => Decimal.readFloat raw.toList

namespace Performance

theorem Pass.number_eq_ok {d : Directive} {raw : String} {x : Float} :
    Pass.number d raw = .ok x ↔ Decimal.readFloat raw.toList = some x := by
  unfold Pass.number
  cases Decimal.readFloat raw.toList <;> simp

/-! ## One directive -/

/-- what a directive that succeeds makes of a pass -/
inductive Applies (site : Site) (p : Pass) : Directive → String → Pass → Prop where
  /-- the time is counted from the silence before the audio -/
  | setTime {raw : String} {beats : Float} (given : Decimal.readFloat raw.toList = some beats) :
      Applies site p .setTime raw { p with timeline := { p.timeline with time := p.song.leadIn + beats } }
  /-- the tempo of the song and of the timeline -/
  | tempo {raw : String} {tempo : Float} (given : Decimal.readFloat raw.toList = some tempo) :
      Applies site p .tempo raw
        { p with song := { p.song with tempo := some tempo }, timeline := p.timeline.setTempo tempo }
  /-- more silence, which needs a tempo -/
  | leadIn {raw : String} {seconds tempo : Float} (given : Decimal.readFloat raw.toList = some seconds)
      (set : p.song.tempo = some tempo) :
      Applies site p .leadIn raw { p with
        song := { p.song with leadIn := p.song.leadIn + seconds }
        timeline := { p.timeline with time := p.timeline.time + Song.beatsIn tempo seconds } }
  | audioFile {raw : String} : Applies site p .audioFile raw { p with song := { p.song with audioFile := some raw } }
  | title {raw : String} : Applies site p .title raw { p with song := { p.song with title := some raw } }
  | subtitle {raw : String} : Applies site p .subtitle raw { p with song := { p.song with subtitle := some raw } }
  | author {raw : String} : Applies site p .author raw { p with song := { p.song with author := some raw } }
  | audioOffset {raw : String} {offset : Float} (given : Decimal.readFloat raw.toList = some offset) :
      Applies site p .audioOffset raw { p with song := { p.song with offset } }
  /-- a measure, which must be valid -/
  | measure {raw : String} {measure : Float} (given : Decimal.readFloat raw.toList = some measure)
      (valid : Pass.validMeasure measure = true) :
      Applies site p .measure raw { p with timeline := { p.timeline with measure } }
  | offset {raw : String} {frames : Float} (given : Decimal.readFloat raw.toList = some frames) :
      Applies site p .offset raw { p with timeline := p.timeline.shift frames }
  | frameOffset {raw : String} {frameOffset : Float} (given : Decimal.readFloat raw.toList = some frameOffset) :
      Applies site p .frameOffset raw { p with frameOffset }
  /-- a declaration at the top level -/
  | defined {raw : String} {declaration : Declaration} {span : Span} {procedures : Procedures}
      (topLevel : site.topLevel = true) (read : Declaration.read raw = .ok declaration)
      (defined : p.procedures.define declaration site.pos site.count = .ok (span, procedures)) :
      Applies site p .define raw { p with procedures }
  /-- a declaration inside a procedure -/
  | ignored {raw : String} (inner : site.topLevel = false) : Applies site p .define raw p
  | layer {raw : String} : Applies site p .layer raw { p with layered := some raw }
  | splice {raw : String} : Applies site p .splice raw { p with spliced := some raw }

variable {site : Site} {frame : Frame} {p q : Pass} {d : Directive} {raw : String}

/-- **One directive.** -/
theorem applies (h : p.apply site d raw = .ok q) : Applies site p d raw q := by
  cases d with
  | audioFile => cases h; exact .audioFile
  | title => cases h; exact .title
  | subtitle => cases h; exact .subtitle
  | author => cases h; exact .author
  | layer => cases h; exact .layer
  | splice => cases h; exact .splice
  | setTime =>
    obtain ⟨x, number, hq⟩ := bind_eq_ok_iff.1 h
    cases hq
    exact .setTime (Pass.number_eq_ok.1 number)
  | tempo =>
    obtain ⟨x, number, hq⟩ := bind_eq_ok_iff.1 h
    cases hq
    exact .tempo (Pass.number_eq_ok.1 number)
  | audioOffset =>
    obtain ⟨x, number, hq⟩ := bind_eq_ok_iff.1 h
    cases hq
    exact .audioOffset (Pass.number_eq_ok.1 number)
  | offset =>
    obtain ⟨x, number, hq⟩ := bind_eq_ok_iff.1 h
    cases hq
    exact .offset (Pass.number_eq_ok.1 number)
  | frameOffset =>
    obtain ⟨x, number, hq⟩ := bind_eq_ok_iff.1 h
    cases hq
    exact .frameOffset (Pass.number_eq_ok.1 number)
  | leadIn =>
    obtain ⟨x, number, hq⟩ := bind_eq_ok_iff.1 h
    split at hq
    · cases hq
    · rename_i tempo set
      cases hq
      exact .leadIn (Pass.number_eq_ok.1 number) set
  | measure =>
    obtain ⟨x, number, hq⟩ := bind_eq_ok_iff.1 h
    split at hq
    · rename_i valid
      cases hq
      exact .measure (Pass.number_eq_ok.1 number) valid
    · cases hq
  | define =>
    simp only [Pass.apply] at h
    split at h
    · rename_i topLevel
      obtain ⟨declaration, read, hq⟩ := bind_eq_ok_iff.1 h
      obtain ⟨⟨span, procedures⟩, defined, hq⟩ := bind_eq_ok_iff.1 hq
      cases hq
      exact .defined topLevel read defined
    · rename_i inner
      cases h
      exact .ignored (Bool.eq_false_iff.2 inner)

namespace Applies

/-- only a tempo sets tempos -/
theorem tempo_kept (h : Applies site p d raw q) (hd : d ≠ .tempo) :
    (q.song.tempo, q.timeline.firstTempo, q.timeline.tempo) = (p.song.tempo, p.timeline.firstTempo, p.timeline.tempo) := by
  cases h with
  | tempo => exact absurd rfl hd
  | _ => rfl

theorem leadIn_kept (h : Applies site p d raw q) (hd : d ≠ .leadIn) : q.song.leadIn = p.song.leadIn := by
  cases h with
  | leadIn => exact absurd rfl hd
  | _ => rfl

theorem measure_kept (h : Applies site p d raw q) (hd : d ≠ .measure) : q.timeline.measure = p.timeline.measure := by
  cases h with
  | measure => exact absurd rfl hd
  | _ => rfl

theorem time_kept (h : Applies site p d raw q) (hd : d ∉ [.setTime, .leadIn, .offset]) :
    q.timeline.time = p.timeline.time := by
  cases h with
  | setTime | leadIn | offset => exact absurd (by decide) hd
  | _ => rfl

theorem frameOffset_kept (h : Applies site p d raw q) (hd : d ≠ .frameOffset) : q.frameOffset = p.frameOffset := by
  cases h with
  | frameOffset => exact absurd rfl hd
  | _ => rfl

end Applies

/-! ## Runs of directives -/

/-- a run keeps what each of its directives keeps, whether it fails or not -/
theorem run_preserves (holds : Pass → Prop) {ds : List Directive}
    (keeps : ∀ d ∈ ds, ∀ raw p q, frame.directive? d.key = some raw → Applies site p d raw q → holds p → holds q)
    (h : holds p) : holds (Pass.run site frame ds p).1 := by
  induction ds generalizing p with
  | nil => exact h
  | cons d ds ih =>
    have rest := fun {p} => ih (p := p) fun d' hd' => keeps d' (List.mem_cons_of_mem d hd')
    cases present : frame.directive? d.key with
    | none =>
      simp only [Pass.run, present]
      exact rest h
    | some raw =>
      cases applied : p.apply site d raw with
      | error fault =>
        simp only [Pass.run, present, applied]
        exact h
      | ok q =>
        simp only [Pass.run, present, applied]
        exact rest (keeps d List.mem_cons_self raw p q present (applies applied) h)

theorem run_keeps {α : Type} (view : Pass → α) {ds : List Directive}
    (keeps : ∀ d ∈ ds, ∀ raw p q, frame.directive? d.key = some raw → Applies site p d raw q → view q = view p)
    (p : Pass) : view (Pass.run site frame ds p).1 = view p :=
  run_preserves (fun q => view q = view p)
    (fun d hd raw q r present applied kept => (keeps d hd raw q r present applied).trans kept) rfl

/-- a directive in a run that went through -/
theorem run_through (ds : List Directive) {es : List Directive} (present : frame.directive? d.key = some raw)
    (passed : Pass.run site frame (ds ++ d :: es) p = (q, none)) :
    ∃ r s, Pass.run site frame ds p = (r, none) ∧ Applies site r d raw s ∧ Pass.run site frame es s = (q, none) := by
  rw [run_append] at passed
  rcases before : Pass.run site frame ds p with ⟨r, fault | fault⟩
  · simp only [before, Pass.run, present] at passed
    cases applied : r.apply site d raw with
    | error fault => simp [applied] at passed
    | ok s => exact ⟨r, s, rfl, applies applied, by simpa only [applied] using passed⟩
  · simp [before] at passed

/-- a view that only one directive touches -/
theorem run_once {α : Type} {view : Pass → α} (d : Directive)
    (others : ∀ e, e ≠ d → ∀ raw p q, Applies site p e raw q → view q = view p)
    (passed : Pass.run site frame Directive.order p = (q, none)) :
    (frame.directive? d.key = none ∧ view q = view p) ∨
      ∃ raw r s, frame.directive? d.key = some raw ∧ view r = view p ∧ Applies site r d raw s ∧ view q = view s := by
  cases present : frame.directive? d.key with
  | none =>
    refine .inl ⟨rfl, ?_⟩
    have kept : view (Pass.run site frame Directive.order p).1 = view p := run_keeps view ?_ p
    · rwa [passed] at kept
    · intro e _ raw p q here applied
      refine others e ?_ raw p q applied
      rintro rfl
      rw [present] at here
      cases here
  | some raw =>
    rw [d.order_split] at passed
    obtain ⟨r, s, before, applied, after⟩ := run_through d.before present passed
    have kept : ∀ e ∈ d.before ++ d.after, ∀ raw p q, frame.directive? e.key = some raw → Applies site p e raw q →
        view q = view p := fun e he raw p q _ applied => others e (d.ne_of_mem e he) raw p q applied
    have keptBefore := run_keeps view (fun e he => kept e (List.mem_append_left _ he)) p
    have keptAfter := run_keeps view (fun e he => kept e (List.mem_append_right _ he)) s
    rw [before] at keptBefore
    rw [after] at keptAfter
    exact .inr ⟨raw, r, s, rfl, keptBefore, applied, keptAfter⟩

/-! ## Whole passes -/

theorem number?_of_absent (absent : frame.directive? d.key = none) : frame.number? d = none := by
  rw [Frame.number?, absent]
  rfl

theorem number?_of_given {x : Float} (present : frame.directive? d.key = some raw)
    (given : Decimal.readFloat raw.toList = some x) : frame.number? d = some x := by
  rw [Frame.number?, present]
  exact given

/-- a pass that goes through reads the tempo of its frame, and the first one stays -/
theorem run_tempo (passed : Pass.run site frame Directive.order p = (q, none)) :
    (frame.number? .tempo).isSome = (frame.directive? Directive.tempo.key).isSome ∧
      q.song.tempo = (frame.number? .tempo).or p.song.tempo ∧
      q.timeline.tempo = (frame.number? .tempo).or p.timeline.tempo ∧
      q.timeline.firstTempo = p.timeline.firstTempo.or (frame.number? .tempo) := by
  rcases run_once .tempo (fun _ he _ _ _ applied => applied.tempo_kept he) passed with
    ⟨absent, kept⟩ | ⟨raw, r, s, present, before, applied, after⟩
  · simp only [Prod.mk.injEq] at kept
    simp [number?_of_absent absent, absent, kept]
  · cases applied with
    | tempo given =>
      simp only [Prod.mk.injEq, Timeline.setTempo] at before after
      rw [number?_of_given present given, present, after.1, after.2.1, after.2.2, before.2.1]
      cases p.timeline.firstTempo <;> exact ⟨rfl, rfl, rfl, rfl⟩

/-- a pass that goes through adds the silence of its frame -/
theorem run_leadIn (passed : Pass.run site frame Directive.order p = (q, none)) :
    q.song.leadIn = (frame.number? .leadIn).toList.foldl (· + ·) p.song.leadIn := by
  rcases run_once .leadIn (fun _ he _ _ _ applied => applied.leadIn_kept he) passed with
    ⟨absent, kept⟩ | ⟨raw, r, s, present, before, applied, after⟩
  · rw [kept, number?_of_absent absent]
    rfl
  · cases applied with
    | leadIn given =>
      rw [after, number?_of_given present given]
      simp [before]

/-- **Setting the time.** A frame that sets the time, and does nothing else to its time and its song's, leaves the time
it gives counted from the silence before the audio. -/
theorem run_setTime {beats : Float} (given : frame.number? .setTime = some beats)
    (plain : ∀ d ∈ [.leadIn, .offset], frame.directive? (Directive.key d) = none)
    (passed : Pass.run site frame Directive.order p = (q, none)) :
    q.timeline.time = p.song.leadIn + beats := by
  obtain ⟨raw, present, read⟩ := Option.bind_eq_some_iff.1 given
  obtain ⟨r, s, before, applied, after⟩ := run_through [] present passed
  cases before
  have kept : (Pass.run site frame Directive.order.tail s).1.timeline.time = s.timeline.time :=
    run_keeps (fun p => p.timeline.time) ?_ s
  · change Pass.run site frame Directive.order.tail s = (q, none) at after
    rw [after] at kept
    cases applied with
    | setTime given' =>
      rw [read] at given'
      cases given'
      exact kept
  · intro e he raw' p' q' here applied'
    refine applied'.time_kept fun touches => ?_
    rcases List.mem_cons.1 touches with rfl | touches
    · revert he
      decide
    · rw [plain e touches] at here
      cases here

/-- a pass that goes through leaves the measure of its frame, or the one before -/
theorem run_measure_given (passed : Pass.run site frame Directive.order p = (q, none)) :
    q.timeline.measure = (frame.number? .measure).getD p.timeline.measure := by
  rcases run_once .measure (fun _ he _ _ _ applied => applied.measure_kept he) passed with
    ⟨absent, kept⟩ | ⟨raw, r, s, present, -, applied, after⟩
  · rw [kept, number?_of_absent absent]
    rfl
  · cases applied with
    | measure given =>
      rw [after, number?_of_given present given]
      rfl

/-- without a frame offset nothing is late -/
theorem run_frameOffset (absent : frame.directive? Directive.frameOffset.key = none)
    (passed : Pass.run site frame Directive.order p = (q, none)) : q.frameOffset = p.frameOffset := by
  rcases run_once .frameOffset (fun _ he _ _ _ applied => applied.frameOffset_kept he) passed with
    ⟨-, kept⟩ | ⟨raw, r, s, present, -⟩
  · exact kept
  · rw [absent] at present
    cases present

end Performance

end RhythmChart
