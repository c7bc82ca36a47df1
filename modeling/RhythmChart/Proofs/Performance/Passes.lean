/-
What one directive pass does, as a whole.

The directives of a frame fall into three groups, in this order: settings of the clock and the song, the declaration
of a procedure, and the two calls. The settings neither read nor change the registry, the calls or the place of the
frame (`apply_setting`); so a pass is its settings, then its declaration, then the names to call as they stand on the
line (`run_order`). Inside a procedure the declaration does nothing (`declare_inner`), and otherwise it adds at most
one name (`declare_cases`).
-/
import Mathlib.Tactic
import RhythmChart.Performance

namespace RhythmChart.Performance

/-! ## Settings -/

/-- the directives that set the clock and the song, in their order -/
def settings : List Directive :=
  [.setTime, .tempo, .leadIn, .audioFile, .title, .subtitle, .author, .audioOffset, .measure, .offset, .frameOffset]

theorem order_eq : Directive.order = settings ++ [.define, .layer, .splice] := rfl

/-- a pass with another registry and other calls -/
def Pass.carrying (p : Pass) (ps : Procedures) (layered spliced : Option String) : Pass :=
  { p with procedures := ps, layered, spliced }

/-- a setting does the same wherever the frame stands and whatever is defined or called -/
theorem apply_setting (site site' : Site) {p : Pass} {ps : Procedures} {layered spliced : Option String}
    {d : Directive} {raw : String} (hd : d ∈ settings) :
    (p.carrying ps layered spliced).apply site d raw = (p.apply site' d raw).map (·.carrying ps layered spliced) := by
  cases d with
  | define | layer | splice => simp [settings] at hd
  | audioFile | title | subtitle | author => rfl
  | leadIn =>
    simp only [Pass.apply]
    cases Pass.number .leadIn raw with
    | error f => rfl
    | ok x =>
      cases h : p.song.tempo <;>
        simp [Pass.carrying, bind, Except.bind, h, Except.map, pure, Except.pure]
  | measure =>
    simp only [Pass.apply]
    cases Pass.number .measure raw with
    | error f => rfl
    | ok x =>
      cases h : Pass.validMeasure x <;>
        simp [Pass.carrying, bind, Except.bind, h, Except.map, pure, Except.pure]
  | setTime => simp only [Pass.apply]; cases Pass.number .setTime raw <;> rfl
  | tempo => simp only [Pass.apply]; cases Pass.number .tempo raw <;> rfl
  | audioOffset => simp only [Pass.apply]; cases Pass.number .audioOffset raw <;> rfl
  | offset => simp only [Pass.apply]; cases Pass.number .offset raw <;> rfl
  | frameOffset => simp only [Pass.apply]; cases Pass.number .frameOffset raw <;> rfl

theorem run_settings (site site' : Site) {frame : Frame} {ps : Procedures} {layered spliced : Option String}
    {ds : List Directive} (hds : ∀ d ∈ ds, d ∈ settings) (p : Pass) :
    Pass.run site frame ds (p.carrying ps layered spliced) =
      ((Pass.run site' frame ds p).1.carrying ps layered spliced, (Pass.run site' frame ds p).2) := by
  induction ds generalizing p with
  | nil => rfl
  | cons d ds ih =>
    have htail : ∀ d ∈ ds, d ∈ settings := fun d' hd' => hds d' (List.mem_cons_of_mem d hd')
    simp only [Pass.run]
    cases frame.directive? d.key with
    | none => exact ih htail p
    | some raw =>
      simp only [apply_setting site site' (hds d List.mem_cons_self)]
      cases p.apply site' d raw with
      | error fault => rfl
      | ok q => exact ih htail q

/-- a run reads no directives but its own -/
theorem run_congr {frame frame' : Frame} {ds : List Directive}
    (same : ∀ d ∈ ds, frame'.directive? d.key = frame.directive? d.key) (site : Site) (p : Pass) :
    Pass.run site frame' ds p = Pass.run site frame ds p := by
  induction ds generalizing p with
  | nil => rfl
  | cons d ds ih =>
    have rest := ih fun d' hd' => same d' (List.mem_cons_of_mem d hd')
    simp only [Pass.run, same d List.mem_cons_self, rest]

theorem run_append (site : Site) (frame : Frame) (ds es : List Directive) (p : Pass) :
    Pass.run site frame (ds ++ es) p =
      match Pass.run site frame ds p with
      | (q, none) => Pass.run site frame es q
      | (q, some fault) => (q, some fault) := by
  induction ds generalizing p with
  | nil => rfl
  | cons d ds ih =>
    simp only [List.cons_append, Pass.run]
    cases frame.directive? d.key with
    | none => exact ih p
    | some raw =>
      simp only
      cases p.apply site d raw with
      | error fault => rfl
      | ok q => exact ih q

/-! ## A whole pass -/

/-- what the settings of a frame do to the song and the timeline -/
def settle (frame : Frame) (song : Song) (timeline : Timeline) : Pass × Option Fault :=
  Pass.run ⟨0, 0, false⟩ frame settings (.start song timeline .empty)

/-- the registry after the declaration of a frame, which counts at the top level only -/
def declare (site : Site) (ps : Procedures) (frame : Frame) : Except Fault Procedures :=
  match frame.directive? Directive.define.key with
  | none => .ok ps
  | some raw =>
    if site.topLevel then
      match Declaration.read raw with
      | .error fault => .error fault
      | .ok declaration => (ps.define declaration site.pos site.count).map (·.2)
    else .ok ps

/-- **A directive pass.** The settings, then the declaration, then the calls; the first fault ends it. -/
theorem run_order (site : Site) (frame : Frame) (song : Song) (timeline : Timeline) (ps : Procedures) :
    Pass.run site frame Directive.order (.start song timeline ps) =
      match settle frame song timeline with
      | (q, some fault) => (q.carrying ps none none, some fault)
      | (q, none) =>
        match declare site ps frame with
        | .error fault => (q.carrying ps none none, some fault)
        | .ok ps =>
          (q.carrying ps (frame.directive? Directive.layer.key) (frame.directive? Directive.splice.key), none) := by
  have hstart : Pass.start song timeline ps = (Pass.start song timeline .empty).carrying ps none none := rfl
  rw [order_eq, run_append, hstart, run_settings site ⟨0, 0, false⟩ (fun _ h => h)]
  change (match ((settle frame song timeline).1.carrying ps none none, (settle frame song timeline).2) with
    | (q, none) => Pass.run site frame [.define, .layer, .splice] q
    | (q, some fault) => (q, some fault)) = _
  rcases settle frame song timeline with ⟨q, _ | fault⟩
  · simp only [Pass.run, declare]
    cases frame.directive? Directive.define.key with
    | none =>
      cases frame.directive? Directive.layer.key <;> cases frame.directive? Directive.splice.key <;> rfl
    | some raw =>
      simp only [Pass.apply]
      cases site.topLevel with
      | false =>
        cases frame.directive? Directive.layer.key <;> cases frame.directive? Directive.splice.key <;> rfl
      | true =>
        simp only [if_true]
        cases Declaration.read raw with
        | error fault => rfl
        | ok declaration =>
          simp only [bind, Except.bind, Pass.carrying]
          cases ps.define declaration site.pos site.count with
          | error fault => rfl
          | ok defined =>
            cases frame.directive? Directive.layer.key <;> cases frame.directive? Directive.splice.key <;> rfl
  · rfl

/-- what is known of a pass that went through -/
theorem run_order_passed {site : Site} {frame : Frame} {song : Song} {timeline : Timeline} {ps : Procedures}
    {pass : Pass} (h : Pass.run site frame Directive.order (.start song timeline ps) = (pass, none)) :
    (settle frame song timeline).2 = none ∧ declare site ps frame = .ok pass.procedures ∧
      pass.layered = frame.directive? Directive.layer.key ∧ pass.spliced = frame.directive? Directive.splice.key ∧
      pass = (settle frame song timeline).1.carrying pass.procedures pass.layered pass.spliced := by
  rw [run_order] at h
  rcases hs : settle frame song timeline with ⟨q, _ | fault⟩
  · rw [hs] at h
    cases hd : declare site ps frame with
    | error fault => simp [hd] at h
    | ok ps' =>
      simp only [hd, Prod.mk.injEq, and_true] at h
      subst h
      exact ⟨rfl, rfl, rfl, rfl, rfl⟩
  · simp [hs] at h

/-- what is known of a pass that failed -/
theorem run_order_refused {site : Site} {frame : Frame} {song : Song} {timeline : Timeline} {ps : Procedures}
    {pass : Pass} {fault : Fault}
    (h : Pass.run site frame Directive.order (.start song timeline ps) = (pass, some fault)) :
    pass = (settle frame song timeline).1.carrying ps none none ∧
      ((settle frame song timeline).2 = some fault ∨
        (settle frame song timeline).2 = none ∧ declare site ps frame = .error fault) := by
  rw [run_order] at h
  rcases hs : settle frame song timeline with ⟨q, _ | fault'⟩
  · rw [hs] at h
    cases hd : declare site ps frame with
    | error fault' =>
      simp only [hd, Prod.mk.injEq, Option.some.injEq] at h
      obtain ⟨rfl, rfl⟩ := h
      exact ⟨rfl, .inr ⟨rfl, rfl⟩⟩
    | ok ps' => simp [hd] at h
  · simp only [hs, Prod.mk.injEq, Option.some.injEq] at h
    obtain ⟨rfl, rfl⟩ := h
    exact ⟨rfl, .inl rfl⟩

/-! ## Declarations -/

/-- whether a frame declares a procedure -/
def declares (frame : Frame) : Bool := (frame.directive? Directive.define.key).isSome

@[simp] theorem declare_inner (pos count : Nat) (ps : Procedures) (frame : Frame) :
    declare ⟨pos, count, false⟩ ps frame = .ok ps := by
  unfold declare
  split <;> rfl

/-- inside a procedure a pass leaves the registry as it is -/
theorem run_order_inner {pos count : Nat} {frame : Frame} {song : Song} {timeline : Timeline} {ps : Procedures}
    {pass : Pass} (h : Pass.run ⟨pos, count, false⟩ frame Directive.order (.start song timeline ps) = (pass, none)) :
    pass.procedures = ps := by
  have hd := (run_order_passed h).2.1
  rw [declare_inner] at hd
  exact (Except.ok.inj hd).symm

/-- a declaration that succeeds adds one new name, with the frame's body, or nothing -/
theorem declare_cases {site : Site} {ps ps' : Procedures} {frame : Frame} (h : declare site ps frame = .ok ps') :
    ps' = ps ∨ ∃ declaration : Declaration, declares frame = true ∧ ps.get? declaration.name = none ∧
      ps' = ⟨(declaration.name, declaration.body site.pos site.count) :: ps.bodies⟩ := by
  unfold declare at h
  split at h
  · cases h; exact .inl rfl
  · rename_i raw hraw
    split at h
    · split at h
      · cases h
      · rename_i declaration _
        unfold Procedures.define at h
        split at h
        · cases h
        · rename_i hnew
          cases h
          exact .inr ⟨declaration, by simp [declares, hraw], by simpa using hnew, rfl⟩
    · cases h; exact .inl rfl

theorem declare_size {site : Site} {ps ps' : Procedures} {frame : Frame} (h : declare site ps frame = .ok ps') :
    ps'.size ≤ ps.size + (if declares frame then 1 else 0) := by
  rcases declare_cases h with rfl | ⟨declaration, hd, _, rfl⟩
  · exact Nat.le_add_right _ _
  · simp [Procedures.size, hd]

end RhythmChart.Performance
