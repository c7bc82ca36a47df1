/-
A performance fails exactly when one flat pass over its frames does.

The flat pass (`rehearse`) goes through the frames once and expands nothing. It keeps whether a tempo is set and which
procedures are recorded; at a frame it checks the directives in their order: numbers are read, a measure is valid, a
lead-in finds a tempo, a declared name is new, and a called name is recorded with a body that does not hold the
caller. It answers the first fault with the line of its frame.

What the flat pass found in order at the top level is in order whenever the frame is replayed: its numbers are the
same, the tempo stays set once it is (`directives_again`), and its calls are behind it (`Descends`). So the only frame
that fails inside a procedure is the calling frame of the top level met again, and it fails by calling itself
(`Fails.inner`). The flat pass refuses the same call when it comes to the frame.

Main result: `drain_error_eq_rehearse`.
-/
import Mathlib.Tactic
import RhythmChart.Proofs.Effects
import RhythmChart.Proofs.Performance.Refinement
import RhythmChart.Proofs.Performance.Descent

namespace RhythmChart.Performance

/-! ## The flat pass -/

/-- what the flat pass knows when it comes to a frame -/
structure Rehearsal where
  /-- the frame it is at -/
  pos : Nat
  /-- whether the song started with a tempo or a frame has set one -/
  tempoSet : Bool
  procedures : Procedures

namespace Rehearsal

/-- record a new procedure of the frame at `r.pos` out of `count` -/
def record (count : Nat) (r : Rehearsal) (d : Declaration) : Except Fault Rehearsal :=
  if (r.procedures.get? d.name).isSome then .error (.duplicateProcedure d.name)
  else .ok { r with procedures := ⟨(d.name, ⟨r.pos, min (r.pos + d.length) count⟩) :: r.procedures.bodies⟩ }

/-- a called name is recorded and its body does not hold the caller -/
def call (r : Rehearsal) (name : String) : Except Fault Rehearsal :=
  match r.procedures.get? name with
  | none => .error (.undefinedProcedure name)
  | some body => if body.start ≤ r.pos ∧ r.pos < body.stop then .error (.recursiveProcedure name) else .ok r

/-- one directive of the frame at `r.pos` out of `count` -/
def directive (count : Nat) (r : Rehearsal) (d : Directive) (raw : String) : Except Fault Rehearsal :=
  match d with
  | .setTime | .audioOffset | .offset | .frameOffset => do
    let _ ← Pass.number d raw
    return r
  | .tempo => do
    let _ ← Pass.number d raw
    return { r with tempoSet := true }
  | .leadIn => do
    let _ ← Pass.number d raw
    if r.tempoSet then return r else .error .tempoUnset
  | .measure => do
    let measure ← Pass.number d raw
    if Pass.validMeasure measure then return r else .error (.invalidMeasure measure)
  | .audioFile | .title | .subtitle | .author => .ok r
  | .define => do
    let declaration ← Declaration.read raw
    r.record count declaration
  | .layer | .splice => r.call raw

/-- the given directives of a frame in turn -/
def directives (count : Nat) (frame : Frame) (ds : List Directive) (r : Rehearsal) : Except Fault Rehearsal :=
  ds.foldlM (fun r d => match frame.directive? d.key with
    | none => .ok r
    | some raw => r.directive count d raw) r

/-- a whole frame -/
def frame (count : Nat) (r : Rehearsal) (frame : Frame) : Except Error Rehearsal :=
  match r.directives count frame Directive.order with
  | .ok r => .ok { r with pos := r.pos + 1 }
  | .error fault => .error ⟨frame.line, fault⟩

end Rehearsal

/-- the flat pass over the first `n` frames -/
def rehearseFirst (frames : Array Frame) (song : Song) (n : Nat) : Except Error Rehearsal :=
  (frames.toList.take n).foldlM (Rehearsal.frame frames.size) ⟨0, song.tempo.isSome, .empty⟩

/-- the flat pass over all frames -/
def rehearse (frames : Array Frame) (song : Song) : Except Error Rehearsal :=
  frames.toList.foldlM (Rehearsal.frame frames.size) ⟨0, song.tempo.isSome, .empty⟩

/-- the error of the flat pass, if it fails -/
def rehearsalError (frames : Array Frame) (song : Song) : Option Error :=
  match rehearse frames song with
  | .ok _ => none
  | .error e => some e

/-! ## Frame by frame -/

theorem rehearseFirst_succ {frames : Array Frame} {song : Song} {n : Nat} {frame : Frame}
    (here : frames[n]? = some frame) :
    rehearseFirst frames song (n + 1) = (rehearseFirst frames song n).bind (·.frame frames.size frame) := by
  have hlist : frames.toList[n]? = some frame := by rwa [Array.getElem?_toList]
  unfold rehearseFirst
  rw [List.take_add_one, hlist, Option.toList_some, List.foldlM_append]
  change Except.bind _ _ = _
  congr 1
  funext r
  rw [List.foldlM_cons]
  change Except.bind _ _ = _
  cases r.frame frames.size frame <;> rfl

theorem rehearseFirst_all {frames : Array Frame} {song : Song} {n : Nat} (h : frames.size ≤ n) :
    rehearseFirst frames song n = rehearse frames song := by
  unfold rehearseFirst rehearse
  rw [List.take_of_length_le (by simpa using h)]

/-- the first fault ends the flat pass -/
theorem rehearse_of_error {frames : Array Frame} {song : Song} {n : Nat} {e : Error}
    (h : rehearseFirst frames song n = .error e) : rehearse frames song = .error e := by
  unfold rehearseFirst at h
  unfold rehearse
  rw [← List.take_append_drop n frames.toList, List.foldlM_append, h]
  rfl

namespace Rehearsal

variable {count : Nat} {frame : Frame} {r r' s : Rehearsal}

theorem directives_cons (d : Directive) (ds : List Directive) (r : Rehearsal) :
    r.directives count frame (d :: ds) =
      match frame.directive? d.key with
      | none => r.directives count frame ds
      | some raw => (r.directive count d raw).bind fun r => r.directives count frame ds := by
  unfold directives
  rw [List.foldlM_cons]
  cases frame.directive? d.key <;> rfl

theorem directives_append (ds es : List Directive) (r : Rehearsal) :
    r.directives count frame (ds ++ es) =
      (r.directives count frame ds).bind fun r => r.directives count frame es := by
  unfold directives
  rw [List.foldlM_append]
  rfl

/-! ## Settings -/

/-- a setting of the flat pass is the setting of a performance without its numbers -/
theorem directive_setting (site : Site) {p : Pass} {d : Directive} {raw : String} (hd : d ∈ settings)
    (htempo : r.tempoSet = p.song.tempo.isSome) :
    r.directive count d raw = (p.apply site d raw).map fun q => { r with tempoSet := q.song.tempo.isSome } := by
  cases d with
  | define | layer | splice => simp [settings] at hd
  | audioFile | title | subtitle | author => simp [directive, Pass.apply, Except.map, ← htempo]
  | setTime | audioOffset | offset | frameOffset | tempo =>
    simp only [directive, Pass.apply]
    cases Pass.number _ raw <;> simp [bind, Except.bind, pure, Except.pure, Except.map, ← htempo]
  | leadIn =>
    simp only [directive, Pass.apply, htempo]
    cases Pass.number .leadIn raw with
    | error fault => rfl
    | ok x =>
      cases h : p.song.tempo with
      | none => rfl
      | some tempo =>
        have hset : r.tempoSet = true := by rw [htempo, h]; rfl
        change Except.ok r = .ok { r with tempoSet := true }
        rw [← hset]
  | measure =>
    simp only [directive, Pass.apply]
    cases Pass.number .measure raw with
    | error fault => rfl
    | ok x =>
      cases h : Pass.validMeasure x <;> simp [bind, Except.bind, pure, Except.pure, Except.map, h, ← htempo]

theorem directives_settings (site : Site) {ds : List Directive} (hds : ∀ d ∈ ds, d ∈ settings) {p : Pass}
    (htempo : r.tempoSet = p.song.tempo.isSome) :
    r.directives count frame ds =
      match Pass.run site frame ds p with
      | (q, none) => .ok { r with tempoSet := q.song.tempo.isSome }
      | (_, some fault) => .error fault := by
  induction ds generalizing r p with
  | nil =>
    change Except.ok r = .ok { r with tempoSet := p.song.tempo.isSome }
    rw [← htempo]
  | cons d ds ih =>
    have htail : ∀ d ∈ ds, d ∈ settings := fun d' hd' => hds d' (List.mem_cons_of_mem d hd')
    rw [directives_cons, Pass.run]
    cases frame.directive? d.key with
    | none => exact ih htail htempo
    | some raw =>
      simp only [directive_setting site (hds d List.mem_cons_self) htempo]
      cases p.apply site d raw with
      | error fault => rfl
      | ok q =>
        change directives count frame ds { r with tempoSet := q.song.tempo.isSome } = _
        rw [ih htail (p := q) rfl]

theorem directives_settle (song : Song) (timeline : Timeline) (htempo : r.tempoSet = song.tempo.isSome) :
    r.directives count frame settings =
      match settle frame song timeline with
      | (q, none) => .ok { r with tempoSet := q.song.tempo.isSome }
      | (_, some fault) => .error fault :=
  directives_settings _ (fun _ h => h) htempo

/-- a setting that went through goes through again, and changes nothing, once the tempo is set that it needed -/
theorem directive_again {d : Directive} {raw : String} (hd : d ∈ settings) (h : r.directive count d raw = .ok r') :
    (r.tempoSet = true → r'.tempoSet = true) ∧
      ∀ s : Rehearsal, (r'.tempoSet = true → s.tempoSet = true) → s.directive count d raw = .ok s := by
  cases d with
  | define | layer | splice => simp [settings] at hd
  | audioFile | title | subtitle | author =>
    cases h
    exact ⟨id, fun _ _ => rfl⟩
  | setTime | audioOffset | offset | frameOffset =>
    obtain ⟨x, hnumber, hr⟩ := bind_eq_ok_iff.1 h
    cases hr
    exact ⟨id, fun s _ => bind_eq_ok_iff.2 ⟨x, hnumber, rfl⟩⟩
  | tempo =>
    obtain ⟨x, hnumber, hr⟩ := bind_eq_ok_iff.1 h
    cases hr
    refine ⟨fun _ => rfl, fun s hs => bind_eq_ok_iff.2 ⟨x, hnumber, ?_⟩⟩
    change Except.ok { s with tempoSet := true } = .ok s
    rw [← hs rfl]
  | leadIn =>
    obtain ⟨x, hnumber, hr⟩ := bind_eq_ok_iff.1 h
    by_cases hset : r.tempoSet = true
    · rw [if_pos hset] at hr
      cases hr
      exact ⟨fun _ => hset, fun s hs => bind_eq_ok_iff.2 ⟨x, hnumber, if_pos (hs hset)⟩⟩
    · rw [if_neg hset] at hr
      cases hr
  | measure =>
    obtain ⟨x, hnumber, hr⟩ := bind_eq_ok_iff.1 h
    by_cases hvalid : Pass.validMeasure x = true
    · rw [if_pos hvalid] at hr
      cases hr
      exact ⟨id, fun s _ => bind_eq_ok_iff.2 ⟨x, hnumber, if_pos hvalid⟩⟩
    · rw [if_neg hvalid] at hr
      cases hr

theorem directives_again {ds : List Directive} (hds : ∀ d ∈ ds, d ∈ settings)
    (h : r.directives count frame ds = .ok r') :
    (r.tempoSet = true → r'.tempoSet = true) ∧
      ∀ s : Rehearsal, (r'.tempoSet = true → s.tempoSet = true) → s.directives count frame ds = .ok s := by
  induction ds generalizing r with
  | nil =>
    cases h
    exact ⟨id, fun _ _ => rfl⟩
  | cons d ds ih =>
    have htail : ∀ d ∈ ds, d ∈ settings := fun d' hd' => hds d' (List.mem_cons_of_mem d hd')
    simp only [directives_cons] at h ⊢
    cases hraw : frame.directive? d.key with
    | none =>
      rw [hraw] at h
      exact ih htail h
    | some raw =>
      simp only [hraw] at h ⊢
      cases hd : r.directive count d raw with
      | error fault => rw [hd] at h; cases h
      | ok r₁ =>
        rw [hd] at h
        obtain ⟨hmono, hagain⟩ := directive_again (hds d List.mem_cons_self) hd
        obtain ⟨hmono', hagain'⟩ := ih htail h
        refine ⟨fun hr => hmono' (hmono hr), fun s hs => ?_⟩
        rw [hagain s fun hr => hs (hmono' hr)]
        exact hagain' s hs

/-! ## Declarations and calls -/

/-- the flat pass records the body that the performance does -/
theorem directives_define (here : r.pos < count) :
    r.directives count frame [.define] =
      (Performance.declare ⟨r.pos, count, true⟩ r.procedures frame).map fun ps => { r with procedures := ps } := by
  rw [directives_cons, Performance.declare]
  cases frame.directive? Directive.define.key with
  | none => rfl
  | some raw =>
    simp only [directive, if_true]
    cases Declaration.read raw with
    | error fault => rfl
    | ok declaration =>
      simp only [bind, Except.bind, record, Procedures.define, declaration.body_of_lt here]
      cases (r.procedures.get? declaration.name).isSome <;> rfl

theorem directives_called {d : Directive} (hd : d = .layer ∨ d = .splice) {name : String}
    (called : frame.directive? d.key = some name) : r.directives count frame [d] = r.call name := by
  rw [directives_cons, called]
  have hdirective : r.directive count d name = r.call name := by rcases hd with rfl | rfl <;> rfl
  simp only [hdirective]
  cases r.call name <;> rfl

/-- what is behind the frame may be called -/
theorem directives_behind {d : Directive} (hd : d = .layer ∨ d = .splice)
    (h : Behind r.procedures r.pos (frame.directive? d.key)) : r.directives count frame [d] = .ok r := by
  cases called : frame.directive? d.key with
  | none => rw [directives_cons, called]; rfl
  | some name =>
    obtain ⟨span, found, hstop⟩ := h name called
    rw [directives_called hd called, call, found]
    exact if_neg (by omega)

/-- the directives before the calls -/
def opening : List Directive := settings ++ [.define]

theorem directives_order (r : Rehearsal) :
    r.directives count frame Directive.order =
      (r.directives count frame opening).bind fun r =>
        (r.directives count frame [.layer]).bind fun r => r.directives count frame [.splice] := by
  have horder : Directive.order = opening ++ ([.layer] ++ [.splice]) := rfl
  rw [horder, directives_append]
  simp only [directives_append]

theorem directives_opening (r : Rehearsal) :
    r.directives count frame opening =
      (r.directives count frame settings).bind fun r => r.directives count frame [.define] :=
  directives_append settings [.define] r

end Rehearsal

/-! ## The flat pass alongside a performance -/

/-- the flat pass has come without a fault to where the top level is, with the registry of the performance;
it says whether the song has a tempo, and with that the settings of all frames seen so far go through -/
structure Rehearsed (frames : Array Frame) (song : Song) (tempoSet : Bool) (ps : Procedures) (b : Cursor) : Prop where
  before : b.stage = .directives → rehearseFirst frames song b.pos = .ok ⟨b.pos, tempoSet, ps⟩
  within : b.stage ≠ .directives → ∃ frame r, frames[b.pos]? = some frame ∧ rehearseFirst frames song b.pos = .ok r ∧
    r.pos = b.pos ∧ r.directives frames.size frame Rehearsal.opening = .ok ⟨b.pos, tempoSet, ps⟩
  seen : ∀ i frame, i < b.pos ∨ i = b.pos ∧ b.stage ≠ .directives → frames[i]? = some frame →
    ∀ s : Rehearsal, (tempoSet = true → s.tempoSet = true) → s.directives frames.size frame settings = .ok s

namespace Rehearsed

variable {frames : Array Frame} {song : Song} {tempoSet : Bool} {ps : Procedures} {b : Cursor} {frame : Frame}

theorem start (frames : Array Frame) (song : Song) :
    Rehearsed frames song song.tempo.isSome .empty (.start ⟨0, frames.size⟩ 0 false none) where
  before := fun _ => rfl
  within := fun h => absurd rfl h
  seen := by
    intro i frame hi
    rcases hi with hi | ⟨_, hstage⟩
    · cases hi
    · exact absurd rfl hstage

/-- the settings of a frame seen before go through, and the song has a tempo afterwards if it had one -/
theorem settle (h : Rehearsed frames song tempoSet ps b) {i : Nat} (hi : i < b.pos ∨ i = b.pos ∧ b.stage ≠ .directives)
    (here : frames[i]? = some frame) {now : Song} (hnow : now.tempo.isSome = tempoSet) (timeline : Timeline) :
    (Performance.settle frame now timeline).2 = none ∧
      (Performance.settle frame now timeline).1.song.tempo.isSome = tempoSet := by
  have hsettings := h.seen i frame hi here ⟨0, tempoSet, .empty⟩ id
  rw [Rehearsal.directives_settle now timeline hnow.symm] at hsettings
  rcases hsettle : Performance.settle frame now timeline with ⟨q, _ | fault⟩
  · rw [hsettle] at hsettings
    simp only [Except.ok.injEq, Rehearsal.mk.injEq, true_and, and_true] at hsettings
    exact ⟨rfl, hsettings⟩
  · rw [hsettle] at hsettings
    cases hsettings

/-- the directives of the frame the top level is at went through -/
theorem directed (h : Rehearsed frames song tempoSet ps b) (stage : b.stage = .directives)
    (here : frames[b.pos]? = some frame) {now : Song} {timeline : Timeline} {pass : Pass}
    (hnow : now.tempo.isSome = tempoSet)
    (passed : Pass.run ⟨b.pos, frames.size, true⟩ frame Directive.order (.start now timeline ps) = (pass, none)) :
    Rehearsed frames song pass.song.tempo.isSome pass.procedures (b.directed pass) := by
  obtain ⟨hsettle, declared, _, _, hpass⟩ := run_order_passed passed
  have hsong : (Performance.settle frame now timeline).1.song = pass.song := by rw [hpass]; rfl
  have hsettings : Rehearsal.directives frames.size frame settings ⟨b.pos, tempoSet, ps⟩ =
      .ok ⟨b.pos, pass.song.tempo.isSome, ps⟩ := by
    rw [Rehearsal.directives_settle now timeline hnow.symm, ← hsong]
    rcases hq : Performance.settle frame now timeline with ⟨q, _ | fault⟩
    · rfl
    · rw [hq] at hsettle
      cases hsettle
  obtain ⟨hmono, hagain⟩ := Rehearsal.directives_again (fun _ h => h) hsettings
  refine ⟨fun hstage => (by cases hstage), fun _ => ⟨frame, _, here, h.before stage, rfl, ?_⟩, ?_⟩
  · rw [Rehearsal.directives_opening, hsettings]
    change Rehearsal.directives _ _ _ _ = _
    rw [Rehearsal.directives_define (Array.getElem?_eq_some_iff.1 here).1, declared]
    rfl
  · intro i frame' hi here' s hs
    rcases hi with hi | ⟨rfl, _⟩
    · exact h.seen i frame' (.inl hi) here' s fun ht => hs (hmono ht)
    · change frames[b.pos]? = some frame' at here'
      rw [here] at here'
      cases here'
      exact hagain s hs

theorem placing (h : Rehearsed frames song tempoSet ps b) (stage : b.stage = .splice) :
    Rehearsed frames song tempoSet ps b.placing := by
  have hstage : b.stage ≠ .directives := by rw [stage]; simp
  refine ⟨fun hplace => (by cases hplace), fun _ => h.within hstage, fun i frame hi => h.seen i frame ?_⟩
  exact hi.imp_right fun hi => ⟨hi.1, hstage⟩

/-- the flat pass has the calls of the frame before it, with what is known of it by then -/
theorem calls (h : Rehearsed frames song tempoSet ps b) (stage : b.stage ≠ .directives)
    (here : frames[b.pos]? = some frame) :
    ∃ r, rehearseFirst frames song b.pos = .ok r ∧ r.directives frames.size frame Directive.order =
      (Rehearsal.directives frames.size frame [.layer] ⟨b.pos, tempoSet, ps⟩).bind
        (Rehearsal.directives frames.size frame [.splice]) := by
  obtain ⟨frame', r, here', hfirst, _, hopening⟩ := h.within stage
  rw [here] at here'
  cases here'
  refine ⟨r, hfirst, ?_⟩
  rw [Rehearsal.directives_order, hopening]
  rfl

/-- the top level passes a frame whose calls are behind it -/
theorem advanced (h : Rehearsed frames song tempoSet ps b) (stage : b.stage = .place)
    (called : ∀ frame, frames[b.pos]? = some frame → Called ps frame b.pos .place) :
    Rehearsed frames song tempoSet ps b.advanced := by
  have hstage : b.stage ≠ .directives := by rw [stage]; simp
  obtain ⟨frame, _, here, _⟩ := h.within hstage
  obtain ⟨r, hfirst, horder⟩ := h.calls hstage here
  obtain ⟨hlayer, hsplice⟩ := called frame here
  refine ⟨fun _ => ?_, fun h => absurd rfl h, ?_⟩
  · change rehearseFirst frames song (b.pos + 1) = _
    rw [Rehearsal.directives_behind (.inl rfl) (hlayer (by simp))] at horder
    have hcalls : r.directives frames.size frame Directive.order = .ok ⟨b.pos, tempoSet, ps⟩ :=
      horder.trans (Rehearsal.directives_behind (.inr rfl) (hsplice rfl))
    rw [rehearseFirst_succ here, hfirst]
    change r.frame frames.size frame = _
    rw [Rehearsal.frame, hcalls]
    rfl
  · intro i frame' hi
    refine h.seen i frame' ?_
    rcases hi with hi | ⟨_, hstage'⟩
    · rcases Nat.lt_succ_iff_lt_or_eq.1 hi with hlt | rfl
      · exact .inl hlt
      · exact .inr ⟨rfl, hstage⟩
    · exact absurd rfl hstage'

end Rehearsed

/-! ## Moves -/

/-- a frame that a body replays has had its directives applied at the top level -/
theorem Descends.seen {frames : Array Frame} {ps : Procedures} {c : Cursor} {cs : List Cursor} {b : Cursor}
    (h : Descends frames ps (c :: cs) b) (inside : c.pos < c.span.stop) {frame : Frame}
    (here : frames[c.pos]? = some frame) : c.pos < b.pos ∨ c.pos = b.pos ∧ b.stage ≠ .directives := by
  rcases h.replayed inside here with ⟨hlt, _⟩ | ⟨_, hpos, _, entered⟩
  · exact .inl hlt
  · refine .inr ⟨hpos, ?_⟩
    cases entered with
    | layered _ stage _ => rw [stage]; simp
    | spliced _ stage _ _ => rw [stage]; simp

/-- inside a procedure the song does not come to a tempo, or lose it -/
theorem Rehearsed.moves_inner {p q : Performance} {song : Song} {c : Cursor} {cs : List Cursor} {b : Cursor}
    (hr : Rehearsed p.frames song p.song.tempo.isSome p.procedures b) (h : Descends p.frames p.procedures (c :: cs) b)
    (hstack : p.stack = c :: cs ++ [b]) (m : Moves p q) : q.song.tempo.isSome = p.song.tempo.isSome := by
  have hpass : ∀ {c' : Cursor} {below : List Cursor} {frame : Frame} {pass : Pass}, At p c' below frame →
      p.passAt c' below frame = (pass, none) → pass.song.tempo.isSome = p.song.tempo.isSome := by
    intro c' below frame pass here passed
    obtain ⟨rfl, rfl⟩ := List.cons.inj (hstack.symm.trans here.stack)
    have hsong := (run_order_passed passed).2.2.2.2
    rw [hsong]
    exact (hr.settle (h.seen here.inside here.frame) here.frame rfl (p.timelineAt c.slot)).2
  cases m with
  | directed here _ passed _ => exact hpass here passed
  | layered here _ passed _ _ => exact hpass here passed
  | _ => rfl

/-- a move at the top level: the flat pass keeps up, and it is through when the performance is -/
theorem Rehearsed.moves_outer {p q : Performance} {song : Song} {b : Cursor}
    (hr : Rehearsed p.frames song p.song.tempo.isSome p.procedures b) (h : Descends p.frames p.procedures [] b)
    (hstack : p.stack = [b]) (m : Moves p q) :
    (q.turn = .ended ∧ rehearsalError p.frames song = none) ∨
      ∃ cs b', q.stack = cs ++ [b'] ∧ Rehearsed p.frames song q.song.tempo.isSome q.procedures b' := by
  cases m with
  | left pending stack done =>
    obtain ⟨rfl, rfl⟩ := List.cons.inj (hstack.symm.trans stack)
    have hsize : p.frames.size ≤ b.pos := by
      rw [h.whole] at done
      exact done.elim id Array.getElem?_eq_none_iff.1
    have hstage : b.stage = .directives := by
      by_contra hstage
      obtain ⟨frame, r, here, _⟩ := hr.within hstage
      have := (Array.getElem?_eq_some_iff.1 here).1
      omega
    have hall := hr.before hstage
    rw [rehearseFirst_all hsize] at hall
    exact .inl ⟨turn_ended_iff.2 ⟨pending, rfl⟩, by rw [rehearsalError, hall]⟩
  | @directed _ _ frame pass here stage passed layered =>
    obtain ⟨rfl, rfl⟩ := List.cons.inj (hstack.symm.trans here.stack)
    exact .inr ⟨[], _, rfl, hr.directed stage here.frame rfl passed⟩
  | @layered _ _ frame pass name span here stage passed layered resolved =>
    obtain ⟨rfl, rfl⟩ := List.cons.inj (hstack.symm.trans here.stack)
    exact .inr ⟨[_], _, rfl, hr.directed stage here.frame rfl passed⟩
  | unspliced here stage spliced =>
    obtain ⟨rfl, rfl⟩ := List.cons.inj (hstack.symm.trans here.stack)
    exact .inr ⟨[], _, rfl, hr.placing stage⟩
  | spliced here stage spliced resolved =>
    obtain ⟨rfl, rfl⟩ := List.cons.inj (hstack.symm.trans here.stack)
    exact .inr ⟨[_], _, rfl, hr.placing stage⟩
  | placed here stage =>
    obtain ⟨rfl, rfl⟩ := List.cons.inj (hstack.symm.trans here.stack)
    exact .inr ⟨[], _, rfl, hr.advanced stage fun frame here' => by rw [← stage]; exact h.idle rfl frame here'⟩

/-! ## Failures -/

theorem rehearsalError_of_frame {frames : Array Frame} {song : Song} {n : Nat} {frame : Frame} {r : Rehearsal}
    {fault : Fault} (here : frames[n]? = some frame) (hfirst : rehearseFirst frames song n = .ok r)
    (hfault : r.directives frames.size frame Directive.order = .error fault) :
    rehearsalError frames song = some ⟨frame.line, fault⟩ := by
  have hnext : rehearseFirst frames song (n + 1) = .error ⟨frame.line, fault⟩ := by
    rw [rehearseFirst_succ here, hfirst]
    change r.frame frames.size frame = _
    rw [Rehearsal.frame, hfault]
  rw [rehearsalError, rehearse_of_error hnext]

/-- a name that no cursor performs fails to resolve only when it is not registered -/
theorem resolve_error {p : Performance} {name : String} {fault : Fault} (h : p.resolve name = .error fault) :
    (∃ c ∈ p.stack, c.procedure = some name) ∧ fault = .recursiveProcedure name ∨
      p.procedures.get? name = none ∧ fault = .undefinedProcedure name := by
  unfold resolve Procedures.body at h
  split at h
  · rename_i hactive
    cases h
    exact .inl ⟨by simpa using hactive, rfl⟩
  · split at h
    · cases h
    · rename_i hnone
      cases h
      exact .inr ⟨hnone, rfl⟩

theorem Rehearsal.call_undefined {r : Rehearsal} {name : String} (h : r.procedures.get? name = none) :
    r.call name = .error (.undefinedProcedure name) := by
  rw [call, h]

theorem Rehearsal.call_self {r : Rehearsal} {name : String} {span : Span} (h : r.procedures.get? name = some span)
    (hstart : span.start ≤ r.pos) (hstop : r.pos < span.stop) : r.call name = .error (.recursiveProcedure name) := by
  rw [call, h]
  exact if_pos ⟨hstart, hstop⟩

namespace Rehearsed

variable {frames : Array Frame} {song : Song} {tempoSet : Bool} {ps : Procedures} {b : Cursor} {frame : Frame}
  {fault : Fault}

/-- a directive that fails at the top level fails in the flat pass -/
theorem refuses_directive (h : Rehearsed frames song tempoSet ps b) (stage : b.stage = .directives)
    (here : frames[b.pos]? = some frame) {now : Song} {timeline : Timeline} {pass : Pass}
    (hnow : now.tempo.isSome = tempoSet)
    (refused : Pass.run ⟨b.pos, frames.size, true⟩ frame Directive.order (.start now timeline ps) = (pass, some fault)) :
    rehearsalError frames song = some ⟨frame.line, fault⟩ := by
  refine rehearsalError_of_frame here (h.before stage) ?_
  have hsettings : Rehearsal.directives frames.size frame settings ⟨b.pos, tempoSet, ps⟩ = _ :=
    Rehearsal.directives_settle now timeline hnow.symm
  rw [Rehearsal.directives_order, Rehearsal.directives_opening, hsettings]
  rcases hsettle : Performance.settle frame now timeline with ⟨q, _ | fault'⟩
  · obtain ⟨_, hfault | ⟨_, declared⟩⟩ := run_order_refused refused
    · rw [hsettle] at hfault
      cases hfault
    · simp only [Except.bind]
      rw [Rehearsal.directives_define (Array.getElem?_eq_some_iff.1 here).1, declared]
      rfl
  · obtain ⟨_, hfault | ⟨hnone, _⟩⟩ := run_order_refused refused
    · rw [hsettle] at hfault
      cases hfault
      rfl
    · rw [hsettle] at hnone
      cases hnone

theorem refuses_layer (h : Rehearsed frames song tempoSet ps b) (stage : b.stage ≠ .directives)
    (here : frames[b.pos]? = some frame) {name : String} (called : layerOf frame = some name)
    (hcall : Rehearsal.call ⟨b.pos, tempoSet, ps⟩ name = .error fault) :
    rehearsalError frames song = some ⟨frame.line, fault⟩ := by
  obtain ⟨r, hfirst, horder⟩ := h.calls stage here
  rw [Rehearsal.directives_called (.inl rfl) called, hcall] at horder
  exact rehearsalError_of_frame here hfirst horder

theorem refuses_splice (h : Rehearsed frames song tempoSet ps b) (stage : b.stage ≠ .directives)
    (here : frames[b.pos]? = some frame) {name : String} (called : spliceOf frame = some name)
    (layer : Behind ps b.pos (layerOf frame)) (hcall : Rehearsal.call ⟨b.pos, tempoSet, ps⟩ name = .error fault) :
    rehearsalError frames song = some ⟨frame.line, fault⟩ := by
  obtain ⟨r, hfirst, horder⟩ := h.calls stage here
  rw [Rehearsal.directives_behind (.inl rfl) layer] at horder
  exact rehearsalError_of_frame here hfirst
    (horder.trans ((Rehearsal.directives_called (.inr rfl) called).trans hcall))

end Rehearsed

/-- a failure at the top level -/
theorem Fails.outer {p q : Performance} {e : Error} {song : Song} {b : Cursor} (hf : Fails p e q)
    (hr : Rehearsed p.frames song p.song.tempo.isSome p.procedures b) (h : Descends p.frames p.procedures [] b)
    (hstack : p.stack = [b]) : rehearsalError p.frames song = some e := by
  -- no cursor has a name, so a name that does not resolve is not registered
  have hundefined : ∀ {r : Performance} {name : String} {fault : Fault}, r.resolve name = .error fault →
      r.stack.map (·.procedure) = [none] → r.procedures.get? name = none ∧ fault = .undefinedProcedure name := by
    intro r name fault hresolve hnames
    rcases resolve_error hresolve with ⟨⟨c, hc, hname⟩, _⟩ | hmissing
    · have hmem : c.procedure ∈ r.stack.map (·.procedure) := List.mem_map_of_mem hc
      rw [hnames, hname] at hmem
      simp at hmem
    · exact hmissing
  have hnames : ∀ {b' : Cursor}, b'.procedure = b.procedure → [b'.procedure] = [none] := fun hb => by
    rw [hb, h.nameless]
  cases hf with
  | directive here stage refused =>
    obtain ⟨rfl, rfl⟩ := List.cons.inj (hstack.symm.trans here.stack)
    exact hr.refuses_directive stage here.frame rfl refused
  | layer here stage passed layered refused =>
    obtain ⟨rfl, rfl⟩ := List.cons.inj (hstack.symm.trans here.stack)
    obtain ⟨hmissing, rfl⟩ := hundefined refused (hnames rfl)
    have hlayer := (run_order_passed passed).2.2.1
    exact (hr.directed stage here.frame rfl passed).refuses_layer (fun hstage => by cases hstage) here.frame
      (hlayer.symm.trans layered) (Rehearsal.call_undefined hmissing)
  | splice here stage spliced refused =>
    obtain ⟨rfl, rfl⟩ := List.cons.inj (hstack.symm.trans here.stack)
    obtain ⟨hmissing, rfl⟩ := hundefined refused (hnames rfl)
    have hstage : b.stage ≠ .directives := by rw [stage]; simp
    exact hr.refuses_splice hstage here.frame ((h.marked stage _ here.frame).symm.trans spliced)
      ((h.idle rfl _ here.frame).1 hstage) (Rehearsal.call_undefined hmissing)

/-- a name that does not resolve is not behind the frame of the innermost cursor -/
theorem Descends.not_behind {frames : Array Frame} {ps : Procedures} {c : Cursor} {cs : List Cursor} {b : Cursor}
    (h : Descends frames ps (c :: cs) b) (inside : c.pos < c.span.stop) {p : Performance} {name : String}
    {fault : Fault} (hrefused : p.resolve name = .error fault) (hps : p.procedures = ps)
    (hnames : p.stack.map (·.procedure) = (c :: cs ++ [b]).map (·.procedure)) : ¬ Behind ps c.pos (some name) := by
  intro hbehind
  obtain ⟨span, found, hstop⟩ := hbehind name rfl
  rcases resolve_error hrefused with ⟨⟨d, hd, hdname⟩, _⟩ | ⟨hmissing, _⟩
  · have hmem : d.procedure ∈ p.stack.map (·.procedure) := List.mem_map_of_mem hd
    rw [hnames, List.mem_map] at hmem
    obtain ⟨d', hd', hsame⟩ := hmem
    exact h.not_active inside found hstop d' hd' (hsame.trans hdname)
  · rw [hps, found] at hmissing
    cases hmissing

/-- a cursor's own procedure is registered, so calling it is a recursion -/
theorem Descends.refused_self {frames : Array Frame} {ps : Procedures} {c : Cursor} {cs : List Cursor} {b : Cursor}
    (h : Descends frames ps (c :: cs) b) {p : Performance} {name : String} {fault : Fault}
    (hrefused : p.resolve name = .error fault) (hps : p.procedures = ps) (hname : c.procedure = some name) :
    ps.get? name = some c.span ∧ fault = .recursiveProcedure name := by
  obtain ⟨name', hname', found⟩ := h.named c List.mem_cons_self
  rw [hname] at hname'
  cases hname'
  refine ⟨found, ?_⟩
  rcases resolve_error hrefused with ⟨_, hfault⟩ | ⟨hmissing, _⟩
  · exact hfault
  · rw [hps, found] at hmissing
    cases hmissing

/-- **A failure inside a procedure.** It is the calling frame of the top level, met again, that calls the procedure
it is in; the flat pass refuses that call. -/
theorem Fails.inner {p q : Performance} {e : Error} {song : Song} {c : Cursor} {cs : List Cursor} {b : Cursor}
    (hf : Fails p e q) (hr : Rehearsed p.frames song p.song.tempo.isSome p.procedures b)
    (h : Descends p.frames p.procedures (c :: cs) b) (hstack : p.stack = c :: cs ++ [b]) :
    (cs = [] ∧ c.pos = b.pos ∧ ∃ name, c.procedure = some name ∧ e.fault = .recursiveProcedure name) ∧
      rehearsalError p.frames song = some e := by
  have hbelow : cs ++ [b] ≠ [] := by simp
  cases hf with
  | @directive _ below frame pass fault here stage refused =>
    exfalso
    obtain ⟨rfl, hrest⟩ := List.cons.inj (hstack.symm.trans here.stack)
    have hinner : below.isEmpty = false := by
      rw [← hrest]
      cases cs <;> rfl
    unfold passAt at refused
    rw [hinner] at refused
    obtain ⟨_, hfault | ⟨_, declared⟩⟩ := run_order_refused refused
    · have hnone := (hr.settle (h.seen here.inside here.frame) here.frame rfl (p.timelineAt c.slot)).1
      rw [hnone] at hfault
      cases hfault
    · rw [declare_inner] at declared
      cases declared
  | @layer _ _ frame pass name fault here stage passed layered refused =>
    obtain ⟨rfl, rfl⟩ := List.cons.inj (hstack.symm.trans here.stack)
    obtain ⟨hps, hlayered, _⟩ := passAt_inner passed hbelow
    have hcalled : layerOf frame = some name := hlayered.symm.trans layered
    have hnot : ¬ Behind p.procedures c.pos (layerOf frame) := by
      rw [hcalled]
      exact h.not_behind here.inside refused hps rfl
    rcases h.replayed here.inside here.frame with ⟨_, called⟩ | ⟨hcs, hpos, circling, entered⟩
    · exact absurd (called.1 (by simp)) hnot
    · cases entered with
      | layered owns bstage named =>
        obtain ⟨found, rfl⟩ := h.refused_self refused hps (named.trans hcalled)
        refine ⟨⟨hcs, hpos, name, named.trans hcalled, rfl⟩, ?_⟩
        refine hr.refuses_layer (by rw [bstage]; simp) (hpos ▸ here.frame) hcalled ?_
        exact Rehearsal.call_self found (h.registered _ _ found) circling.holds
      | spliced shares bstage named layer => exact absurd (hpos ▸ layer) hnot
  | @splice _ _ frame name fault here stage spliced refused =>
    obtain ⟨rfl, rfl⟩ := List.cons.inj (hstack.symm.trans here.stack)
    have hcalled : spliceOf frame = some name := (h.noted c List.mem_cons_self stage _ here.frame).symm.trans spliced
    have hnot : ¬ Behind p.procedures c.pos (spliceOf frame) := by
      rw [hcalled]
      exact h.not_behind here.inside refused rfl rfl
    rcases h.replayed here.inside here.frame with ⟨_, called⟩ | ⟨hcs, hpos, circling, entered⟩
    · exact absurd (called.2 rfl) hnot
    · rcases circling.again hpos with hstage | ⟨_, hshares⟩
      · rw [stage] at hstage
        cases hstage
      · cases entered with
        | layered owns bstage named =>
          rw [owns] at hshares
          cases hshares
        | spliced shares bstage named layer =>
          obtain ⟨found, rfl⟩ := h.refused_self refused rfl (named.trans hcalled)
          refine ⟨⟨hcs, hpos, name, named.trans hcalled, rfl⟩, ?_⟩
          refine hr.refuses_splice (by rw [bstage]; simp) (hpos ▸ here.frame) hcalled layer ?_
          exact Rehearsal.call_self found (h.registered _ _ found) circling.holds

/-! ## Whole runs -/

/-- the stack descends and the flat pass keeps up with it, until nothing is left and the flat pass is through -/
def Rehearses (song : Song) (p : Performance) : Prop :=
  (p.turn = .ended ∧ rehearsalError p.frames song = none) ∨
    ∃ cs b, p.stack = cs ++ [b] ∧ Descends p.frames p.procedures cs b ∧
      Rehearsed p.frames song p.song.tempo.isSome p.procedures b

theorem Rehearses.start (frames : Array Frame) (song : Song) (timeline : Timeline) :
    Rehearses song (start frames song timeline) :=
  .inr ⟨[], _, rfl, .start frames, .start frames song⟩

theorem Rehearses.moves {song : Song} {p q : Performance} (h : Rehearses song p) (m : Moves p q) : Rehearses song q := by
  rcases h with ⟨hended, _⟩ | ⟨cs, b, hstack, h, hr⟩
  · rw [m.turn] at hended
    cases hended
  · unfold Rehearses
    rw [m.kept.1]
    cases cs with
    | nil =>
      rcases hr.moves_outer h hstack m with hdone | ⟨cs', b', hstack', hr'⟩
      · exact .inl hdone
      · refine .inr ⟨cs', b', hstack', ?_, hr'⟩
        rcases h.moves_outer hstack m with hended | ⟨cs'', b'', hstack'', h'⟩
        · rw [(turn_ended_iff.1 hended).2] at hstack'
          simp at hstack'
        · obtain ⟨rfl, hb⟩ := List.append_inj' (hstack'.symm.trans hstack'') rfl
          cases hb
          exact h'
    | cons c cs =>
      obtain ⟨hps, cs', hstack', h'⟩ := h.moves_inner hstack m
      have htempo := hr.moves_inner h hstack m
      rw [hps, htempo]
      exact .inr ⟨cs', b, hstack', h', hr⟩

theorem Rehearses.turns {song : Song} {n : Nat} {p q : Performance} {given : List Event} (run : Turns n p given q)
    (h : Rehearses song p) : Rehearses song q := by
  induction run with
  | none p => exact h
  | moved first _ ih => exact ih (h.moves (turn_moved_iff.1 first))
  | event first _ ih =>
    refine ih ?_
    rcases h with ⟨hended, _⟩ | h
    · rw [hended] at first
      cases first
    · obtain ⟨rest, _, rfl⟩ := turn_event_iff.1 first
      exact .inr h

/-- a failure at the end of a run: its error is that of the flat pass, and inside a procedure it is a recursion -/
theorem Rehearses.failed {song : Song} {p q : Performance} {e : Error} (h : Rehearses song p)
    (failed : p.turn = .failed e q) :
    rehearsalError p.frames song = some e ∧ ∀ c below, p.stack = c :: below → below ≠ [] →
      ∃ b name, below = [b] ∧ b.procedure = none ∧ c.pos = b.pos ∧ c.procedure = some name ∧
        e.fault = .recursiveProcedure name := by
  have hf := turn_failed_iff.1 failed
  rcases h with ⟨hended, _⟩ | ⟨cs, b, hstack, h, hr⟩
  · rw [failed] at hended
    cases hended
  · cases cs with
    | nil =>
      refine ⟨hf.outer hr h hstack, fun c below hstack' hbelow => ?_⟩
      obtain ⟨rfl, rfl⟩ := List.cons.inj (hstack.symm.trans hstack')
      exact absurd rfl hbelow
    | cons c cs =>
      obtain ⟨⟨rfl, hpos, name, hname, hfault⟩, herror⟩ := hf.inner hr h hstack
      refine ⟨herror, fun c' below hstack' _ => ?_⟩
      obtain ⟨rfl, rfl⟩ := List.cons.inj (hstack.symm.trans hstack')
      exact ⟨b, name, rfl, h.nameless, hpos, hname, hfault⟩

/-- **One flat pass decides.** A performance ends with the error of the flat pass, or without one if it finds none.
Inside a procedure only one frame can fail: the one at which the top level stands, met again in the body that it
called, for calling that same procedure. -/
theorem drain_error_eq_rehearse (frames : Array Frame) (song : Song) (timeline : Timeline) :
    (start frames song timeline).drain.error = rehearsalError frames song ∧
      ∀ n given p e q c below, Turns n (start frames song timeline) given p → p.turn = .failed e q →
        p.stack = c :: below → below ≠ [] →
        ∃ b name, below = [b] ∧ b.procedure = none ∧ c.pos = b.pos ∧ c.procedure = some name ∧
          e.fault = .recursiveProcedure name := by
  have hstart := Rehearses.start frames song timeline
  constructor
  · obtain ⟨n, q, _, hturns, ⟨herror, hended⟩ | ⟨e, q', herror, hfailed⟩⟩ := drain_turns frames song timeline
    · rcases hstart.turns hturns with ⟨_, hnone⟩ | ⟨cs, b, hstack, _⟩
      · rw [hturns.kept.1] at hnone
        exact herror.trans hnone.symm
      · rw [(turn_ended_iff.1 hended).2] at hstack
        simp at hstack
    · obtain ⟨hsome, _⟩ := (hstart.turns hturns).failed hfailed
      rw [hturns.kept.1] at hsome
      exact herror.trans hsome.symm
  · intro n given p e q c below hturns hfailed hstack hbelow
    exact ((hstart.turns hturns).failed hfailed).2 c below hstack hbelow

/-- one frame that declares a procedure and splices it at once -/
def selfCaller : Array Frame := #[⟨7, ⟨[("proc", "p"), ("proc_ins", "p")]⟩, [], []⟩]

/-- it fails when it is met inside its own procedure -/
theorem selfCaller_fails_inside :
    (start selfCaller .blank .start).drain.error = some ⟨7, .recursiveProcedure "p"⟩ ∧
      ∃ n given p e q c b, Turns n (start selfCaller .blank .start) given p ∧ p.turn = .failed e q ∧
        p.stack = [c, b] ∧ c.pos = b.pos ∧ e.fault = .recursiveProcedure "p" := by
  obtain ⟨herror, hinside⟩ := drain_error_eq_rehearse selfCaller .blank .start
  have hflat : rehearsalError selfCaller .blank = some ⟨7, .recursiveProcedure "p"⟩ := by decide
  have hrun : Turns 3 (start selfCaller .blank .start) [] _ := .moved rfl (.moved rfl (.moved rfl (.none _)))
  obtain ⟨b, name, hbelow, -, hpos, hname, hfault⟩ :=
    hinside 3 [] _ ⟨7, .recursiveProcedure "p"⟩ _ _ _ hrun rfl rfl (List.cons_ne_nil _ _)
  cases hbelow
  cases hname
  exact ⟨herror.trans hflat, 3, [], _, _, _, _, _, hrun, rfl, rfl, hpos, hfault⟩

end RhythmChart.Performance
