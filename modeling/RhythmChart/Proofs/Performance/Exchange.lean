/-
Layering or splicing a procedure.

Two sequences differ in one frame `j`, which layers a procedure in `F` and splices it in `F'` (`Exchanged`). Their
performances are run side by side:
- until the top level comes to frame `j` no turn reads that frame, so both do the same (`Turns.on`);
- the directives of the two frames do the same but for the call, and either both performances fail or both bodies begin,
  in `F` on a copy of the timeline and in `F'` one stage later on the timeline itself (`Facing`);
- until the body is left, `F` does what `F'` does, one timeline higher (`Twins`). Frame `j` is read there only when the
  body holds it and comes to it again; then both performances fail, `F` at the directives and `F'` one stage later.

Main result: `layered_or_spliced`.
-/
import Mathlib.Tactic
import RhythmChart.Proofs.Performance.Causality
import RhythmChart.Proofs.Performance.Isolation
import RhythmChart.Proofs.Performance.Sharing

namespace RhythmChart.Performance

/-! ## The frame -/

/-- `f` layers a procedure and `f'` splices it, and otherwise they give the same directives on the same line; what they
place comes after the call and plays no part -/
structure Swapped (f f' : Frame) (name : String) : Prop where
  line : f'.line = f.line
  directives : ∀ d : Directive, d ≠ .layer → d ≠ .splice → f'.directive? d.key = f.directive? d.key
  layers : layerOf f = some name
  unspliced : spliceOf f = none
  unlayered : layerOf f' = none
  splices : spliceOf f' = some name

/-- two sequences that differ only in how frame `j` calls a procedure -/
structure Exchanged (F F' : Array Frame) (j : Nat) (f f' : Frame) (name : String) : Prop extends
    Swapped f f' name where
  size : F'.size = F.size
  here : F[j]? = some f
  here' : F'[j]? = some f'
  others : ∀ i, i ≠ j → F'[i]? = F[i]?

/-- a pass in which a procedure is spliced -/
def Pass.splicing (pass : Pass) (name : String) : Pass := pass.carrying pass.procedures none (some name)

namespace Swapped

variable {f f' : Frame} {name : String} {site : Site} {song : Song} {timeline : Timeline} {ps : Procedures}

theorem settle (h : Swapped f f' name) (song : Song) (timeline : Timeline) :
    settle f' song timeline = Performance.settle f song timeline := by
  have calls : ∀ d ∈ settings, d ≠ .layer ∧ d ≠ .splice := by decide
  exact run_congr (fun d hd => h.directives d (calls d hd).1 (calls d hd).2) _ _

theorem declare (h : Swapped f f' name) (site : Site) (ps : Procedures) :
    declare site ps f' = Performance.declare site ps f := by
  simp only [Performance.declare, h.directives .define (by decide) (by decide)]

/-- directives that go through in `f` go through in `f'` -/
theorem passed (h : Swapped f f' name) {pass : Pass}
    (passed : Pass.run site f Directive.order (.start song timeline ps) = (pass, none)) :
    Pass.run site f' Directive.order (.start song timeline ps) = (pass.splicing name, none) := by
  obtain ⟨settled, declared, _, _, eq⟩ := run_order_passed passed
  have calls : f'.directive? Directive.layer.key = none ∧ f'.directive? Directive.splice.key = some name :=
    ⟨h.unlayered, h.splices⟩
  have pair : Performance.settle f song timeline = ((Performance.settle f song timeline).1, none) :=
    Prod.ext rfl settled
  rw [run_order, h.settle, h.declare, declared, calls.1, calls.2, pair, Pass.splicing, eq]
  rfl

/-- directives that fail in `f` fail in `f'` -/
theorem refused (h : Swapped f f' name) {pass : Pass} {fault : Fault}
    (refused : Pass.run site f Directive.order (.start song timeline ps) = (pass, some fault)) :
    Pass.run site f' Directive.order (.start song timeline ps) = (pass, some fault) := by
  rw [run_order, h.settle, h.declare]
  rw [run_order] at refused
  rcases hs : Performance.settle f song timeline with ⟨q, _ | fault'⟩
  · rw [hs] at refused
    cases hd : Performance.declare site ps f with
    | error fault' => simpa only [hd] using refused
    | ok ps' => simp [hd] at refused
  · rwa [hs] at refused

end Swapped

/-! ## Two performances at the frame -/

/-- cursors of two performances are about to apply the directives of `f` and of `f'`, under the same circumstances -/
structure Facing (p p' : Performance) (c c' : Cursor) (below below' : List Cursor) (f f' : Frame) : Prop where
  here : At p c below f
  here' : At p' c' below' f'
  stage : c.stage = .directives
  stage' : c'.stage = .directives
  circumstances : ∀ frame, p'.passAt c' below' frame = p.passAt c below frame
  names : (c' :: below').map (·.procedure) = (c :: below).map (·.procedure)

/-- the turn of `p` fails; `p'` fails with the same error after some turns that give nothing, and both leave the same
song -/
structure FailAlike (p p' : Performance) (e : Error) (q q' : Performance) : Prop where
  failed : p.turn = .failed e q
  failed' : ∃ k r', Turns k p' [] r' ∧ r'.turn = .failed e q'
  song : q'.song = q.song

namespace Facing

variable {p p' q : Performance} {c c' : Cursor} {below below' : List Cursor} {f f' : Frame} {name : String}
  {pass : Pass}

/-- the second performance when its directives have gone through -/
def directed (p' : Performance) (c' : Cursor) (below' : List Cursor) (name : String) (pass : Pass) : Performance :=
  p'.afterPass c'.slot (pass.splicing name) (c'.directed (pass.splicing name) :: below')

theorem passed (h : Facing p p' c c' below below' f f') (swapped : Swapped f f' name)
    (passed : p.passAt c below f = (pass, none)) : p'.passAt c' below' f' = (pass.splicing name, none) := by
  rw [h.circumstances]
  exact swapped.passed passed

theorem resolve (h : Facing p p' c c' below below' f f') (pass : Pass) (name : String) :
    let waiting := (c'.directed (pass.splicing name)).placing :: below'
    { directed p' c' below' name pass with stack := waiting }.resolve name =
      (p.afterPass c.slot pass (c.directed pass :: below)).resolve name := by
  refine resolve_congr ?_ ?_ name
  · exact h.names
  · rfl

theorem step (h : Facing p p' c c' below below' f f') (swapped : Swapped f f' name)
    (passed : p.passAt c below f = (pass, none)) : p'.turn = .moved (directed p' c' below' name pass) :=
  (Moves.directed h.here' h.stage' (h.passed swapped passed) rfl).turn

/-- both fail -/
theorem fails {e : Error} (h : Facing p p' c c' below below' f f') (swapped : Swapped f f' name) (fails : Fails p e q) :
    ∃ q', FailAlike p p' e q q' := by
  have failed := fails.turn
  cases fails with
  | @directive _ _ _ pass fault here stage refused =>
    obtain ⟨rfl, rfl, rfl⟩ := h.here.unique here
    rw [← swapped.line] at failed ⊢
    have refused' : p'.passAt c' below' f' = (pass, some fault) := by
      rw [h.circumstances]
      exact swapped.refused refused
    exact ⟨_, failed, ⟨0, p', .none p', (Fails.directive h.here' h.stage' refused').turn⟩, rfl⟩
  | @layer _ _ _ pass callee fault here stage passed layered refused =>
    obtain ⟨rfl, rfl, rfl⟩ := h.here.unique here
    obtain rfl : callee = name := by
      have calls := (run_order_passed passed).2.2.1.symm.trans layered
      exact Option.some.inj (calls.symm.trans swapped.layers)
    rw [← swapped.line] at failed ⊢
    have here' : At (directed p' c' below' callee pass) (c'.directed (pass.splicing callee)) below' f' :=
      ⟨h.here'.pending, rfl, h.here'.inside, h.here'.frame⟩
    have failed' := (Fails.splice here' rfl rfl ((h.resolve pass callee).trans refused)).turn
    exact ⟨_, failed, ⟨1, _, .moved (h.step swapped passed) (.none _), failed'⟩, rfl⟩
  | splice here stage =>
    obtain ⟨rfl, rfl, rfl⟩ := h.here.unique here
    rw [h.stage] at stage
    cases stage

end Facing

/-! ## Until the frame -/

/-- a cursor is before frame `j`, or about to apply its directives -/
def Cursor.Near (j : Nat) (b : Cursor) : Prop := b.pos < j ∨ b.pos = j ∧ b.stage = .directives

/-- the lowest cursor has not begun frame `j` -/
def Approaches (j : Nat) (stack : List Cursor) : Prop := ∃ b, stack.getLast? = some b ∧ b.Near j

/-- nothing is pending and the top level is about to apply the directives of frame `j` -/
structure Visits (j : Nat) (p : Performance) (b : Cursor) : Prop where
  pending : p.pending = []
  stack : p.stack = [b]
  pos : b.pos = j
  stage : b.stage = .directives

section Approach

variable {j n : Nat} {p q : Performance} {c d : Cursor} {below : List Cursor} {frame : Frame} {given : List Event}

theorem Approaches.replace (h : Approaches j (d :: below)) (near : d.Near j → c.Near j) :
    Approaches j (c :: below) := by
  obtain ⟨b, last, hb⟩ := h
  cases below with
  | nil =>
    rw [List.getLast?_singleton] at last
    cases last
    exact ⟨c, rfl, near hb⟩
  | cons e below =>
    rw [List.getLast?_cons_cons] at last
    exact ⟨b, by rw [List.getLast?_cons_cons, last], hb⟩

theorem Approaches.push (h : Approaches j below) (c : Cursor) : Approaches j (c :: below) := by
  obtain ⟨b, last, hb⟩ := h
  cases below with
  | nil => cases last
  | cons d below => exact ⟨b, by rw [List.getLast?_cons_cons, last], hb⟩

theorem Approaches.pop (h : Approaches j (d :: c :: below)) : Approaches j (c :: below) := by
  obtain ⟨b, last, hb⟩ := h
  rw [List.getLast?_cons_cons] at last
  exact ⟨b, last, hb⟩

theorem Cursor.Near.of_restaged (h : d.Near j) (pos : d.pos = c.pos) (stage : d.stage ≠ .directives) : c.pos < j := by
  rcases h with before | ⟨_, at_⟩
  · rwa [← pos]
  · exact absurd at_ stage

/-- a move does not go back in the sequence -/
theorem Moves.approaches (m : Moves p q) (h : Approaches j q.stack) : Approaches j p.stack := by
  cases m with
  | @left c below pending stack =>
    rw [stack]
    exact Approaches.push h c
  | directed here =>
    rw [here.stack]
    exact h.replace fun near => .inl (near.of_restaged rfl (by simp [Cursor.directed]))
  | layered here =>
    rw [here.stack]
    exact (Approaches.pop h).replace fun near => .inl (near.of_restaged rfl (by simp [Cursor.directed]))
  | unspliced here =>
    rw [here.stack]
    exact h.replace fun near => .inl (near.of_restaged rfl (by simp [Cursor.placing]))
  | spliced here =>
    rw [here.stack]
    exact (Approaches.pop h).replace fun near => .inl (near.of_restaged rfl (by simp [Cursor.placing]))
  | @placed c below frame here =>
    rw [here.stack]
    refine h.replace fun near => .inl ?_
    have reached : c.pos + 1 ≤ j := by
      rcases near with before | ⟨at_, _⟩
      · exact before.le
      · exact at_.le
    exact reached

theorem Turns.approaches (run : Turns n p given q) (h : Approaches j q.stack) : Approaches j p.stack := by
  induction run with
  | none p => exact h
  | moved first _ ih => exact (turn_moved_iff.1 first).approaches (ih h)
  | event first _ ih =>
    obtain ⟨_, _, rfl⟩ := turn_event_iff.1 first
    exact ih h

/-- before the top level has begun frame `j`, a turn reads a frame before it, or begins it -/
theorem Approaches.reads (h : Approaches j p.stack) (descending : Descending p) (here : At p c below frame) :
    c.pos < j ∨ Visits j p c ∧ below = [] := by
  obtain ⟨b, last, near⟩ := h
  rcases descending with ended | ⟨cs, b', stack, descends⟩
  · rw [(turn_ended_iff.1 ended).2] at last
    cases last
  · obtain rfl : b = b' := by
      rw [stack, List.getLast?_concat] at last
      exact (Option.some.inj last).symm
    cases cs with
    | nil =>
      obtain ⟨rfl, rfl⟩ := here.innermost stack
      rcases near with before | ⟨pos, stage⟩
      · exact .inl before
      · exact .inr ⟨⟨here.pending, stack, pos, stage⟩, rfl⟩
    | cons d cs =>
      obtain ⟨rfl, rfl⟩ := here.innermost stack
      left
      rcases descends.replayed here.inside here.frame with ⟨hlt, _⟩ | ⟨_, pos, _, entered⟩
      · rcases near with before | ⟨pos, _⟩ <;> omega
      · -- the caller of a body is past its directives
        have begun : b.stage ≠ .directives := by
          cases entered with
          | layered _ stage | spliced _ stage => rw [stage]; simp
        rw [pos]
        exact near.of_restaged rfl begun

/-- a move at frame `j` begins it -/
theorem Visits.begins (h : Visits j p c) (here : At p c below frame) (m : Moves p q) : ¬ Approaches j q.stack := by
  intro approaches
  have far : ∀ {pass : Pass}, ¬ (c.directed pass).Near j := by
    intro pass near
    have before := near.of_restaged (c := c) rfl (by simp [Cursor.directed])
    have pos := h.pos
    omega
  cases m with
  | left pending stack done =>
    obtain ⟨rfl, rfl⟩ := here.innermost stack
    have inside := here.inside
    rcases done with done | absent
    · omega
    · rw [here.frame] at absent
      cases absent
  | directed here' =>
    obtain ⟨rfl, rfl⟩ := here'.innermost h.stack
    obtain ⟨b, last, near⟩ := approaches
    cases last
    exact far near
  | layered here' =>
    obtain ⟨rfl, rfl⟩ := here'.innermost h.stack
    obtain ⟨b, last, near⟩ := approaches
    cases last
    exact far near
  | unspliced here' stage | spliced here' stage | placed here' stage =>
    obtain ⟨rfl, rfl⟩ := here'.innermost h.stack
    rw [h.stage] at stage
    cases stage

variable {F F' : Array Frame} {f f' : Frame} {name : String}

theorem Exchanged.read (x : Exchanged F F' j f f' name) (frames : p.frames = F) (hne : c.pos ≠ j)
    (here : At p c below frame) : F'[c.pos]? = some frame := by
  rw [x.others _ hne, ← frames, here.frame]

theorem Exchanged.met (x : Exchanged F F' j f f' name) (frames : p.frames = F) (pos : c.pos = j)
    (here : At p c below frame) : frame = f := by
  have present := here.frame
  rw [frames, pos, x.here] at present
  exact (Option.some.inj present).symm

/-- **Until the frame** both performances do the same. -/
theorem Turns.on (run : Turns n p given q) (x : Exchanged F F' j f f' name) (frames : p.frames = F)
    (descending : Descending p) (h : Approaches j q.stack) : Turns n (p.on F') given (q.on F') := by
  induction run with
  | none p => exact .none _
  | @moved n p p' q given first rest ih =>
    have m := turn_moved_iff.1 first
    have approaches := rest.approaches h
    have read : ∀ c below frame, At p c below frame → F'[c.pos]? = some frame := by
      intro c below frame here
      rcases (m.approaches approaches).reads descending here with before | ⟨visits, _⟩
      · exact x.read frames before.ne here
      · exact absurd approaches (visits.begins here m)
    have m' := m.on (x.size.trans (by rw [frames])) read
    exact .moved m'.turn (ih (m.kept.1.trans frames) (descending.moves m) h)
  | @event n p p' q e given first rest ih =>
    have descending' : Descending p' := Descending.turns (.event first (.none p')) descending
    obtain ⟨pending, hpending, rfl⟩ := turn_event_iff.1 first
    have first' : (p.on F').turn = .event e _ := turn_event_iff.2 ⟨pending, hpending, rfl⟩
    exact .event first' (ih frames descending' h)

/-- a failure before the frame -/
theorem Approaches.fails {e : Error} (h : Approaches j p.stack) (x : Exchanged F F' j f f' name) (frames : p.frames = F)
    (descending : Descending p) (fails : Fails p e q) : (∃ b, Visits j p b) ∨ Fails (p.on F') e (q.on F') := by
  refine or_iff_not_imp_left.2 fun visiting => fails.on (x.size.trans (by rw [frames])) fun c below frame here => ?_
  rcases h.reads descending here with before | ⟨visits, _⟩
  · exact x.read frames before.ne here
  · exact absurd ⟨c, visits⟩ visiting

end Approach

/-! ## While the body is performed -/

/-- `r` performs in `F` what `r'` performs in `F'`: a body that `b` calls, in `r` by the cursor `e` on a copy of the
timeline `t`, and in `r'` on the timeline itself -/
structure Twins (F F' : Array Frame) (e b : Cursor) (t : Timeline) (r r' : Performance) : Prop where
  frames : r.frames = F
  descending : Descending r
  sheltered : Sheltered e [b] [t] r
  seated : Seated r'
  same : r.on F' = r'.raised t

/-- both turns leave the body: `r` drops the copy and comes back to `t`, and `r'` keeps what the copy shows -/
structure LeftAlike (b : Cursor) (t : Timeline) (r r' s s' : Performance) : Prop where
  left : r.turn = .moved s
  left' : r'.turn = .moved s'
  stack : s.stack = [b]
  stack' : ∃ b', s'.stack = [b'] ∧ b'.pos = b.pos
  timelines : s.timelines = [t]
  copy : r.timelines = [t, s'.timeline]
  timelines' : s'.timelines = [s'.timeline]
  song : s'.song = s.song

theorem Fails.here {p q : Performance} {e : Error} (fails : Fails p e q) : ∃ c below frame, At p c below frame := by
  cases fails with
  | directive here | layer here | splice here => exact ⟨_, _, _, here⟩

/-- a body does not get past a frame that layers it again -/
theorem layered_again {p q : Performance} {c : Cursor} {below : List Cursor} {frame : Frame} (m : Moves p q)
    (here : At p c below frame) (inner : below ≠ []) (stage : c.stage = .directives) (active : c.procedure ≠ none)
    (again : c.procedure = layerOf frame) : False := by
  cases m with
  | left pending stack done =>
    obtain ⟨rfl, rfl⟩ := here.innermost stack
    rcases done with done | absent
    · exact absurd here.inside (Nat.not_lt.2 done)
    · rw [here.frame] at absent
      cases absent
  | directed here' _ passed layered =>
    obtain ⟨rfl, rfl, rfl⟩ := here.unique here'
    rw [(passAt_inner passed inner).2.1, ← again] at layered
    exact active layered
  | layered here' _ passed layered resolved =>
    obtain ⟨rfl, rfl, rfl⟩ := here.unique here'
    rw [(passAt_inner passed inner).2.1, ← again] at layered
    exact (resolve_ok resolved).1 _ List.mem_cons_self layered
  | unspliced here' stage' | spliced here' stage' | placed here' stage' =>
    obtain ⟨rfl, -, -⟩ := here.unique here'
    rw [stage] at stage'
    cases stage'

namespace Twins

variable {F F' : Array Frame} {e b c : Cursor} {t : Timeline} {r r' s : Performance} {below : List Cursor}
  {frame f f' : Frame} {name : String}

theorem stack (h : Twins F F' e b t r r') : r.stack = raisedStack r'.stack := congrArg Performance.stack h.same

theorem timelines (h : Twins F F' e b t r r') : r.timelines = t :: r'.timelines :=
  congrArg Performance.timelines h.same

theorem pending (h : Twins F F' e b t r r') : r.pending = r'.pending := by
  have same := congrArg Performance.pending h.same
  exact same

theorem frames' (h : Twins F F' e b t r r') : r'.frames = F' := (congrArg Performance.frames h.same).symm

theorem inner (h : Twins F F' e b t r r') : 2 ≤ r'.stack.length := by
  have longer := h.sheltered.length_lt
  rw [h.stack, raisedStack_length] at longer
  exact longer

theorem copies (h : Twins F F' e b t r r') : r'.timelines ≠ [] := by
  have length := h.seated.timelines
  exact List.ne_nil_of_length_pos (by omega)

/-- in the body a turn reads a frame before that of `b`, or comes to that frame again -/
theorem reads (h : Twins F F' e b t r r') (here : At r c below frame) :
    c.pos < b.pos ∨ below = [b] ∧ c.pos = b.pos ∧ c.stage = .directives ∧ c.procedure = e.procedure := by
  obtain ⟨above, d, stack, same⟩ := h.sheltered.stack
  rcases h.descending with ended | ⟨cs, b', stack', descends⟩
  · rw [(turn_ended_iff.1 ended).2] at stack
    exact absurd stack (by simp)
  · have split : (above ++ [d]) ++ [b] = cs ++ [b'] := by
      rw [← stack', stack, List.append_assoc]
      rfl
    obtain ⟨rfl, lowest⟩ := List.append_inj' split rfl
    cases lowest
    cases above with
    | cons a above =>
      obtain ⟨rfl, rfl⟩ := here.innermost stack
      rcases descends.replayed here.inside here.frame with ⟨before, _⟩ | ⟨alone, _⟩
      · exact .inl before
      · exact absurd alone (by simp)
    | nil =>
      obtain ⟨rfl, rfl⟩ := here.innermost stack
      rcases descends.replayed here.inside here.frame with ⟨before, _⟩ | ⟨_, pos, circling, _⟩
      · exact .inl before
      · rcases circling.again pos with stage | ⟨_, shares⟩
        · exact .inr ⟨rfl, pos, stage, same.procedure⟩
        · rw [same.ownsSlot, h.sheltered.owns] at shares
          cases shares

/-- a turn that moves in the body reads a frame that both sequences have -/
theorem read (h : Twins F F' e b t r r') (x : Exchanged F F' b.pos f f' name) (named : e.procedure = some name)
    (m : Moves r s) (here : At r c below frame) : F'[c.pos]? = some frame := by
  rcases h.reads here with before | ⟨rfl, pos, stage, procedure⟩
  · exact x.read h.frames before.ne here
  · have again : c.procedure = layerOf frame := by rw [procedure, named, x.met h.frames pos here, x.layers]
    exact (layered_again m here (by simp) stage (by rw [procedure, named]; simp) again).elim

/-- the body is left -/
theorem leaves {d : Cursor} (h : Twins F F' e b t r r') (m : Moves r s) (m' : Moves r' (r'.leave c [d]))
    (stack' : r'.stack = [c, d]) (same : s.on F' = (r'.raised t).leave (c.raised 1) (raisedStack [d])) :
    LeftAlike b t r r' s (r'.leave c [d]) := by
  have lower : s.stack = [d.raised 0] := congrArg Performance.stack same
  have song : s.song = r'.song := by
    have kept := congrArg Performance.song same
    exact kept
  have dropped : s.timelines = (t :: r'.timelines).dropLast := by
    have owns : (c.raised 1).ownsSlot = true := by simp [Cursor.raised]
    have kept := congrArg Performance.timelines same
    simp only [leave, owns, if_true] at kept
    exact kept
  rcases h.sheltered.moves m with sheltered | ⟨_, stack, timelines⟩
  · have longer := sheltered.length_lt
    rw [lower] at longer
    exact absurd longer (lt_irrefl _)
  · have lowest : d.raised 0 = b := by
      rw [stack] at lower
      exact (List.cons.inj lower).1.symm
    -- `r'` has the top-level timeline only, which `c` shares
    obtain ⟨u, only⟩ : ∃ u, r'.timelines = [u] := by
      rw [timelines] at dropped
      rw [← List.length_eq_one_iff]
      simpa using (congrArg List.length dropped).symm
    have shares : c.ownsSlot = false := by
      have length := h.seated.timelines
      rw [only, stack'] at length
      cases owns : c.ownsSlot with
      | false => rfl
      | true => simp [owns] at length
    have timelines' : (r'.leave c [d]).timelines = [u] := by
      rw [leave, shares]
      exact only
    have kept : (r'.leave c [d]).timeline = u := by
      rw [timeline, timelineAt, timelines']
      rfl
    exact ⟨m.turn, m'.turn, stack, ⟨d, rfl, by rw [← lowest]; rfl⟩, timelines, by rw [h.timelines, only, kept],
      by rw [timelines', kept], song.symm⟩

/-- **A move in the body.** -/
theorem moves (h : Twins F F' e b t r r') (x : Exchanged F F' b.pos f f' name) (named : e.procedure = some name)
    (m : Moves r s) : ∃ s', Moves r' s' ∧ (Twins F F' e b t s s' ∨ LeftAlike b t r r' s s') := by
  have higher := m.on (x.size.trans (by rw [h.frames])) fun _ _ _ here => h.read x named m here
  rw [h.same] at higher
  obtain ⟨s', m', ⟨inner, same⟩ | ⟨c, d, stack', rfl, same⟩⟩ := moves_of_raised higher h.inner h.copies
  · refine ⟨s', m', .inl ⟨m.kept.1.trans h.frames, h.descending.moves m, ?_, h.seated.moves m', same⟩⟩
    rcases h.sheltered.moves m with sheltered | ⟨_, stack, _⟩
    · exact sheltered
    · have length : s.stack = raisedStack s'.stack := congrArg Performance.stack same
      rw [← raisedStack_length, ← length, stack] at inner
      exact absurd inner (by simp)
  · exact ⟨_, m', .inr (h.leaves m m' stack' same)⟩

/-- **A failure in the body.** -/
theorem fails {error : Error} (h : Twins F F' e b t r r') (x : Exchanged F F' b.pos f f' name)
    (fails : Fails r error s) : ∃ s', FailAlike r r' error s s' := by
  have size : F'.size = r.frames.size := x.size.trans (by rw [h.frames])
  obtain ⟨c, below, frame, here⟩ := fails.here
  rcases h.reads here with before | ⟨rfl, pos, stage, _⟩
  · have read : ∀ c' below' frame', At r c' below' frame' → F'[c'.pos]? = some frame' := by
      intro c' below' frame' here'
      obtain ⟨rfl, rfl, rfl⟩ := here.unique here'
      exact x.read h.frames before.ne here'
    have higher := fails.on size read
    rw [h.same] at higher
    obtain ⟨s', fails', same⟩ := fails_of_raised higher h.inner h.copies
    refine ⟨s', fails.turn, ⟨0, r', .none r', fails'.turn⟩, ?_⟩
    have kept := congrArg Performance.song same
    exact kept.symm
  · obtain ⟨c', b', stack', rfl, rfl⟩ : ∃ c' b', r'.stack = [c', b'] ∧ c = c'.raised 1 ∧ b = b'.raised 0 := by
      have stack := here.stack
      rw [h.stack] at stack
      match r'.stack, stack with
      | [c', b'], stack =>
        obtain ⟨rfl, rest⟩ := List.cons.inj stack
        exact ⟨c', b', rfl, rfl, (List.cons.inj rest).1.symm⟩
      | [_], stack => cases stack
      | _ :: _ :: _ :: _, stack => cases stack
    obtain rfl := x.met h.frames pos here
    have here' : At r' c' [b'] f' := by
      refine ⟨h.pending.symm.trans here.pending, stack', here.inside, ?_⟩
      rw [h.frames']
      change F'[(c'.raised 1).pos]? = some f'
      rw [pos]
      exact x.here'
    have facing : Facing r r' (c'.raised 1) c' [b'.raised 0] [b'] frame f' := by
      refine ⟨here, here', stage, stage, fun g => ?_, rfl⟩
      have higher := passAt_raised t r' c' b' [] g
      rw [← h.same] at higher
      exact higher.symm.trans (passAt_on size _ _ g)
    exact facing.fails x.toSwapped fails

theorem event (h : Twins F F' e b t r r') {given : Event} {pending : List Event}
    (first : r.turn = .event given { r with pending }) : Twins F F' e b t { r with pending } { r' with pending } where
  frames := h.frames
  descending := Descending.turns (.event first (.none _)) h.descending
  sheltered := h.sheltered.event pending
  seated := h.seated.event pending
  same := by
    have same := congrArg (fun p : Performance => { p with pending }) h.same
    exact same

/-- **While the body is performed** both give the same events. -/
theorem turns {m : Nat} {given : List Event} (run : Turns m r given s) (h : Twins F F' e b t r r')
    (x : Exchanged F F' b.pos f f' name) (named : e.procedure = some name) (stays : StaysAbove 1 m r) :
    ∃ s', Turns m r' given s' ∧ StaysAbove 1 m r' ∧ Twins F F' e b t s s' := by
  induction run generalizing r' with
  | none r => exact ⟨r', .none r', .zero h.inner, h⟩
  | @moved m r q s given first rest ih =>
    have stays' := stays.after_moved first
    obtain ⟨q', m', twins | left⟩ := h.moves x named (turn_moved_iff.1 first)
    · obtain ⟨s', run', high, twins'⟩ := ih twins stays'
      exact ⟨s', .moved m'.turn run', .moved h.inner m'.turn high, twins'⟩
    · have low := stays'.here
      rw [left.stack] at low
      exact absurd low (by simp)
  | @event m r q s e' given first rest ih =>
    have stays' := stays.after_event first
    obtain ⟨pending, hpending, rfl⟩ := turn_event_iff.1 first
    have first' : r'.turn = .event e' { r' with pending } :=
      turn_event_iff.2 ⟨pending, h.pending.symm.trans hpending, rfl⟩
    obtain ⟨s', run', high, twins'⟩ := ih (h.event first) stays'
    exact ⟨s', .event first' run', .event h.inner first' high, twins'⟩

/-- **The whole body** gives the same events in both, and then both fail or both leave it. -/
theorem performed {n : Nat} {given : List Event} {z : Performance} (h : Twins F F' e b t r r')
    (x : Exchanged F F' b.pos f f' name) (named : e.procedure = some name) (rest : Turns n r given z)
    (stopped : z.turn = .ended ∨ ∃ e z', z.turn = .failed e z') :
    ∃ m during q q', Turns m r during q ∧ StaysAbove 1 m r ∧ Turns m r' during q' ∧ StaysAbove 1 m r' ∧
      ((∃ e s s', FailAlike q q' e s s' ∧ s.timeline = t) ∨ ∃ s s', LeftAlike b t q q' s s') := by
  obtain ⟨m, during, q, body, stays, stop⟩ := turns_until rest stopped h.sheltered.length_lt
  obtain ⟨q', body', stays', twins⟩ := h.turns body x named stays
  refine ⟨m, during, q, q', body, stays, body', stays', ?_⟩
  rcases stop with ⟨e', s, failed⟩ | ⟨s, left, low⟩
  · have fails := turn_failed_iff.1 failed
    obtain ⟨s', alike⟩ := twins.fails x fails
    obtain ⟨own, kept⟩ := twins.sheltered.fails fails
    refine .inl ⟨e', s, s', alike, ?_⟩
    rw [timeline, timelineAt, ← kept]
    rfl
  · obtain ⟨s', _, twins' | leaves⟩ := twins.moves x named (turn_moved_iff.1 left)
    · exact absurd low (Nat.not_le.2 twins'.sheltered.length_lt)
    · exact .inr ⟨s, s', leaves⟩

end Twins

/-! ## The visit -/

/-- the directives of `b` go through in both performances and the body begins: from `q` on a copy of the timeline, and
from `q'` one turn later on the timeline itself -/
structure Begins (q q' : Performance) (b : Cursor) (name : String) (pass : Pass) (q₁ q₁' : Performance) : Prop where
  passed : ∃ frame, At q b [] frame ∧ q.passAt b [] frame = (pass, none)
  layered : q.turn = .moved q₁
  spliced : Turns 2 q' [] q₁'
  body : ∃ span, q₁.stack = [.start span 1 true (some name), b.directed pass] ∧
    q₁'.stack = [.start span 0 false (some name), (b.directed pass).placing]
  timelines : q₁.timelines = [pass.timeline, pass.timeline]
  timelines' : q₁'.timelines = [pass.timeline]
  song : q₁'.song = q₁.song

section Visit

variable {F F' : Array Frame} {j n : Nat} {f f' : Frame} {name : String} {q : Performance} {b : Cursor}

theorem Visits.facing (h : Visits j q b) (x : Exchanged F F' j f f' name) (frames : q.frames = F)
    (outermost : b.span = ⟨0, F.size⟩) : Facing q (q.on F') b b [] [] f f' := by
  obtain ⟨inside, _⟩ := Array.getElem?_eq_some_iff.1 x.here
  have stands : b.pos < b.span.stop := by
    rw [outermost, h.pos]
    exact inside
  have here : At q b [] f := ⟨h.pending, h.stack, stands, by rw [frames, h.pos]; exact x.here⟩
  have here' : At (q.on F') b [] f' := ⟨h.pending, h.stack, stands, by rw [h.pos]; exact x.here'⟩
  exact ⟨here, here', h.stage, h.stage, passAt_on (x.size.trans (by rw [frames])) b [], rfl⟩

/-- where the layered body begins after the directives of `b` -/
def layeredFrom (q : Performance) (b : Cursor) (pass : Pass) (span : Span) (name : String) : Performance :=
  (q.afterPass b.slot pass [b.directed pass]).layering b.slot span name

/-- where the spliced body begins after the same directives -/
def splicedFrom (q : Performance) (b : Cursor) (pass : Pass) (span : Span) (name : String) : Performance :=
  { Facing.directed q b [] name pass with stack := [(b.directed pass).placing] }.splicing b.slot span name

/-- one timeline higher, the spliced body begins as the layered one does -/
theorem layeredFrom_on {pass : Pass} {u : Timeline} (only : q.timelines = [u]) (slot : b.slot = 0)
    (unspliced : pass.spliced = none) (F' : Array Frame) (span : Span) (name : String) :
    (q.layeredFrom b pass span name).on F' = ((q.on F').splicedFrom b pass span name).raised pass.timeline := by
  have waiting : ((b.directed pass).placing).raised 0 = b.directed pass := by
    simp only [Cursor.placing, Cursor.directed, Cursor.raised, unspliced]
  simp only [layeredFrom, splicedFrom, Facing.directed, layering, splicing, afterPass, Performance.on, raised,
    raisedStack, timelineAt, only, slot, Pass.splicing, Pass.carrying]
  simp only [List.length_nil, waiting]
  rfl

/-- the top level is alone: its cursor goes through the whole sequence, on the only timeline -/
theorem Visits.alone (h : Visits j q b) (seated : Seated q) :
    b.span = ⟨0, q.frames.size⟩ ∧ b.slot = 0 ∧ ∃ u, q.timelines = [u] := by
  obtain ⟨outermost, slot, shares, _⟩ := seated.disciplined.lowest [] b h.stack
  refine ⟨outermost, slot, ?_⟩
  rw [← List.length_eq_one_iff, seated.timelines, h.stack]
  simp [shares]

/-- the directives go through and the procedure can be performed: the body begins in both performances -/
theorem Visits.enters {pass : Pass} {span : Span} (h : Visits j q b) (x : Exchanged F F' j f f' name)
    (frames : q.frames = F) (seated : Seated q) (seated' : Seated (q.on F')) (descending : Descending q)
    (facing : Facing q (q.on F') b b [] [] f f') (passed : q.passAt b [] f = (pass, none))
    (resolved : (q.afterPass b.slot pass [b.directed pass]).resolve name = .ok span) :
    ∃ e q₁ q₁', Begins q (q.on F') b name pass q₁ q₁' ∧ e.procedure = some name ∧
      Twins F F' e (b.directed pass) pass.timeline q₁ q₁' := by
  obtain ⟨_, slot, u, only⟩ := h.alone seated
  obtain ⟨_, _, calls, splices, _⟩ := run_order_passed passed
  have m : Moves q (q.layeredFrom b pass span name) :=
    .layered facing.here h.stage passed (calls.trans x.layers) resolved
  have here' : At (Facing.directed (q.on F') b [] name pass) (b.directed (pass.splicing name)) [] f' :=
    ⟨h.pending, rfl, facing.here'.inside, facing.here'.frame⟩
  have m' : Moves _ ((q.on F').splicedFrom b pass span name) :=
    Moves.spliced (c := b.directed (pass.splicing name)) here' rfl rfl ((facing.resolve pass name).trans resolved)
  have run' : Turns 2 (q.on F') [] _ := .moved (facing.step x.toSwapped passed) (.moved m'.turn (.none _))
  have same := layeredFrom_on only slot (splices.trans x.unspliced) F' span name
  have timelines' : ((q.on F').splicedFrom b pass span name).timelines = [pass.timeline] := by
    change q.timelines.set b.slot pass.timeline = _
    rw [only, slot]
    rfl
  have timelines : (q.layeredFrom b pass span name).timelines = [pass.timeline, pass.timeline] := by
    have kept := congrArg Performance.timelines same
    change _ = pass.timeline :: ((q.on F').splicedFrom b pass span name).timelines at kept
    rwa [timelines'] at kept
  have stack : (q.layeredFrom b pass span name).stack = [.start span 1 true (some name), b.directed pass] := by
    simp [layeredFrom, layering, afterPass, only]
  have stack' : ((q.on F').splicedFrom b pass span name).stack =
      [.start span 0 false (some name), (b.directed pass).placing] := by
    rw [← slot]
    rfl
  have sheltered : Sheltered (.start span 1 true (some name)) [b.directed pass] [pass.timeline]
      (q.layeredFrom b pass span name) := by
    have deeper : q.stack.length < (q.layeredFrom b pass span name).stack.length := by
      rw [h.stack, stack]
      exact Nat.lt_succ_self 1
    obtain ⟨_, _, _, _, _, sheltered⟩ := seated.forks m stack deeper rfl
    rwa [timelines] at sheltered
  have begins : Begins q (q.on F') b name pass _ _ :=
    ⟨⟨f, facing.here, passed⟩, m.turn, run', ⟨span, stack, stack'⟩, timelines, timelines', rfl⟩
  exact ⟨_, _, _, begins, rfl, frames, descending.moves m, sheltered, seated'.turns run', same⟩

/-- **The visit.** Both performances fail, or the body begins in both. -/
theorem Visits.calls (h : Visits j q b) (x : Exchanged F F' j f f' name) (frames : q.frames = F) (seated : Seated q)
    (seated' : Seated (q.on F')) (descending : Descending q) :
    (∃ e s s', FailAlike q (q.on F') e s s') ∨
      ∃ pass e q₁ q₁', Begins q (q.on F') b name pass q₁ q₁' ∧ e.procedure = some name ∧
        Twins F F' e (b.directed pass) pass.timeline q₁ q₁' := by
  have outermost : b.span = ⟨0, F.size⟩ := by
    rw [← frames]
    exact (h.alone seated).1
  have facing := h.facing x frames outermost
  rcases passed : q.passAt b [] f with ⟨pass, _ | fault⟩
  · cases resolved : (q.afterPass b.slot pass [b.directed pass]).resolve name with
    | error fault =>
      have layered : pass.layered = some name := (run_order_passed passed).2.2.1.trans x.layers
      obtain ⟨s', alike⟩ := facing.fails x.toSwapped (.layer facing.here h.stage passed layered resolved)
      exact .inl ⟨_, _, s', alike⟩
    | ok span => exact .inr ⟨pass, h.enters x frames seated seated' descending facing passed resolved⟩
  · obtain ⟨s', alike⟩ := facing.fails x.toSwapped (.directive facing.here h.stage passed)
    exact .inl ⟨_, _, s', alike⟩

end Visit

/-- **Layering or splicing.** Two sequences differ only in one frame, which layers a procedure in one of them and
splices it in the other; both are performed from the same song and timeline. Until the top level comes to that frame
they do the same. At the visit both fail with the same error and the same song, or the body begins in both. Then it
gives the same events in both, until both fail with the same error and the same song, or both leave it with the same
song. Where it was layered, the top-level timeline is then the one that the directives of the frame left; where it was
spliced, it is the one that the copy shows when its cursor is done. -/
theorem layered_or_spliced {F F' : Array Frame} {j : Nat} {f f' : Frame} {name : String}
    (x : Exchanged F F' j f f' name) (song : Song) (timeline : Timeline) :
    (∀ n given q, Turns n (start F song timeline) given q → Approaches j q.stack →
      Turns n (start F' song timeline) given (q.on F') ∧
        ((∃ b, Visits j q b) ∨ ∀ e s, q.turn = .failed e s → (q.on F').turn = .failed e (s.on F'))) ∧
    ∀ n given q b, Turns n (start F song timeline) given q → Visits j q b →
      (∃ e s s', FailAlike q (q.on F') e s s') ∨
      ∃ pass q₁ q₁' m during r r', Begins q (q.on F') b name pass q₁ q₁' ∧
        Turns m q₁ during r ∧ StaysAbove 1 m q₁ ∧ Turns m q₁' during r' ∧ StaysAbove 1 m q₁' ∧
          ((∃ e s s', FailAlike r r' e s s' ∧ s.timeline = pass.timeline) ∨
            ∃ s s', LeftAlike (b.directed pass) pass.timeline r r' s s') := by
  have same : (start F song timeline).on F' = start F' song timeline := by
    simp only [start, Performance.on, x.size]
  have descending : ∀ {n given q}, Turns n (start F song timeline) given q → Descending q :=
    fun run => Descending.turns run (descending_start F song timeline)
  have before : ∀ n given q, Turns n (start F song timeline) given q → Approaches j q.stack →
      Turns n (start F' song timeline) given (q.on F') := by
    intro n given q run approaches
    have run' := run.on x rfl (descending_start F song timeline) approaches
    rwa [same] at run'
  refine ⟨fun n given q run approaches => ⟨before n given q run approaches, ?_⟩, fun n given q b run visits => ?_⟩
  · refine or_iff_not_imp_left.2 fun visiting e s failed => ?_
    have fails := approaches.fails x run.kept.1 (descending run) (turn_failed_iff.1 failed)
    exact (fails.resolve_left visiting).turn
  · have run' := before n given q run ⟨b, by rw [visits.stack]; rfl, .inr ⟨visits.pos, visits.stage⟩⟩
    have seated := (Seated.start F song timeline).turns run
    have seated' := (Seated.start F' song timeline).turns run'
    rcases visits.calls x run.kept.1 seated seated' (descending run) with
      failing | ⟨pass, e, q₁, q₁', begins, named, twins⟩
    · exact .inl failing
    · right
      have x' : Exchanged F F' (b.directed pass).pos f f' name := by
        rw [← visits.pos] at x
        exact x
      obtain ⟨_, _, _, rest, _, stopped⟩ := turns_stop (run.trans (.moved begins.layered (.none q₁)))
      obtain ⟨m, during, r, r', performed⟩ := twins.performed x' named rest stopped
      exact ⟨pass, q₁, q₁', m, during, r, r', begins, performed⟩

/-- a frame that calls a procedure by a directive -/
def calling (call : Directive) : Frame := ⟨2, ⟨[(call.key, "p"), ("measure", "4")]⟩, [⟨1, 1, .blue, none, .all⟩], []⟩

/-- a procedure that sets a measure, and a frame that calls it -/
def calledOnce (call : Directive) : Array Frame :=
  #[⟨1, ⟨[("proc", "p"), ("measure", "2")]⟩, [⟨0, 0, .red, none, .all⟩], []⟩, calling call]

/-- the body begins in both performances, gives the same events, and both leave it -/
theorem calledOnce_alike :
    Exchanged (calledOnce .layer) (calledOnce .splice) 1 (calling .layer) (calling .splice) "p" ∧
      ∃ given q b pass q₁ q₁' m during r r' s s', Turns 4 (start (calledOnce .layer) .blank .start) given q ∧
        Turns 4 (start (calledOnce .splice) .blank .start) given (q.on (calledOnce .splice)) ∧ Visits 1 q b ∧
        Begins q (q.on (calledOnce .splice)) b "p" pass q₁ q₁' ∧ Turns m q₁ during r ∧ Turns m q₁' during r' ∧
        LeftAlike (b.directed pass) pass.timeline r r' s s' := by
  have exchanged : Exchanged (calledOnce .layer) (calledOnce .splice) 1 (calling .layer) (calling .splice) "p" := by
    refine ⟨⟨rfl, ?_, rfl, rfl, rfl, rfl⟩, rfl, rfl, rfl, ?_⟩
    · intro d _ _
      cases d <;> first | contradiction | decide
    · intro i hi
      match i with
      | 0 => rfl
      | 1 => exact absurd rfl hi
      | i + 2 => simp [calledOnce]
  have succeeds : (start (calledOnce .layer) .blank .start).drain.error = none := by decide +kernel
  have never : ∀ {n given r e s}, Turns n (start (calledOnce .layer) .blank .start) given r →
      r.turn = .failed e s → False := by
    intro n given r e s run failed
    rw [drain_of_failed run (turns_lt_bound run) failed] at succeeds
    cases succeeds
  obtain ⟨given, q, b, run, visits⟩ : ∃ given q b, Turns 4 (start (calledOnce .layer) .blank .start) given q ∧
      Visits 1 q b :=
    ⟨_, _, _, .moved rfl (.moved rfl (.moved rfl (.event rfl (.none _)))), rfl, rfl, rfl, rfl⟩
  obtain ⟨before, visit⟩ := layered_or_spliced exchanged .blank .start
  obtain ⟨run', _⟩ := before 4 given q run ⟨b, by rw [visits.stack]; rfl, .inr ⟨visits.pos, visits.stage⟩⟩
  rcases visit 4 given q b run visits with
    ⟨e, s, s', alike⟩ | ⟨pass, q₁, q₁', m, during, r, r', begins, body, _, body', _, stop⟩
  · exact (never run alike.failed).elim
  rcases stop with ⟨e, s, s', alike, _⟩ | ⟨s, s', left⟩
  · exact (never (run.trans (.moved begins.layered body)) alike.failed).elim
  · exact ⟨exchanged, given, q, b, pass, q₁, q₁', m, during, r, r', s, s', run, run', visits, begins, body, body', left⟩

end RhythmChart.Performance
