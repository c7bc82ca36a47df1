/-
The moves of a performance, one constructor for each thing a turn can do.

`turn` decides by nested cases what to do next; here each outcome is a rule of its own. `Moves p q`: the turn of `p`
works on a cursor and leads to `q`. `Fails p e q`: it fails with `e`. Every turn is one of these, or gives a pending
event, or ends:
- `turn_moved_iff`, `turn_failed_iff`, `turn_event_iff`, `turn_ended_iff`.

Runs of several turns are counted (`Turns`). The fuel of `next` and `drain` is behind these statements:
- `next_of_turns`: `next` gives the first answer that the turns lead to, when that takes fewer turns than the bound;
- `drain_of_ended`, `drain_of_failed`: `drain` collects exactly the events of a run that ends or fails within the bound.
-/
import Mathlib.Tactic
import RhythmChart.Performance

namespace RhythmChart.Performance

/-! ## One turn -/

/-- nothing is pending and the innermost cursor `c` is at `frame`, inside its span -/
structure At (p : Performance) (c : Cursor) (below : List Cursor) (frame : Frame) : Prop where
  pending : p.pending = []
  stack : p.stack = c :: below
  inside : c.pos < c.span.stop
  frame : p.frames[c.pos]? = some frame

/-- the directive pass of the frame at which the innermost cursor `c` is -/
def passAt (p : Performance) (c : Cursor) (below : List Cursor) (frame : Frame) : Pass × Option Fault :=
  Pass.run ⟨c.pos, p.frames.size, below.isEmpty⟩ frame Directive.order (.start p.song (p.timelineAt c.slot) p.procedures)

/-- the performance with the effects of a directive pass on a timeline, and with the given cursors -/
def afterPass (p : Performance) (slot : Nat) (pass : Pass) (stack : List Cursor) : Performance :=
  { p with
    song := pass.song
    procedures := pass.procedures
    timelines := p.timelines.set slot pass.timeline
    stack }

theorem timelineAt_afterPass {p : Performance} {slot : Nat} (inside : slot < p.timelines.length) (pass : Pass)
    (stack : List Cursor) : (p.afterPass slot pass stack).timelineAt slot = pass.timeline := by
  rw [timelineAt, List.getD_eq_getElem?_getD]
  exact congrArg (Option.getD · .start) (List.getElem?_set_self inside)

/-- the performance where a body begins on a copy of a timeline -/
def layering (p : Performance) (slot : Nat) (span : Span) (name : String) : Performance :=
  { p with
    timelines := p.timelines ++ [p.timelineAt slot]
    stack := .start span p.timelines.length true (some name) :: p.stack }

/-- the performance where a body begins on a timeline itself -/
def splicing (p : Performance) (slot : Nat) (span : Span) (name : String) : Performance :=
  { p with stack := .start span slot false (some name) :: p.stack }

/-- a cursor whose directive pass went through -/
def Cursor.directed (c : Cursor) (pass : Pass) : Cursor :=
  { c with frameOffset := pass.frameOffset, spliced := pass.spliced, stage := .splice }

/-- a cursor whose spliced procedure has been dealt with -/
def Cursor.placing (c : Cursor) : Cursor := { c with stage := .place, spliced := none }

/-- a cursor at its next frame -/
def Cursor.advanced (c : Cursor) : Cursor := { c with pos := c.pos + 1, stage := .directives }

/-- the turn of `p` leads to `q` without an answer -/
inductive Moves (p : Performance) : Performance → Prop where
  /-- the span of the innermost cursor is done -/
  | left {c : Cursor} {below : List Cursor} (pending : p.pending = []) (stack : p.stack = c :: below)
      (done : c.span.stop ≤ c.pos ∨ p.frames[c.pos]? = none) : Moves p (p.leave c below)
  /-- directives without a layered procedure -/
  | directed {c : Cursor} {below : List Cursor} {frame : Frame} {pass : Pass} (here : At p c below frame)
      (stage : c.stage = .directives) (passed : p.passAt c below frame = (pass, none)) (layered : pass.layered = none) :
      Moves p (p.afterPass c.slot pass (c.directed pass :: below))
  /-- directives with a layered procedure, which starts on a copy of the timeline -/
  | layered {c : Cursor} {below : List Cursor} {frame : Frame} {pass : Pass} {name : String} {span : Span}
      (here : At p c below frame) (stage : c.stage = .directives) (passed : p.passAt c below frame = (pass, none))
      (layered : pass.layered = some name)
      (resolved : (p.afterPass c.slot pass (c.directed pass :: below)).resolve name = .ok span) :
      Moves p ((p.afterPass c.slot pass (c.directed pass :: below)).layering c.slot span name)
  /-- no spliced procedure -/
  | unspliced {c : Cursor} {below : List Cursor} {frame : Frame} (here : At p c below frame)
      (stage : c.stage = .splice) (spliced : c.spliced = none) : Moves p { p with stack := c.placing :: below }
  /-- a spliced procedure, which starts on the timeline itself -/
  | spliced {c : Cursor} {below : List Cursor} {frame : Frame} {name : String} {span : Span} (here : At p c below frame)
      (stage : c.stage = .splice) (spliced : c.spliced = some name)
      (resolved : { p with stack := c.placing :: below }.resolve name = .ok span) :
      Moves p ({ p with stack := c.placing :: below }.splicing c.slot span name)
  /-- the frame's own placements -/
  | placed {c : Cursor} {below : List Cursor} {frame : Frame} (here : At p c below frame) (stage : c.stage = .place) :
      Moves p { p with
        pending := stamp frame (p.timelineAt c.slot) c.frameOffset
        timelines := p.timelines.set c.slot (p.timelineAt c.slot).advance
        stack := c.advanced :: below }

/-- the turn of `p` fails with an error and leaves the performance as given -/
inductive Fails (p : Performance) : Error → Performance → Prop where
  /-- a directive fails -/
  | directive {c : Cursor} {below : List Cursor} {frame : Frame} {pass : Pass} {fault : Fault} (here : At p c below frame)
      (stage : c.stage = .directives) (refused : p.passAt c below frame = (pass, some fault)) :
      Fails p ⟨frame.line, fault⟩ (p.afterPass c.slot pass [])
  /-- the layered procedure cannot be performed -/
  | layer {c : Cursor} {below : List Cursor} {frame : Frame} {pass : Pass} {name : String} {fault : Fault}
      (here : At p c below frame) (stage : c.stage = .directives) (passed : p.passAt c below frame = (pass, none))
      (layered : pass.layered = some name)
      (refused : (p.afterPass c.slot pass (c.directed pass :: below)).resolve name = .error fault) :
      Fails p ⟨frame.line, fault⟩ (p.afterPass c.slot pass [])
  /-- the spliced procedure cannot be performed -/
  | splice {c : Cursor} {below : List Cursor} {frame : Frame} {name : String} {fault : Fault} (here : At p c below frame)
      (stage : c.stage = .splice) (spliced : c.spliced = some name)
      (refused : { p with stack := c.placing :: below }.resolve name = .error fault) :
      Fails p ⟨frame.line, fault⟩ { p with stack := [] }

theorem turn_at {p : Performance} {c : Cursor} {below : List Cursor} {frame : Frame} (here : At p c below frame) :
    p.turn = match p.step c below frame with
      | (q, none) => .moved q
      | (q, some e) => .failed e { q with stack := [] } := by
  rcases hstep : p.step c below frame with ⟨q, e | e⟩ <;>
    simp only [turn, here.pending, here.stack, here.frame, Nat.not_le.2 here.inside, if_false, hstep]

theorem Moves.turn {p q : Performance} (h : Moves p q) : p.turn = .moved q := by
  cases h with
  | left pending stack done =>
    rcases done with done | done
    · simp only [Performance.turn, pending, stack, done, if_true]
    · simp only [Performance.turn, pending, stack, done, ite_self]
  | directed here stage passed layered =>
    rw [turn_at here]
    unfold passAt at passed
    simp only [step, stage, passed, layered, afterPass, Cursor.directed]
  | layered here stage passed layered resolved =>
    rw [turn_at here]
    unfold passAt at passed
    simp only [afterPass, Cursor.directed] at resolved
    simp only [step, stage, passed, layered, layer, resolved, layering, afterPass, Cursor.directed]
  | unspliced here stage spliced =>
    rw [turn_at here]
    simp only [step, stage, spliced, Cursor.placing]
  | spliced here stage spliced resolved =>
    rw [turn_at here]
    simp only [Cursor.placing] at resolved
    simp only [step, stage, spliced, splice, resolved, splicing, Cursor.placing]
  | placed here stage =>
    rw [turn_at here]
    simp only [step, stage, here.pending, List.nil_append, Cursor.advanced]

theorem Fails.turn {p q : Performance} {e : Error} (h : Fails p e q) : p.turn = .failed e q := by
  cases h with
  | directive here stage refused =>
    rw [turn_at here]
    unfold passAt at refused
    simp only [step, stage, refused, afterPass]
  | layer here stage passed layered refused =>
    rw [turn_at here]
    unfold passAt at passed
    simp only [afterPass, Cursor.directed] at refused
    simp only [step, stage, passed, layered, Performance.layer, refused, afterPass]
  | splice here stage spliced refused =>
    rw [turn_at here]
    simp only [Cursor.placing] at refused
    simp only [step, stage, spliced, Performance.splice, refused]

/-- a turn at a frame is a move or a failure -/
theorem moves_or_fails {p : Performance} {c : Cursor} {below : List Cursor} {frame : Frame} (here : At p c below frame) :
    (∃ q, Moves p q) ∨ ∃ e q, Fails p e q := by
  cases stage : c.stage with
  | directives =>
    rcases passed : p.passAt c below frame with ⟨pass, fault | fault⟩
    · cases layered : pass.layered with
      | none => exact .inl ⟨_, .directed here stage passed layered⟩
      | some name =>
        cases resolved : (p.afterPass c.slot pass (c.directed pass :: below)).resolve name with
        | ok span => exact .inl ⟨_, .layered here stage passed layered resolved⟩
        | error fault => exact .inr ⟨_, _, .layer here stage passed layered resolved⟩
    · exact .inr ⟨_, _, .directive here stage passed⟩
  | splice =>
    cases spliced : c.spliced with
    | none => exact .inl ⟨_, .unspliced here stage spliced⟩
    | some name =>
      cases resolved : { p with stack := c.placing :: below }.resolve name with
      | ok span => exact .inl ⟨_, .spliced here stage spliced resolved⟩
      | error fault => exact .inr ⟨_, _, .splice here stage spliced resolved⟩
  | place => exact .inl ⟨_, .placed here stage⟩

/-- a turn gives a pending event, or moves, or fails, or there is nothing left -/
theorem turn_cases (p : Performance) :
    (∃ e pending, p.pending = e :: pending ∧ p.turn = .event e { p with pending }) ∨ (∃ q, Moves p q) ∨
      (∃ e q, Fails p e q) ∨ (p.pending = [] ∧ p.stack = [] ∧ p.turn = .ended) := by
  cases pending : p.pending with
  | cons e rest => exact .inl ⟨e, rest, rfl, by simp only [turn, pending]⟩
  | nil =>
    right
    cases stack : p.stack with
    | nil => exact .inr (.inr ⟨rfl, rfl, by simp only [turn, pending, stack]⟩)
    | cons c below =>
      by_cases done : c.span.stop ≤ c.pos
      · exact .inl ⟨_, .left pending stack (.inl done)⟩
      · cases frame : p.frames[c.pos]? with
        | none => exact .inl ⟨_, .left pending stack (.inr frame)⟩
        | some f =>
          rcases moves_or_fails ⟨pending, stack, Nat.not_le.1 done, frame⟩ with h | h
          · exact .inl h
          · exact .inr (.inl h)

theorem turn_moved_iff {p q : Performance} : p.turn = .moved q ↔ Moves p q := by
  refine ⟨fun h => ?_, Moves.turn⟩
  rcases p.turn_cases with ⟨e, rest, _, ht⟩ | ⟨r, hr⟩ | ⟨e, r, hr⟩ | ⟨_, _, ht⟩
  · rw [ht] at h; cases h
  · rw [hr.turn] at h; cases h; exact hr
  · rw [hr.turn] at h; cases h
  · rw [ht] at h; cases h

theorem turn_failed_iff {p q : Performance} {e : Error} : p.turn = .failed e q ↔ Fails p e q := by
  refine ⟨fun h => ?_, Fails.turn⟩
  rcases p.turn_cases with ⟨e', rest, _, ht⟩ | ⟨r, hr⟩ | ⟨e', r, hr⟩ | ⟨_, _, ht⟩
  · rw [ht] at h; cases h
  · rw [hr.turn] at h; cases h
  · rw [hr.turn] at h; cases h; exact hr
  · rw [ht] at h; cases h

theorem turn_event_iff {p q : Performance} {e : Event} :
    p.turn = .event e q ↔ ∃ pending, p.pending = e :: pending ∧ q = { p with pending } := by
  constructor
  · intro h
    rcases p.turn_cases with ⟨e', rest, hp, ht⟩ | ⟨r, hr⟩ | ⟨e', r, hr⟩ | ⟨_, _, ht⟩
    · rw [ht] at h; cases h; exact ⟨rest, hp, rfl⟩
    · rw [hr.turn] at h; cases h
    · rw [hr.turn] at h; cases h
    · rw [ht] at h; cases h
  · rintro ⟨rest, hp, rfl⟩
    simp only [turn, hp]

theorem turn_ended_iff {p : Performance} : p.turn = .ended ↔ p.pending = [] ∧ p.stack = [] := by
  constructor
  · intro h
    rcases p.turn_cases with ⟨e', rest, hp, ht⟩ | ⟨r, hr⟩ | ⟨e', r, hr⟩ | ⟨hp, hs, _⟩
    · rw [ht] at h; cases h
    · rw [hr.turn] at h; cases h
    · rw [hr.turn] at h; cases h
    · exact ⟨hp, hs⟩
  · rintro ⟨hp, hs⟩
    simp only [turn, hp, hs]

/-- what a move leaves as it is -/
theorem Moves.kept {p q : Performance} (h : Moves p q) : q.frames = p.frames ∧ q.bound = p.bound := by
  cases h <;> exact ⟨rfl, rfl⟩

/-! ## Runs of several turns -/

/-- `n` turns lead from one performance to another and give some events; none of them fails -/
inductive Turns : Nat → Performance → List Event → Performance → Prop where
  | none (p : Performance) : Turns 0 p [] p
  | moved {n : Nat} {p q r : Performance} {given : List Event} (first : p.turn = .moved q)
      (rest : Turns n q given r) : Turns (n + 1) p given r
  | event {n : Nat} {p q r : Performance} {e : Event} {given : List Event} (first : p.turn = .event e q)
      (rest : Turns n q given r) : Turns (n + 1) p (e :: given) r

namespace Turns

variable {m n : Nat} {p q r : Performance} {xs ys : List Event}

theorem trans (h : Turns m p xs q) (h' : Turns n q ys r) : Turns (m + n) p (xs ++ ys) r := by
  induction h with
  | none p => simpa using h'
  | moved first _ ih => rw [Nat.add_right_comm]; exact .moved first (ih h')
  | event first _ ih => rw [Nat.add_right_comm]; exact .event first (ih h')

theorem kept (h : Turns n p xs q) : q.frames = p.frames ∧ q.bound = p.bound := by
  induction h with
  | none p => exact ⟨rfl, rfl⟩
  | moved first _ ih =>
    obtain ⟨hf, hb⟩ := (turn_moved_iff.1 first).kept
    exact ⟨ih.1.trans hf, ih.2.trans hb⟩
  | event first _ ih =>
    obtain ⟨rest, _, rfl⟩ := turn_event_iff.1 first
    exact ih

/-- the turns up to the first event, the turn that gives it, and the turns after it -/
theorem uncons {e : Event} (h : Turns n p (e :: xs) r) :
    ∃ k l q q', Turns k p [] q ∧ q.turn = .event e q' ∧ Turns l q' xs r ∧ n = k + 1 + l := by
  generalize hes : e :: xs = es at h
  induction h with
  | none p => cases hes
  | moved first _ ih =>
    obtain ⟨k, l, q, q', hk, hq, hl, hn⟩ := ih hes
    exact ⟨k + 1, l, q, q', .moved first hk, hq, hl, by omega⟩
  | event first rest _ =>
    cases hes
    exact ⟨0, _, _, _, .none _, first, rest, by omega⟩

/-- of two runs from one performance the longer one goes on where the shorter one stops -/
theorem split_of_le (h : Turns n p xs q) (h' : Turns m p ys r) (hm : m ≤ n) :
    ∃ zs, Turns (n - m) r zs q ∧ xs = ys ++ zs := by
  induction h' generalizing n xs with
  | none p => exact ⟨xs, h, rfl⟩
  | @moved m p p' _ _ first _ ih =>
    cases h with
    | none => omega
    | moved first' rest =>
      rw [first] at first'; cases first'
      obtain ⟨zs, hz, hx⟩ := ih rest (by omega)
      exact ⟨zs, by rwa [Nat.add_sub_add_right], hx⟩
    | event first' _ => rw [first] at first'; cases first'
  | event first _ ih =>
    cases h with
    | none => omega
    | moved first' _ => rw [first] at first'; cases first'
    | event first' rest =>
      rw [first] at first'; cases first'
      obtain ⟨zs, hz, hx⟩ := ih rest (by omega)
      exact ⟨zs, by rwa [Nat.add_sub_add_right], by rw [hx]; rfl⟩

/-- no run is longer than one that cannot go on -/
theorem le_of_stopped (h : Turns n p xs q) (h' : Turns m p ys r)
    (hq : q.turn = .ended ∨ ∃ e q', q.turn = .failed e q') : m ≤ n := by
  by_contra hlt
  obtain ⟨zs, hz, _⟩ := split_of_le h' h (by omega)
  cases hk : m - n with
  | zero => omega
  | succ k =>
    rw [hk] at hz
    rcases hq with hq | ⟨e, q', hq⟩ <;> cases hz with
    | moved first _ => rw [hq] at first; cases first
    | event first _ => rw [hq] at first; cases first

end Turns

/-! ## The fuel of `next` and `drain` -/

/-- the answer that a turn gives, if it gives one -/
def Turn.answer? : Turn → Option (Answer × Performance)
  | .ended => none
  | .event e p => some (.event e, p)
  | .failed e p => some (.failed e, p)
  | .moved _ => none

theorem Turn.answer?_event {t : Turn} {e : Event} {p : Performance} :
    t.answer? = some (.event e, p) ↔ t = .event e p := by
  cases t <;> simp [Turn.answer?]

theorem Turn.answer?_failed {t : Turn} {e : Error} {p : Performance} :
    t.answer? = some (.failed e, p) ↔ t = .failed e p := by
  cases t <;> simp [Turn.answer?]

theorem nextWithin_of_turns {n fuel : Nat} {p q : Performance} (h : Turns n p [] q) :
    nextWithin (n + fuel) p = nextWithin fuel q := by
  generalize hes : ([] : List Event) = es at h
  induction h with
  | none p => rw [Nat.zero_add]
  | moved first _ ih => rw [Nat.add_right_comm, nextWithin, first]; exact ih hes
  | event => cases hes

/-- **The next answer.** Turns without an answer lead to one, and there are fewer of them than the bound. -/
theorem next_of_turns {n : Nat} {p q : Performance} {answer : Answer × Performance} (h : Turns n p [] q)
    (hn : n < p.bound) (hq : q.turn.answer? = some answer) : p.next = answer := by
  obtain ⟨k, hk⟩ : ∃ k, p.bound = n + (k + 1) := ⟨p.bound - n - 1, by omega⟩
  rw [next, hk, nextWithin_of_turns h, nextWithin]
  cases ht : q.turn with
  | ended => rw [ht] at hq; cases hq
  | moved => rw [ht] at hq; cases hq
  | event => rw [ht] at hq; exact Option.some.inj hq
  | failed => rw [ht] at hq; exact Option.some.inj hq

theorem next_of_ended {n : Nat} {p q : Performance} (h : Turns n p [] q) (hn : n < p.bound) (hq : q.turn = .ended) :
    p.next = (.ended, q) := by
  obtain ⟨k, hk⟩ : ∃ k, p.bound = n + (k + 1) := ⟨p.bound - n - 1, by omega⟩
  rw [next, hk, nextWithin_of_turns h, nextWithin, hq]

theorem drainWithin_of_turns (fuel : Nat) (before : List Event) {n : Nat} {p q : Performance} {given : List Event}
    (h : Turns n p given q) (hn : n < p.bound) :
    ∃ k r, Turns k r [] q ∧ k ≤ n ∧ r.bound = p.bound ∧
      drainWithin (given.length + fuel) before p = drainWithin fuel (given.reverse ++ before) r := by
  induction given generalizing n p before with
  | nil => exact ⟨n, p, h, le_rfl, rfl, by simp⟩
  | cons e es ih =>
    obtain ⟨k, l, p₁, p₂, hk, he, hl, hkl⟩ := h.uncons
    have hb : p₂.bound = p.bound := by
      obtain ⟨_, _, rfl⟩ := turn_event_iff.1 he
      exact hk.kept.2
    obtain ⟨k', r, hk', hle, hr, hd⟩ := ih (e :: before) hl (by omega)
    refine ⟨k', r, hk', by omega, hr.trans hb, ?_⟩
    have hnext : p.next = (.event e, p₂) := next_of_turns hk (by omega) (by rw [he]; rfl)
    rw [List.length_cons, Nat.add_right_comm, drainWithin, hnext]
    simpa using hd

theorem Turns.length_le {n : Nat} {p q : Performance} {given : List Event} (h : Turns n p given q) :
    given.length ≤ n := by
  induction h with
  | none p => exact le_rfl
  | moved _ _ ih => omega
  | event _ _ ih => simpa using ih

/-- **A run that ends.** -/
theorem drain_of_ended {n : Nat} {p q : Performance} {given : List Event} (h : Turns n p given q) (hn : n < p.bound)
    (hq : q.turn = .ended) : p.drain = ⟨given, none, q⟩ := by
  have hlen := h.length_le
  obtain ⟨k, hk⟩ : ∃ k, p.bound = given.length + (k + 1) := ⟨p.bound - given.length - 1, by omega⟩
  obtain ⟨l, r, hl, hle, hr, hd⟩ := drainWithin_of_turns (k + 1) [] h hn
  rw [drain, hk, hd, drainWithin, next_of_ended hl (by omega) hq]
  simp

/-- **A run that fails.** -/
theorem drain_of_failed {n : Nat} {p q q' : Performance} {given : List Event} {e : Error} (h : Turns n p given q)
    (hn : n < p.bound) (hq : q.turn = .failed e q') : p.drain = ⟨given, some e, q'⟩ := by
  have hlen := h.length_le
  obtain ⟨k, hk⟩ : ∃ k, p.bound = given.length + (k + 1) := ⟨p.bound - given.length - 1, by omega⟩
  obtain ⟨l, r, hl, hle, hr, hd⟩ := drainWithin_of_turns (k + 1) [] h hn
  have hnext : r.next = (.failed e, q') := next_of_turns hl (by omega) (by rw [hq]; rfl)
  rw [drain, hk, hd, drainWithin, hnext]
  simp

end RhythmChart.Performance
