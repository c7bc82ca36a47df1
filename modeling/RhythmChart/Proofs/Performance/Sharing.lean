/-
The same body on a copy of a timeline and on the timeline itself.

A turn reads one frame at most, so a performance can be continued in other frames as long as these have the frame that
is read (`Moves.on`, `Fails.on`). And a body does the same whether it works on the top-level timeline or on a copy that
comes after it: `p.raised t` is `p` with a timeline `t` kept below its own, where the body that the lowest cursor calls
has been layered and not spliced. Its moves and failures are those of `p` (`Moves.raised`, `Fails.raised`) until that
body is left: then one drops the copy and the other keeps what the body made of the timeline.

Main results: `moves_of_raised`, `fails_of_raised`.
-/
import Mathlib.Tactic
import RhythmChart.Proofs.Performance.Discipline

namespace RhythmChart.Performance

/-- a name resolves by the procedures that the cursors perform and by the registry -/
theorem resolve_congr {p q : Performance} (names : p.stack.map (·.procedure) = q.stack.map (·.procedure))
    (procedures : p.procedures = q.procedures) (name : String) : p.resolve name = q.resolve name := by
  have active : p.stack.any (·.procedure = some name) = q.stack.any (·.procedure = some name) := by
    have h := congrArg (List.any · (· = some name)) names
    simpa only [List.any_map, Function.comp_def] using h
  simp only [resolve, active, procedures]

/-! ## Other frames -/

/-- the performance at the same place of other frames -/
def on (F : Array Frame) (p : Performance) : Performance := { p with frames := F, bound := turnBound F }

section On

variable {F : Array Frame} {p q : Performance} {c : Cursor} {below : List Cursor} {frame : Frame} {e : Error}

theorem At.on (here : At p c below frame) (same : F[c.pos]? = some frame) : At (p.on F) c below frame :=
  ⟨here.pending, here.stack, here.inside, same⟩

theorem passAt_on (size : F.size = p.frames.size) (c : Cursor) (below : List Cursor) (frame : Frame) :
    (p.on F).passAt c below frame = p.passAt c below frame := by
  unfold passAt Performance.on
  rw [size]
  rfl

/-- a move in other frames that have the frame it reads -/
theorem Moves.on (m : Moves p q) (size : F.size = p.frames.size)
    (same : ∀ c below frame, At p c below frame → F[c.pos]? = some frame) : Moves (p.on F) (q.on F) := by
  cases m with
  | left pending stack done =>
    refine .left pending stack (done.imp_right fun absent => ?_)
    change F[_]? = none
    rw [Array.getElem?_eq_none_iff] at absent ⊢
    omega
  | directed here stage passed layered =>
    exact .directed (here.on (same _ _ _ here)) stage ((passAt_on size _ _ _).trans passed) layered
  | layered here stage passed layered resolved =>
    exact .layered (here.on (same _ _ _ here)) stage ((passAt_on size _ _ _).trans passed) layered resolved
  | unspliced here stage spliced => exact .unspliced (here.on (same _ _ _ here)) stage spliced
  | spliced here stage spliced resolved => exact .spliced (here.on (same _ _ _ here)) stage spliced resolved
  | placed here stage => exact .placed (here.on (same _ _ _ here)) stage

/-- a failure in other frames that have the frame it reads -/
theorem Fails.on (f : Fails p e q) (size : F.size = p.frames.size)
    (same : ∀ c below frame, At p c below frame → F[c.pos]? = some frame) : Fails (p.on F) e (q.on F) := by
  cases f with
  | directive here stage refused =>
    exact .directive (here.on (same _ _ _ here)) stage ((passAt_on size _ _ _).trans refused)
  | layer here stage passed layered refused =>
    exact .layer (here.on (same _ _ _ here)) stage ((passAt_on size _ _ _).trans passed) layered refused
  | splice here stage spliced refused => exact .splice (here.on (same _ _ _ here)) stage spliced refused

end On

/-! ## One more timeline -/

/-- a cursor with `depth` cursors below it, one timeline higher: the lowest waits for a layered procedure where it
waited for a spliced one, and the one above it has a copy of its own -/
def Cursor.raised : Nat → Cursor → Cursor
  | 0, c => { c with stage := .splice }
  | depth + 1, c => { c with slot := c.slot + 1, ownsSlot := c.ownsSlot || depth == 0 }

/-- the cursors, each one timeline higher -/
def raisedStack : List Cursor → List Cursor
  | [] => []
  | c :: below => c.raised below.length :: raisedStack below

/-- the performance with a timeline kept below its own, on whose copy the lowest body is performed -/
def raised (t : Timeline) (p : Performance) : Performance :=
  { p with timelines := t :: p.timelines, stack := raisedStack p.stack }

theorem raisedStack_length (cs : List Cursor) : (raisedStack cs).length = cs.length := by
  induction cs with
  | nil => rfl
  | cons c below ih => rw [raisedStack, List.length_cons, List.length_cons, ih]

theorem raisedStack_names (cs : List Cursor) : (raisedStack cs).map (·.procedure) = cs.map (·.procedure) := by
  induction cs with
  | nil => rfl
  | cons c below ih =>
    rw [raisedStack, List.map_cons, List.map_cons, ih]
    cases below <;> rfl

section Raised

variable {t : Timeline} {p q : Performance} {c d : Cursor} {below : List Cursor} {frame : Frame} {e : Error}

theorem resolve_raised (t : Timeline) (p : Performance) (name : String) :
    (p.raised t).resolve name = p.resolve name :=
  resolve_congr (p := p.raised t) (raisedStack_names p.stack) rfl name

/-- a cursor that is not the only one stands on another one -/
theorem At.caller (here : At p c below frame) (inner : 2 ≤ p.stack.length) : ∃ d rest, below = d :: rest := by
  rw [here.stack, List.length_cons] at inner
  exact List.exists_cons_of_length_pos (by omega)

theorem At.raised (here : At p c (d :: below) frame) (t : Timeline) :
    At (p.raised t) (c.raised (below.length + 1)) (raisedStack (d :: below)) frame where
  pending := here.pending
  stack := by
    change raisedStack p.stack = _
    rw [here.stack]
    rfl
  inside := here.inside
  frame := here.frame

theorem passAt_raised (t : Timeline) (p : Performance) (c d : Cursor) (below : List Cursor) (frame : Frame) :
    (p.raised t).passAt (c.raised (below.length + 1)) (raisedStack (d :: below)) frame =
      p.passAt c (d :: below) frame := rfl

/-- **A move, one timeline higher.** It is the same move, unless it leaves the lowest body. -/
theorem Moves.raised (m : Moves p q) (inner : 2 ≤ p.stack.length) (copies : p.timelines ≠ []) (t : Timeline) :
    2 ≤ q.stack.length ∧ Moves (p.raised t) (q.raised t) ∨
      ∃ c b, p.stack = [c, b] ∧ q = p.leave c [b] ∧
        Moves (p.raised t) ((p.raised t).leave (c.raised 1) (raisedStack [b])) := by
  cases m with
  | @left c below pending stack done =>
    have stack' : (p.raised t).stack = c.raised below.length :: raisedStack below := by
      change raisedStack p.stack = _
      rw [stack]
      rfl
    match below with
    | [] =>
      rw [stack] at inner
      exact absurd inner (by simp)
    | [b] => exact .inr ⟨c, b, stack, rfl, .left pending stack' done⟩
    | d :: d' :: below =>
      refine .inl ⟨by simp [leave], ?_⟩
      have left : Moves (p.raised t) _ := .left pending stack' done
      have same : (p.raised t).leave (c.raised (d :: d' :: below).length) (raisedStack (d :: d' :: below)) =
          (p.leave c (d :: d' :: below)).raised t := by
        have owns : (c.raised (d :: d' :: below).length).ownsSlot = c.ownsSlot := by simp [Cursor.raised]
        simp only [leave, owns, Performance.raised, List.dropLast_cons_of_ne_nil copies]
        split <;> rfl
      rwa [same] at left
  | directed here stage passed layered =>
    obtain ⟨d, rest, rfl⟩ := here.caller inner
    exact .inl ⟨by simp [afterPass], .directed (here.raised t) stage passed layered⟩
  | layered here stage passed layered resolved =>
    obtain ⟨d, rest, rfl⟩ := here.caller inner
    refine .inl ⟨by simp [layering, afterPass], ?_⟩
    exact .layered (here.raised t) stage passed layered ((resolve_raised t _ _).trans resolved)
  | unspliced here stage spliced =>
    obtain ⟨d, rest, rfl⟩ := here.caller inner
    exact .inl ⟨by simp, .unspliced (here.raised t) stage spliced⟩
  | spliced here stage spliced resolved =>
    obtain ⟨d, rest, rfl⟩ := here.caller inner
    refine .inl ⟨by simp [splicing], ?_⟩
    exact .spliced (here.raised t) stage spliced ((resolve_raised t _ _).trans resolved)
  | placed here stage =>
    obtain ⟨d, rest, rfl⟩ := here.caller inner
    exact .inl ⟨by simp, .placed (here.raised t) stage⟩

/-- a failure, one timeline higher -/
theorem Fails.raised (f : Fails p e q) (inner : 2 ≤ p.stack.length) (t : Timeline) :
    Fails (p.raised t) e (q.raised t) := by
  cases f with
  | directive here stage refused =>
    obtain ⟨d, rest, rfl⟩ := here.caller inner
    exact .directive (here.raised t) stage refused
  | layer here stage passed layered refused =>
    obtain ⟨d, rest, rfl⟩ := here.caller inner
    exact .layer (here.raised t) stage passed layered ((resolve_raised t _ _).trans refused)
  | splice here stage spliced refused =>
    obtain ⟨d, rest, rfl⟩ := here.caller inner
    exact .splice (here.raised t) stage spliced ((resolve_raised t _ _).trans refused)

/-- **A move of the higher one** is a move of the other, and leads one timeline higher again, unless it leaves the lowest
body. -/
theorem moves_of_raised {u : Performance} (m : Moves (p.raised t) u) (inner : 2 ≤ p.stack.length)
    (copies : p.timelines ≠ []) :
    ∃ q, Moves p q ∧ (2 ≤ q.stack.length ∧ u = q.raised t ∨
      ∃ c b, p.stack = [c, b] ∧ q = p.leave c [b] ∧ u = (p.raised t).leave (c.raised 1) (raisedStack [b])) := by
  have unique : ∀ {u'}, Moves (p.raised t) u' → u = u' := by
    intro u' m'
    have h := m.turn.symm.trans m'.turn
    cases h
    rfl
  rcases p.turn_cases with ⟨e, rest, pending, _⟩ | ⟨q, m'⟩ | ⟨e, q, f⟩ | ⟨_, stack, _⟩
  · have gives : (p.raised t).turn = .event e _ := turn_event_iff.2 ⟨rest, pending, rfl⟩
    rw [m.turn] at gives
    cases gives
  · refine ⟨q, m', ?_⟩
    rcases m'.raised inner copies t with ⟨inner', higher⟩ | ⟨c, b, stack, left, higher⟩
    · exact .inl ⟨inner', unique higher⟩
    · exact .inr ⟨c, b, stack, left, unique higher⟩
  · have failed := (f.raised inner t).turn
    rw [m.turn] at failed
    cases failed
  · rw [stack] at inner
    exact absurd inner (by simp)

/-- **A failure of the higher one** is a failure of the other. -/
theorem fails_of_raised {u : Performance} (f : Fails (p.raised t) e u) (inner : 2 ≤ p.stack.length)
    (copies : p.timelines ≠ []) : ∃ q, Fails p e q ∧ u = q.raised t := by
  rcases p.turn_cases with ⟨e, rest, pending, _⟩ | ⟨q, m⟩ | ⟨e', q, f'⟩ | ⟨_, stack, _⟩
  · have gives : (p.raised t).turn = .event e _ := turn_event_iff.2 ⟨rest, pending, rfl⟩
    rw [f.turn] at gives
    cases gives
  · rcases m.raised inner copies t with ⟨_, higher⟩ | ⟨_, _, _, _, higher⟩
    · have moved := higher.turn
      rw [f.turn] at moved
      cases moved
    · have moved := higher.turn
      rw [f.turn] at moved
      cases moved
  · have failed := f.turn.symm.trans (f'.raised inner t).turn
    cases failed
    exact ⟨q, f', rfl⟩
  · rw [stack] at inner
    exact absurd inner (by simp)

end Raised

end RhythmChart.Performance
