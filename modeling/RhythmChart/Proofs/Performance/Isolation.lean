/-
A layered procedure leaves its caller alone.

When a frame layers a procedure, a cursor on a copy of the timeline comes on top of the stack. Until it is left again,
turns work on it or on cursors above it, and those have slots from the copy on (`Sheltered.slot_le`). So the timelines
below the copy stay as they are, and so do the cursors below; when the cursor is left, they are exactly what is left
(`Sheltered.moves`). A failure drops the cursors and still leaves the timelines (`Fails.touches`). The caller then goes
on from the timeline that its directives made (`Resumes`).

Main result: `layered_isolated`.
-/
import Mathlib.Tactic
import RhythmChart.Proofs.Performance.Discipline

namespace RhythmChart.Performance

/-! ## What a move may touch -/

theorem SameCursor.refl (c : Cursor) : SameCursor c c := ⟨rfl, rfl, rfl, rfl⟩

theorem SameCursor.trans {c d e : Cursor} (h : SameCursor c d) (h' : SameCursor d e) : SameCursor c e :=
  ⟨h'.span.trans h.span, h'.slot.trans h.slot, h'.ownsSlot.trans h.ownsSlot, h'.procedure.trans h.procedure⟩

theorem prefix_set {kept timelines : List Timeline} (h : kept <+: timelines) {slot : Nat} (hslot : kept.length ≤ slot)
    (t : Timeline) : kept <+: timelines.set slot t := by
  obtain ⟨own, rfl⟩ := h
  rw [List.set_append_right slot t hslot]
  exact List.prefix_append kept _

theorem At.innermost {p : Performance} {c d : Cursor} {rest below : List Cursor} {frame : Frame}
    (here : At p d below frame) (stack : p.stack = c :: rest) : c = d ∧ rest = below :=
  List.cons.inj (stack.symm.trans here.stack)

theorem At.high {p : Performance} {c : Cursor} {below : List Cursor} {frame : Frame} (here : At p c below frame) :
    below.length < p.stack.length := by
  rw [here.stack]
  exact Nat.lt_succ_self _

/-- only one cursor is the innermost, and it is at one frame -/
theorem At.unique {p : Performance} {c d : Cursor} {below rest : List Cursor} {f g : Frame} (here : At p c below f)
    (here' : At p d rest g) : d = c ∧ rest = below ∧ g = f := by
  obtain ⟨rfl, rfl⟩ := here'.innermost here.stack
  have same := here.frame.symm.trans here'.frame
  cases same
  exact ⟨rfl, rfl, rfl⟩

/-- a move leaves the innermost cursor, or works on it and perhaps on a new one above it, and on timelines from its
slot on -/
theorem Moves.touches {p q : Performance} {c : Cursor} {rest : List Cursor} (m : Moves p q)
    (stack : p.stack = c :: rest) :
    (p.pending = [] ∧ q = p.leave c rest) ∨
      ∃ new d, q.stack = new ++ d :: rest ∧ SameCursor c d ∧
        ∀ kept, kept <+: p.timelines → kept.length ≤ c.slot → kept <+: q.timelines := by
  cases m with
  | left pending stack' done =>
    obtain ⟨rfl, rfl⟩ := List.cons.inj (stack.symm.trans stack')
    exact .inl ⟨pending, rfl⟩
  | directed here =>
    obtain ⟨rfl, rfl⟩ := here.innermost stack
    exact .inr ⟨[], _, rfl, ⟨rfl, rfl, rfl, rfl⟩, fun kept h hslot => prefix_set h hslot _⟩
  | layered here =>
    obtain ⟨rfl, rfl⟩ := here.innermost stack
    refine .inr ⟨[_], _, rfl, ⟨rfl, rfl, rfl, rfl⟩, fun kept h hslot => ?_⟩
    exact (prefix_set h hslot _).trans (List.prefix_append _ _)
  | unspliced here =>
    obtain ⟨rfl, rfl⟩ := here.innermost stack
    exact .inr ⟨[], _, rfl, ⟨rfl, rfl, rfl, rfl⟩, fun kept h _ => h⟩
  | spliced here =>
    obtain ⟨rfl, rfl⟩ := here.innermost stack
    exact .inr ⟨[_], _, rfl, ⟨rfl, rfl, rfl, rfl⟩, fun kept h _ => h⟩
  | placed here =>
    obtain ⟨rfl, rfl⟩ := here.innermost stack
    exact .inr ⟨[], _, rfl, ⟨rfl, rfl, rfl, rfl⟩, fun kept h hslot => prefix_set h hslot _⟩

/-- a failure touches no timeline below that of the innermost cursor -/
theorem Fails.touches {p q : Performance} {e : Error} {c : Cursor} {rest : List Cursor} (f : Fails p e q)
    (stack : p.stack = c :: rest) {kept : List Timeline} (h : kept <+: p.timelines) (hslot : kept.length ≤ c.slot) :
    kept <+: q.timelines := by
  cases f with
  | directive here =>
    obtain ⟨rfl, rfl⟩ := here.innermost stack
    exact prefix_set h hslot _
  | layer here =>
    obtain ⟨rfl, rfl⟩ := here.innermost stack
    exact prefix_set h hslot _
  | splice here => exact h

/-! ## Inside a layered procedure -/

/-- the cursor `e` on a timeline of its own, or what it has become, is on the cursors `below`, and the timelines `kept`
are below its own -/
structure Sheltered (e : Cursor) (below : List Cursor) (kept : List Timeline) (p : Performance) : Prop where
  seated : Seated p
  owns : e.ownsSlot = true
  stack : ∃ above d, p.stack = above ++ d :: below ∧ SameCursor e d
  length : kept.length = 1 + below.countP (·.ownsSlot)
  timelines : kept <+: p.timelines

namespace Sheltered

variable {p q : Performance} {e c : Cursor} {below rest : List Cursor} {kept : List Timeline}

/-- the innermost cursor works above the kept timelines -/
theorem slot_le (h : Sheltered e below kept p) (stack : p.stack = c :: rest) : kept.length ≤ c.slot := by
  obtain ⟨above, d, hstack, same⟩ := h.stack
  have hlast := h.seated.last stack
  rw [h.seated.timelines, hstack, List.countP_append, List.countP_cons, same.ownsSlot, h.owns] at hlast
  have hlength := h.length
  simp only [if_true] at hlast
  omega

theorem innermost (h : Sheltered e below kept p) : ∃ c rest, p.stack = c :: rest := by
  obtain ⟨above, d, hstack, _⟩ := h.stack
  rw [← List.ne_nil_iff_exists_cons, hstack]
  simp

theorem length_lt (h : Sheltered e below kept p) : below.length < p.stack.length := by
  obtain ⟨above, d, hstack, _⟩ := h.stack
  rw [hstack, List.length_append, List.length_cons]
  omega

/-- **A move above the kept timelines.** Either they and the cursors below are as before, or `e` was left and they are
all that there is. -/
theorem moves (h : Sheltered e below kept p) (m : Moves p q) :
    Sheltered e below kept q ∨ q.pending = [] ∧ q.stack = below ∧ q.timelines = kept := by
  have seated := h.seated.moves m
  obtain ⟨above, d, hstack, same⟩ := h.stack
  obtain ⟨c, rest, stack⟩ := h.innermost
  rcases m.touches stack with ⟨pending, rfl⟩ | ⟨new, c', hnew, same', htimelines⟩
  · have hprefix : (p.leave c rest).timelines <+: p.timelines := by
      simp only [leave]
      split
      · exact List.dropLast_prefix _
      · exact List.prefix_refl _
    have hlength : (p.leave c rest).timelines.length = 1 + rest.countP (·.ownsSlot) := seated.timelines
    cases above with
    | nil =>
      obtain ⟨rfl, rfl⟩ := List.cons.inj (stack.symm.trans hstack)
      have heq : kept.length = (p.leave c rest).timelines.length := h.length.trans hlength.symm
      have hkept := List.prefix_of_prefix_length_le h.timelines hprefix heq.le
      exact .inr ⟨pending, rfl, (hkept.eq_of_length heq).symm⟩
    | cons a above =>
      rw [List.cons_append] at hstack
      obtain ⟨rfl, rfl⟩ := List.cons.inj (stack.symm.trans hstack)
      have hle : kept.length ≤ (p.leave c (above ++ d :: below)).timelines.length := by
        rw [List.countP_append, List.countP_cons, same.ownsSlot, h.owns, if_pos rfl] at hlength
        have := h.length
        omega
      exact .inl ⟨seated, h.owns, ⟨above, d, rfl, same⟩, h.length,
        List.prefix_of_prefix_length_le h.timelines hprefix hle⟩
  · have hkept := htimelines kept h.timelines (h.slot_le stack)
    cases above with
    | nil =>
      obtain ⟨rfl, rfl⟩ := List.cons.inj (stack.symm.trans hstack)
      exact .inl ⟨seated, h.owns, ⟨new, c', hnew, same.trans same'⟩, h.length, hkept⟩
    | cons a above =>
      rw [List.cons_append] at hstack
      obtain ⟨rfl, rfl⟩ := List.cons.inj (stack.symm.trans hstack)
      exact .inl ⟨seated, h.owns, ⟨new ++ c' :: above, d, by rw [hnew]; simp, same⟩, h.length, hkept⟩

theorem event (h : Sheltered e below kept p) (pending : List Event) : Sheltered e below kept { p with pending } :=
  ⟨h.seated.event pending, h.owns, h.stack, h.length, h.timelines⟩

/-- a failure above the kept timelines -/
theorem fails {error : Error} (h : Sheltered e below kept p) (f : Fails p error q) : kept <+: q.timelines := by
  obtain ⟨c, rest, stack⟩ := h.innermost
  exact f.touches stack h.timelines (h.slot_le stack)

end Sheltered

/-! ## Until the cursor is left -/

/-- for `n` turns the stack stays higher than `depth` -/
def StaysAbove (depth n : Nat) (p : Performance) : Prop :=
  ∀ m ≤ n, ∀ given q, Turns m p given q → depth < q.stack.length

namespace StaysAbove

variable {depth n : Nat} {p q : Performance}

theorem zero (h : depth < p.stack.length) : StaysAbove depth 0 p := by
  intro m hm given q run
  obtain rfl : m = 0 := Nat.le_zero.1 hm
  cases run
  exact h

theorem moved (h : depth < p.stack.length) (first : p.turn = .moved q) (rest : StaysAbove depth n q) :
    StaysAbove depth (n + 1) p := by
  intro m hm given r run
  cases run with
  | none => exact h
  | moved first' run =>
    rw [first] at first'
    cases first'
    exact rest _ (Nat.le_of_succ_le_succ hm) _ _ run
  | event first' => rw [first] at first'; cases first'

theorem event {e : Event} (h : depth < p.stack.length) (first : p.turn = .event e q) (rest : StaysAbove depth n q) :
    StaysAbove depth (n + 1) p := by
  intro m hm given r run
  cases run with
  | none => exact h
  | moved first' => rw [first] at first'; cases first'
  | event first' run =>
    rw [first] at first'
    cases first'
    exact rest _ (Nat.le_of_succ_le_succ hm) _ _ run

theorem here (h : StaysAbove depth n p) : depth < p.stack.length := h 0 (Nat.zero_le n) [] p (.none p)

theorem after_moved (h : StaysAbove depth (n + 1) p) (first : p.turn = .moved q) : StaysAbove depth n q :=
  fun m hm _ r run => h (m + 1) (Nat.succ_le_succ hm) _ r (.moved first run)

theorem after_event {e : Event} (h : StaysAbove depth (n + 1) p) (first : p.turn = .event e q) : StaysAbove depth n q :=
  fun m hm _ r run => h (m + 1) (Nat.succ_le_succ hm) _ r (.event first run)

theorem trans {m : Nat} {given : List Event} (run : Turns m p given q) (h : StaysAbove depth m p)
    (rest : StaysAbove depth n q) : StaysAbove depth (m + n) p := by
  induction run with
  | none p => rwa [Nat.zero_add]
  | moved first _ ih =>
    rw [Nat.add_right_comm]
    exact .moved h.here first (ih (h.after_moved first) rest)
  | event first _ ih =>
    rw [Nat.add_right_comm]
    exact .event h.here first (ih (h.after_event first) rest)

end StaysAbove

/-- a run that stops comes to a turn that fails, or to one that goes down to a depth -/
theorem turns_until {depth n : Nat} {p z : Performance} {given : List Event} (whole : Turns n p given z)
    (stopped : z.turn = .ended ∨ ∃ e z', z.turn = .failed e z') (high : depth < p.stack.length) :
    ∃ m during r, Turns m p during r ∧ StaysAbove depth m p ∧
      ((∃ e s, r.turn = .failed e s) ∨ ∃ s, r.turn = .moved s ∧ s.stack.length ≤ depth) := by
  induction whole with
  | none p =>
    rcases stopped with ended | failed
    · rw [(turn_ended_iff.1 ended).2] at high
      exact absurd high (Nat.not_lt_zero _)
    · exact ⟨0, [], p, .none p, .zero high, .inl failed⟩
  | @moved n p q z given first rest ih =>
    by_cases low : q.stack.length ≤ depth
    · exact ⟨0, [], p, .none p, .zero high, .inr ⟨q, first, low⟩⟩
    · obtain ⟨m, during, r, run, stays, stop⟩ := ih stopped (Nat.not_le.1 low)
      exact ⟨m + 1, during, r, .moved first run, .moved high first stays, stop⟩
  | @event n p q z e given first rest ih =>
    obtain ⟨_, _, rfl⟩ := turn_event_iff.1 first
    obtain ⟨m, during, r, run, stays, stop⟩ := ih stopped high
    exact ⟨m + 1, e :: during, r, .event first run, .event high first stays, stop⟩

/-- **Inside a layered procedure.** As long as its cursor is not left, the cursors and timelines below it stay. -/
theorem Sheltered.turns {e : Cursor} {below : List Cursor} {kept : List Timeline} {n : Nat} {p q : Performance}
    {given : List Event} (run : Turns n p given q) (h : Sheltered e below kept p)
    (stays : StaysAbove below.length n p) : Sheltered e below kept q := by
  induction run with
  | none p => exact h
  | @moved n p p' q given first rest ih =>
    have stays' := stays.after_moved first
    rcases h.moves (turn_moved_iff.1 first) with h' | ⟨_, hstack, _⟩
    · exact ih h' stays'
    · have hhigher := stays'.here
      rw [hstack] at hhigher
      exact absurd hhigher (lt_irrefl _)
  | @event n p p' q e given first rest ih =>
    have stays' := stays.after_event first
    obtain ⟨pending, _, rfl⟩ := turn_event_iff.1 first
    exact ih (h.event pending) stays'

/-! ## The caller -/

/-- from `p` to `q` the directives of `c` at `frame` have been applied, and the layered procedure starts on a copy of
the timeline that they made, which comes last -/
structure Forks (p q : Performance) (c : Cursor) (rest : List Cursor) (frame : Frame) (pass : Pass) : Prop where
  here : At p c rest frame
  passed : p.passAt c rest frame = (pass, none)
  cursors : q.stack.tail = c.directed pass :: rest
  copy : q.timelines.getLast? = some pass.timeline
  others : q.timelines.dropLast = p.timelines.set c.slot pass.timeline
  own : q.timelines.dropLast[c.slot]? = some pass.timeline

/-- timelines that begin alike have the same top-level timeline -/
theorem topLevel_of_prefix {p q : Performance} {kept : List Timeline} (hp : kept <+: p.timelines)
    (hq : kept <+: q.timelines) (hkept : kept ≠ []) : p.timeline = q.timeline := by
  obtain ⟨t, more, rfl⟩ := List.exists_cons_of_ne_nil hkept
  obtain ⟨own, hp⟩ := hp
  obtain ⟨own', hq⟩ := hq
  rw [timeline, timeline, timelineAt, timelineAt, ← hp, ← hq]
  rfl

/-- in `s` the caller `c` goes on with the timeline that its directives made: the spliced procedure starts on it, or is
refused, and without one the frame's placements are stamped on it -/
structure Resumes (s : Performance) (c : Cursor) (rest : List Cursor) (frame : Frame) (pass : Pass) : Prop where
  timeline : s.timelineAt c.slot = pass.timeline
  spliced : ∀ name, pass.spliced = some name →
    (∃ span u, s.turn = .moved u ∧ u.timelines = s.timelines ∧
        u.stack = .start span c.slot false (some name) :: (c.directed pass).placing :: rest) ∨
      ∃ fault u, s.turn = .failed ⟨frame.line, fault⟩ u
  unspliced : pass.spliced = none → ∃ u, Turns 2 s [] u ∧ u.pending = stamp frame pass.timeline pass.frameOffset

theorem resumes {s : Performance} {c : Cursor} {rest : List Cursor} {frame : Frame} {pass : Pass}
    (here : At s (c.directed pass) rest frame) (timeline : s.timelineAt c.slot = pass.timeline) :
    Resumes s c rest frame pass where
  timeline := timeline
  spliced := by
    intro name spliced
    cases resolved : { s with stack := (c.directed pass).placing :: rest }.resolve name with
    | ok span => exact .inl ⟨span, _, (Moves.spliced here rfl spliced resolved).turn, rfl, rfl⟩
    | error fault => exact .inr ⟨fault, _, (Fails.splice here rfl spliced resolved).turn⟩
  unspliced := by
    intro unspliced
    have placing : At { s with stack := (c.directed pass).placing :: rest } (c.directed pass).placing rest frame :=
      ⟨here.pending, rfl, here.inside, here.frame⟩
    refine ⟨_, .moved (Moves.unspliced here rfl unspliced).turn (.moved (Moves.placed placing rfl).turn (.none _)), ?_⟩
    change stamp frame (s.timelineAt c.slot) pass.frameOffset = _
    rw [timeline]

/-- the timeline that the directives made, and its copy -/
theorem layering_timelines {p : Performance} {slot : Nat} (inside : slot < p.timelines.length) (pass : Pass)
    (stack : List Cursor) (span : Span) (name : String) :
    (p.timelines.set slot pass.timeline)[slot]? = some pass.timeline ∧
      ((p.afterPass slot pass stack).layering slot span name).timelines =
        p.timelines.set slot pass.timeline ++ [pass.timeline] := by
  refine ⟨List.getElem?_set_self inside, ?_⟩
  simp only [layering, timelineAt_afterPass inside]
  rfl

/-- a turn that pushes a cursor with a timeline of its own starts a layered procedure -/
theorem Seated.forks {p q : Performance} {e : Cursor} {below : List Cursor} (h : Seated p) (m : Moves p q)
    (pushed : q.stack = e :: below) (deeper : p.stack.length < q.stack.length) (forked : e.ownsSlot = true) :
    ∃ c rest frame pass, Forks p q c rest frame pass ∧ Sheltered e below q.timelines.dropLast q := by
  have seated := h.moves m
  cases m with
  | left _ stack =>
    rw [stack] at deeper
    exact absurd deeper (Nat.not_lt.2 (Nat.le_succ _))
  | directed here | unspliced here | placed here =>
    rw [here.stack] at deeper
    exact absurd deeper (lt_irrefl _)
  | spliced =>
    cases pushed
    cases forked
  | @layered c rest frame pass name span here stage passed layered resolved =>
    obtain ⟨own, timelines⟩ := layering_timelines (by rw [h.last here.stack]; exact Nat.lt_succ_self _) pass
      (c.directed pass :: rest) span name
    cases pushed
    refine ⟨c, rest, frame, pass, ⟨here, passed, rfl, ?_, ?_, ?_⟩, seated, rfl, ⟨[], _, rfl, .refl _⟩, ?_, ?_⟩
    · rw [timelines, List.getLast?_concat]
    · rw [timelines, List.dropLast_concat]
    · rw [timelines, List.dropLast_concat, own]
    · rw [timelines, List.dropLast_concat, List.length_set, h.timelines, here.stack]
      rfl
    · exact List.dropLast_prefix _

/-- when the cursor is left, the caller is at its frame again, with the timelines that its directives made -/
theorem Forks.left {p q r s : Performance} {c e : Cursor} {rest below : List Cursor} {frame : Frame} {pass : Pass}
    {n : Nat} {given : List Event} (forks : Forks p q c rest frame pass) (m : Moves p q) (pushed : q.stack = e :: below)
    (run : Turns n q given r) (sheltered : Sheltered e below q.timelines.dropLast r) (left : Moves r s)
    (low : s.stack.length ≤ below.length) :
    s.stack = below ∧ s.timelines = q.timelines.dropLast ∧ At s (c.directed pass) rest frame ∧
      s.timelineAt c.slot = pass.timeline := by
  rcases sheltered.moves left with higher | ⟨pending, stack, timelines⟩
  · exact absurd low (Nat.not_le.2 higher.length_lt)
  · have frames : s.frames = p.frames := left.kept.1.trans (run.kept.1.trans m.kept.1)
    have cursors : below = c.directed pass :: rest := by
      rw [← forks.cursors, pushed, List.tail_cons]
    refine ⟨stack, timelines, ⟨pending, stack.trans cursors, forks.here.inside, ?_⟩, ?_⟩
    · rw [frames]
      exact forks.here.frame
    · rw [timelineAt, timelines, List.getD_eq_getElem?_getD, forks.own, Option.getD_some]

/-- **A layered procedure is isolated.** From the turn that starts it until its cursor is left, no turn changes a
timeline below its copy, and only a failure changes the cursors below, which it drops; after a failure the top-level
timeline is as it was at the start. When the cursor is left, the caller's cursors and timelines are there again, and it
goes on from the timeline that its directives made. -/
theorem layered_isolated {frames : Array Frame} {song : Song} {timeline : Timeline} {p q : Performance} {e : Cursor}
    {below : List Cursor} (reached : Reaches (start frames song timeline) p) (turn : p.turn = .moved q)
    (pushed : q.stack = e :: below) (deeper : p.stack.length < q.stack.length) (forked : e.ownsSlot = true) :
    ∃ c rest frame pass, Forks p q c rest frame pass ∧
      ∀ n given r, Turns n q given r → StaysAbove below.length n q →
        (∃ above d, r.stack = above ++ d :: below ∧ SameCursor e d) ∧ q.timelines.dropLast <+: r.timelines ∧
        (∀ error s, r.turn = .failed error s →
          s.stack = [] ∧ q.timelines.dropLast <+: s.timelines ∧ s.timeline = q.timeline) ∧
        ∀ s, r.turn = .moved s → s.stack.length ≤ below.length →
          s.stack = below ∧ s.timelines = q.timelines.dropLast ∧ Resumes s c rest frame pass := by
  have m := turn_moved_iff.1 turn
  have seated : Seated p := by
    rcases reached.cases with ⟨n, given, run⟩ | ⟨n, given, r, error, run, failed⟩
    · exact (Seated.start frames song timeline).turns run
    · rw [(turn_failed_iff.1 failed).stopped] at turn
      cases turn
  obtain ⟨c, rest, frame, pass, forks, sheltered⟩ := seated.forks m pushed deeper forked
  refine ⟨c, rest, frame, pass, forks, fun n given r run stays => ?_⟩
  have h := sheltered.turns run stays
  refine ⟨h.stack, h.timelines, fun error s failed => ?_, fun s left low => ?_⟩
  · have hf := turn_failed_iff.1 failed
    have hkept : q.timelines.dropLast <+: s.timelines := by
      obtain ⟨above, d, stack, _⟩ := h.stack
      obtain ⟨top, others, htop⟩ : ∃ top others, r.stack = top :: others := by
        rw [← List.ne_nil_iff_exists_cons, stack]
        simp
      exact hf.touches htop h.timelines (h.slot_le htop)
    have hfirst : q.timelines.dropLast ≠ [] := List.ne_nil_of_length_pos (by rw [sheltered.length]; omega)
    exact ⟨hf.timelines.1, hkept, topLevel_of_prefix hkept sheltered.timelines hfirst⟩
  · obtain ⟨stack, timelines, here, own⟩ := forks.left m pushed run h (turn_moved_iff.1 left) low
    exact ⟨stack, timelines, resumes here own⟩

/-- the top-level cursor layers a procedure, which is performed and left -/
theorem layeredInSpliced_isolated :
    ∃ q r s, Reaches (start layeredInSpliced .blank .start) q ∧ Turns 3 q [] r ∧ r.turn = .moved s ∧
      q.stack.length = 2 ∧ s.stack = q.stack.tail ∧ s.timelines = q.timelines.dropLast := by
  have before : Turns 3 (start layeredInSpliced .blank .start) [] _ := .moved rfl (.moved rfl (.moved rfl (.none _)))
  obtain ⟨_, _, _, _, _, inside⟩ := layered_isolated before.reaches rfl rfl (Nat.lt_succ_self 1) rfl
  have high : 1 < 2 := Nat.lt_succ_self 1
  obtain ⟨_, _, _, left⟩ := inside 3 [] _ (.moved rfl (.moved rfl (.moved rfl (.none _))))
    (.moved high rfl (.moved high rfl (.moved high rfl (.zero high))))
  obtain ⟨stack, timelines, _⟩ := left _ rfl (Nat.le_refl 1)
  exact ⟨_, _, _, before.reaches.turn rfl, .moved rfl (.moved rfl (.moved rfl (.none _))), rfl, rfl, stack, timelines⟩

end RhythmChart.Performance
