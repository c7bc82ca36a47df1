/-
Where a performance has been.

`Course p history q`: turns lead from `p` to `q`, and `history` holds the states on the way, the first one first. A turn
that applies the directives of a frame is a visit of that frame (`Directs`, `visited`). Only visits change the song and
the registry; other turns leave of every timeline at least its measure and its tempos (`Effect`, `Seated.effect`).

The top level visits the frames in their order. `seen` counts those that it has visited: a visit by the lowest cursor
adds one, no other move changes it (`Seated.seen_moves`), and a body replays only frames that are counted
(`Descending.seen_lt`), which declare nothing there and do not fail (`Rehearses.replayed`).
-/
import Mathlib.Tactic
import RhythmChart.Proofs.Performance.Directives
import RhythmChart.Proofs.Performance.Isolation
import RhythmChart.Proofs.Performance.Rehearsal
import RhythmChart.Proofs.Performance.Resumption

namespace RhythmChart.Performance

/-! ## Courses -/

/-- turns lead from `p` to another performance, through the states that are listed, `p` first -/
inductive Course (p : Performance) : List Performance → Performance → Prop where
  | here : Course p [] p
  | turn {history : List Performance} {q r : Performance} (run : Course p history q) (next : q.turn.after? = some r) :
      Course p (history ++ [q]) r

theorem Course.reaches {p q : Performance} {history : List Performance} (h : Course p history q) : Reaches p q := by
  induction h with
  | here => exact .here
  | turn _ next ih => exact ih.turn next

theorem Reaches.course {p q : Performance} (h : Reaches p q) : ∃ history, Course p history q := by
  induction h with
  | here => exact ⟨[], .here⟩
  | turn _ next ih =>
    obtain ⟨history, run⟩ := ih
    exact ⟨_, run.turn next⟩

/-- a state that is not over is reached by turns that do not fail -/
theorem Reaches.going {p q : Performance} (h : Reaches p q) (going : q.turn ≠ .ended) :
    ∃ n given, Turns n p given q := by
  rcases h.cases with run | ⟨n, given, r, e, run, failed⟩
  · exact run
  · exact absurd (turn_failed_iff.1 failed).stopped going

theorem Turn.going {p q : Performance} (next : p.turn.after? = some q) : p.turn ≠ .ended := by
  intro ended
  rw [ended] at next
  cases next

/-- a turn that leads on gives an event, or moves, or fails -/
theorem Turn.after_cases {p q : Performance} (next : p.turn.after? = some q) :
    (∃ e pending, p.pending = e :: pending ∧ q = { p with pending }) ∨ Moves p q ∨ ∃ e, Fails p e q := by
  rcases p.turn_cases with ⟨e, pending, hp, given⟩ | ⟨r, m⟩ | ⟨e, r, failed⟩ | ⟨-, -, ended⟩
  · rw [given] at next
    cases next
    exact .inl ⟨e, pending, hp, rfl⟩
  · rw [m.turn] at next
    cases next
    exact .inr (.inl m)
  · rw [failed.turn] at next
    cases next
    exact .inr (.inr ⟨e, failed⟩)
  · exact absurd ended (Turn.going next)

/-- in a performance that succeeds no turn fails -/
theorem Reaches.not_fails {frames : Array Frame} {song : Song} {timeline : Timeline} {p q : Performance} {e : Error}
    (succeeded : (start frames song timeline).drain.error = none) (reached : Reaches (start frames song timeline) p) :
    ¬Fails p e q := by
  intro failed
  have going : p.turn ≠ .ended := by
    rw [failed.turn]
    exact Turn.noConfusion
  obtain ⟨n, given, run⟩ := reached.going going
  rw [drain_of_failed run (turns_lt_bound run) failed.turn] at succeeded
  cases succeeded

/-- what holds of a performance that is not over -/
structure Standing (frames : Array Frame) (song : Song) (p : Performance) : Prop where
  frames : p.frames = frames
  seated : Seated p
  working : Working p
  descending : Descending p
  rehearses : Rehearses song p

theorem Reaches.standing {frames : Array Frame} {song : Song} {timeline : Timeline} {p : Performance}
    (h : Reaches (start frames song timeline) p) (going : p.turn ≠ .ended) : Standing frames song p := by
  obtain ⟨n, given, run⟩ := h.going going
  exact ⟨run.kept.1, (Seated.start frames song timeline).turns run, (working_start frames song timeline).turns run,
    (descending_start frames song timeline).turns run, (Rehearses.start frames song timeline).turns run⟩

/-! ## Visits -/

/-- the turn of `p` applies the directives of `frame`, at which the innermost cursor `c` is -/
structure Directs (p : Performance) (c : Cursor) (below : List Cursor) (frame : Frame) : Prop
    extends At p c below frame where
  stage : c.stage = .directives

theorem Directs.going {p : Performance} {c : Cursor} {below : List Cursor} {frame : Frame} (h : Directs p c below frame) :
    p.turn ≠ .ended := by
  intro ended
  have empty := (turn_ended_iff.1 ended).2
  rw [h.stack] at empty
  cases empty

/-- the frame whose directives the turn applies, if it applies any -/
def visited (p : Performance) : Option Frame :=
  match p.pending, p.stack with
  | [], c :: _ => if c.stage = .directives ∧ c.pos < c.span.stop then p.frames[c.pos]? else none
  | _, _ => none

theorem visited_eq_some_iff {p : Performance} {frame : Frame} :
    p.visited = some frame ↔ ∃ c below, Directs p c below frame := by
  constructor
  · intro h
    unfold visited at h
    split at h
    · rename_i c below pending stack
      split at h
      · rename_i working
        exact ⟨c, below, ⟨pending, stack, working.2, h⟩, working.1⟩
      · cases h
    · cases h
  · rintro ⟨c, below, directs⟩
    unfold visited
    rw [directs.pending, directs.stack]
    simp only
    rw [if_pos ⟨directs.stage, directs.inside⟩]
    exact directs.frame

theorem visited_eq_none_iff {p : Performance} : p.visited = none ↔ ∀ c below frame, ¬Directs p c below frame := by
  rw [Option.eq_none_iff_forall_ne_some]
  constructor
  · intro h c below frame directs
    exact h frame (visited_eq_some_iff.2 ⟨c, below, directs⟩)
  · intro h frame visits
    obtain ⟨c, below, directs⟩ := visited_eq_some_iff.1 visits
    exact h c below frame directs

theorem Directs.visits {p : Performance} {c : Cursor} {below : List Cursor} {frame : Frame} (h : Directs p c below frame) :
    p.visited = some frame :=
  visited_eq_some_iff.2 ⟨c, below, h⟩

/-- the numbers that the visits of a history gave for a directive -/
def numbersOf (d : Directive) (history : List Performance) : List Float :=
  history.filterMap fun q => q.visited.bind (·.number? d)

theorem numbersOf_snoc (d : Directive) (history : List Performance) (q : Performance) :
    numbersOf d (history ++ [q]) = numbersOf d history ++ (q.visited.bind (·.number? d)).toList := by
  unfold numbersOf
  rw [List.filterMap_append]
  cases h : q.visited.bind (·.number? d) <;> simp [h]

/-- what a turn does to the song, the registry and the timelines -/
inductive Effect (p q : Performance) : Prop where
  /-- a visit; the timeline of the cursor is the one its directives made, and so is the copy if there is one -/
  | visit {c : Cursor} {below : List Cursor} {frame : Frame} {pass : Pass} {fault : Option Fault}
      (directs : Directs p c below frame) (made : p.passAt c below frame = (pass, fault))
      (song : q.song = pass.song) (procedures : q.procedures = pass.procedures)
      (timelines : p.timelines.set c.slot pass.timeline <+: q.timelines)
      (copies : ∀ t ∈ q.timelines, t ∈ p.timelines.set c.slot pass.timeline)
  /-- any other turn; the clocks go on or stay -/
  | other (unvisited : p.visited = none) (song : q.song = p.song) (procedures : q.procedures = p.procedures)
      (topLevel : q.timeline = p.timeline ∨ q.timeline = p.timeline.advance)
      (timelines : ∀ t ∈ q.timelines, ∃ u ∈ p.timelines, t = u ∨ t = u.advance)

section Effects

variable {p q : Performance} {c : Cursor} {below : List Cursor} {frame : Frame}

theorem unvisited_of_pending {e : Event} {rest : List Event} (pending : p.pending = e :: rest) : p.visited = none := by
  rw [visited, pending]

theorem At.unvisited (here : At p c below frame) (stage : c.stage ≠ .directives) : p.visited = none := by
  refine visited_eq_none_iff.2 fun d rest f directs => ?_
  obtain ⟨rfl, -, -⟩ := here.unique directs.toAt
  exact stage directs.stage

theorem unvisited_of_done (stack : p.stack = c :: below) (done : c.span.stop ≤ c.pos ∨ p.frames[c.pos]? = none) :
    p.visited = none := by
  refine visited_eq_none_iff.2 fun d rest f directs => ?_
  obtain ⟨rfl, rfl⟩ := List.cons.inj (stack.symm.trans directs.stack)
  rcases done with done | done
  · exact absurd directs.inside (Nat.not_lt.2 done)
  · rw [directs.frame] at done
    cases done

/-- a move that visits a frame has its directives go through -/
theorem Moves.passed (m : Moves p q) (directs : Directs p c below frame) : (p.passAt c below frame).2 = none := by
  cases m with
  | left _ stack done => exact absurd directs (visited_eq_none_iff.1 (unvisited_of_done stack done) c below frame)
  | directed here _ passed | layered here _ passed =>
    obtain ⟨rfl, rfl, rfl⟩ := directs.toAt.unique here
    rw [passed]
  | unspliced here stage | spliced here stage | placed here stage =>
    obtain ⟨rfl, -, -⟩ := directs.toAt.unique here
    rw [directs.stage] at stage
    cases stage

theorem Effect.same (unvisited : p.visited = none) (song : q.song = p.song) (procedures : q.procedures = p.procedures)
    (timelines : q.timelines = p.timelines) : Effect p q := by
  refine .other unvisited song procedures (.inl ?_) ?_
  · rw [timeline, timeline, timelineAt, timelineAt, timelines]
  · intro t ht
    exact ⟨t, timelines ▸ ht, .inl rfl⟩

/-- dropping the last of several timelines leaves the top-level one -/
theorem timeline_dropLast {p q : Performance} (more : 1 < p.timelines.length)
    (dropped : q.timelines = p.timelines.dropLast) : q.timeline = p.timeline := by
  match h : p.timelines with
  | [] | [_] => simp [h] at more
  | t :: u :: rest => simp [timeline, timelineAt, dropped, h]

theorem getD_set {timelines : List Timeline} {slot : Nat} {t : Timeline} (inside : slot < timelines.length) :
    (timelines.set slot t).getD 0 .start = if slot = 0 then t else timelines.getD 0 .start := by
  cases timelines with
  | nil => cases inside
  | cons u rest => cases slot <;> simp

/-- the top-level timeline when one has been set and perhaps others added -/
theorem timeline_of_set {slot : Nat} {t : Timeline} (inside : slot < p.timelines.length)
    (timelines : p.timelines.set slot t <+: q.timelines) : q.timeline = if slot = 0 then t else p.timeline := by
  have nonempty : p.timelines.set slot t ≠ [] := by
    rw [Ne, List.set_eq_nil_iff]
    exact List.ne_nil_of_length_pos (Nat.zero_lt_of_lt inside)
  have same : { p with timelines := p.timelines.set slot t }.timeline = q.timeline :=
    topLevel_of_prefix (List.prefix_refl _) timelines nonempty
  rw [← same]
  exact getD_set inside

theorem Seated.slot_lt (h : Seated p) (stack : p.stack = c :: below) : c.slot < p.timelines.length := by
  rw [h.last stack]
  exact Nat.lt_succ_self _

theorem timelineAt_mem {slot : Nat} (inside : slot < p.timelines.length) : p.timelineAt slot ∈ p.timelines := by
  rw [timelineAt, List.getD_eq_getElem?_getD, List.getElem?_eq_getElem inside]
  exact List.getElem_mem inside

/-- **What a turn does.** -/
theorem Seated.effect (h : Seated p) (next : p.turn.after? = some q) : Effect p q := by
  rcases Turn.after_cases next with ⟨e, pending, hp, rfl⟩ | m | ⟨e, failed⟩
  · exact .same (unvisited_of_pending hp) rfl rfl rfl
  · cases m with
    | @left c below pending stack done =>
      have unvisited := unvisited_of_done stack done
      cases owns : c.ownsSlot with
      | false => exact .same unvisited rfl rfl (by simp [leave, owns])
      | true =>
        have dropped : (p.leave c below).timelines = p.timelines.dropLast := by simp [leave, owns]
        have more : 1 < p.timelines.length := by
          rw [h.timelines, stack, List.countP_cons, owns]
          simp
        refine .other unvisited rfl rfl (.inl (timeline_dropLast more dropped)) fun t ht => ⟨t, ?_, .inl rfl⟩
        rw [dropped] at ht
        exact List.mem_of_mem_dropLast ht
    | directed here stage passed layered =>
      exact .visit ⟨here, stage⟩ passed rfl rfl (List.prefix_refl _) fun t ht => ht
    | @layered c below frame pass name span here stage passed layered resolved =>
      obtain ⟨own, timelines⟩ :=
        layering_timelines (h.slot_lt here.stack) pass (c.directed pass :: below) span name
      refine .visit ⟨here, stage⟩ passed rfl rfl (timelines ▸ List.prefix_append _ _) fun t ht => ?_
      rw [timelines] at ht
      rcases List.mem_append.1 ht with ht | ht
      · exact ht
      · rw [List.mem_singleton.1 ht]
        exact List.mem_of_getElem? own
    | unspliced here stage => exact .same (here.unvisited (by rw [stage]; simp)) rfl rfl rfl
    | spliced here stage => exact .same (here.unvisited (by rw [stage]; simp)) rfl rfl rfl
    | @placed c below frame here stage =>
      have inside := h.slot_lt here.stack
      refine .other (here.unvisited (by rw [stage]; simp)) rfl rfl ?_ ?_
      · change (p.timelines.set c.slot (p.timelineAt c.slot).advance).getD 0 .start = p.timeline ∨
          (p.timelines.set c.slot (p.timelineAt c.slot).advance).getD 0 .start = _
        rw [getD_set inside]
        split
        · rename_i hslot
          rw [hslot]
          exact .inr rfl
        · exact .inl rfl
      · intro t ht
        rcases List.mem_or_eq_of_mem_set ht with ht | rfl
        · exact ⟨t, ht, .inl rfl⟩
        · exact ⟨p.timelineAt c.slot, timelineAt_mem inside, .inr rfl⟩
  · cases failed with
    | directive here stage refused => exact .visit ⟨here, stage⟩ refused rfl rfl (List.prefix_refl _) fun t ht => ht
    | layer here stage passed => exact .visit ⟨here, stage⟩ passed rfl rfl (List.prefix_refl _) fun t ht => ht
    | splice here stage => exact .same (here.unvisited (by rw [stage]; simp)) rfl rfl rfl

end Effects

/-! ## Frames that the top level has visited -/

/-- how many frames a cursor has visited when it goes through the whole sequence -/
def Cursor.seen (b : Cursor) : Nat := if b.stage = .directives then b.pos else b.pos + 1

/-- how many frames the top level has visited -/
def seen (p : Performance) : Nat :=
  match p.stack.getLast? with
  | some b => b.seen
  | none => p.frames.size

section Seen

variable {p q : Performance} {c d : Cursor} {below : List Cursor} {frame : Frame}

theorem seen_of_lowest {b : Cursor} (lowest : p.stack.getLast? = some b) : p.seen = b.seen := by
  rw [seen, lowest]

/-- what is put on the lowest cursor does not count -/
theorem seen_eq (above : List Cursor) (stack : p.stack = c :: below) (stack' : q.stack = above ++ d :: below)
    (same : below = [] → d.seen = c.seen) : q.seen = p.seen := by
  cases below with
  | nil => simp [seen, stack, stack', same rfl]
  | cons e rest =>
    obtain ⟨b, lowest⟩ : ∃ b, (e :: rest).getLast? = some b := ⟨_, List.getLast?_eq_some_getLast (List.cons_ne_nil _ _)⟩
    rw [seen_of_lowest (b := b), seen_of_lowest (b := b)]
    · rw [stack, List.getLast?_cons_cons, lowest]
    · rw [stack', List.getLast?_append, List.getLast?_cons_cons, lowest, Option.some_or]

/-- **The top level visits its frames in order.** -/
theorem Seated.seen_moves (h : Seated p) (working : Working p) (m : Moves p q) :
    (∃ c frame, Directs p c [] frame ∧ p.seen = c.pos ∧ q.seen = c.pos + 1) ∨
      (∀ c frame, ¬Directs p c [] frame) ∧ q.seen = p.seen := by
  have inner : ∀ {c below frame}, At p c below frame → c.stage ≠ .directives ∨ below ≠ [] →
      ∀ c' frame', ¬Directs p c' [] frame' := by
    intro c below frame here hc c' frame' directs
    obtain ⟨rfl, rfl, -⟩ := here.unique directs.toAt
    exact hc.elim (absurd directs.stage) (absurd rfl)
  have visits : ∀ above {c below frame d}, Directs p c below frame → q.stack = above ++ d :: below → d.pos = c.pos →
      d.stage = .splice → (∃ c frame, Directs p c [] frame ∧ p.seen = c.pos ∧ q.seen = c.pos + 1) ∨
        (∀ c frame, ¬Directs p c [] frame) ∧ q.seen = p.seen := by
    intro above c below frame d directs stack pos stage
    by_cases outer : below = []
    · subst outer
      refine .inl ⟨c, frame, directs, ?_, ?_⟩
      · simp [seen, directs.stack, Cursor.seen, directs.stage]
      · simp [seen, stack, Cursor.seen, stage, pos]
    · exact .inr ⟨inner directs.toAt (.inr outer), seen_eq above directs.stack stack fun h => absurd h outer⟩
  cases m with
  | @left c below pending stack done =>
    refine .inr ⟨fun c' frame' => visited_eq_none_iff.1 (unvisited_of_done stack done) c' [] frame', ?_⟩
    · cases below with
      | nil =>
        -- the lowest cursor is left at the end of the sequence
        have alone := h.alone stack
        have hpos : c.pos = p.frames.size := by
          refine le_antisymm alone.inside ?_
          rcases done with done | done
          · rwa [alone.span] at done
          · exact Array.getElem?_eq_none_iff.1 done
        have stage : c.stage = .directives := by
          by_contra hstage
          have := working c (by rw [stack]; exact List.mem_cons_self) hstage
          rw [alone.span] at this
          simp only at this
          omega
        simp [seen, stack, leave, Cursor.seen, stage, hpos]
      | cons e rest => simp [seen, stack, leave]
  | directed here stage => exact visits [] ⟨here, stage⟩ rfl rfl rfl
  | layered here stage => exact visits [_] ⟨here, stage⟩ rfl rfl rfl
  | unspliced here stage =>
    refine .inr ⟨inner here (.inl (by rw [stage]; simp)), seen_eq [] here.stack rfl fun _ => ?_⟩
    simp [Cursor.seen, Cursor.placing, stage]
  | spliced here stage =>
    refine .inr ⟨inner here (.inl (by rw [stage]; simp)), seen_eq [_] here.stack rfl fun _ => ?_⟩
    simp [Cursor.seen, Cursor.placing, stage]
  | placed here stage =>
    refine .inr ⟨inner here (.inl (by rw [stage]; simp)), seen_eq [] here.stack rfl fun _ => ?_⟩
    simp [Cursor.seen, Cursor.advanced, stage]

/-- a body replays frames that the top level has visited -/
theorem Descending.seen_lt (h : Descending p) (here : At p c below frame) (inner : below ≠ []) : c.pos < p.seen := by
  rcases h with ended | ⟨cs, b, stack, h⟩
  · have empty := (turn_ended_iff.1 ended).2
    rw [here.stack] at empty
    cases empty
  · cases cs with
    | nil =>
      obtain ⟨-, rfl⟩ := List.cons.inj (here.stack.symm.trans stack)
      exact absurd rfl inner
    | cons c' cs =>
      obtain ⟨rfl, rfl⟩ := List.cons.inj (here.stack.symm.trans stack)
      rw [seen_of_lowest (b := b) (by rw [stack, List.getLast?_concat]), Cursor.seen]
      rcases h.seen here.inside here.frame with hlt | ⟨hpos, hstage⟩
      · split <;> omega
      · rw [if_neg hstage]
        omega

/-- the directives of a replayed frame go through and define nothing -/
theorem Rehearses.replayed {song : Song} (h : Rehearses song p) (directs : Directs p c below frame)
    (inner : below ≠ []) :
    (p.passAt c below frame).2 = none ∧ (p.passAt c below frame).1.procedures = p.procedures := by
  rcases h with ⟨ended, -⟩ | ⟨cs, b, stack, h, rehearsed⟩
  · exact absurd ended directs.going
  · cases cs with
    | nil =>
      obtain ⟨-, rfl⟩ := List.cons.inj (directs.stack.symm.trans stack)
      exact absurd rfl inner
    | cons c' cs =>
      obtain ⟨rfl, rfl⟩ := List.cons.inj (directs.stack.symm.trans stack)
      have nested : (cs.append [b]).isEmpty = false := List.isEmpty_eq_false_iff.2 inner
      have settled := (rehearsed.settle (h.seen directs.inside directs.frame) directs.frame rfl (p.timelineAt c.slot)).1
      rw [passAt, nested, run_order, declare_inner]
      rcases hq : settle frame p.song (p.timelineAt c.slot) with ⟨made, fault | fault⟩
      · exact ⟨rfl, rfl⟩
      · rw [hq] at settled
        cases settled

end Seen

end RhythmChart.Performance
