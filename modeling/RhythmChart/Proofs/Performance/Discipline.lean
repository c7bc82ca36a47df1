/-
Cursors and timelines stay in order.

A cursor that is called stands on the cursor whose frame calls it: on a copy of its timeline while that frame waits for
its layered procedure, on the timeline itself while it waits for the spliced one (`Stacked`). The copies are made and
dropped with the cursors that own them, so a cursor's slot is the number of owners up to and including it, and the
innermost cursor works on the last timeline. `Seated` says this of a performance; it holds at the start and every move
keeps it (`Seated.moves`), and so does every run that does not fail (`Seated.turns`).

A turn that fails empties the stack and leaves the timelines (`Fails.timelines`). So nothing is ever looked up that is
not there (`InBounds`), in any state that turns lead to (`Reaches`), the failed ones included.

Main result: `reached_disciplined`.
-/
import Mathlib.Tactic
import RhythmChart.Proofs.Performance.Descent
import RhythmChart.Proofs.Performance.Refinement

namespace RhythmChart.Performance

/-! ## The states of a performance -/

/-- the performance after a turn, whatever the turn gave -/
def Turn.after? : Turn → Option Performance
  | .ended => none
  | .event _ p | .failed _ p | .moved p => some p

/-- any number of turns lead from one performance to another -/
inductive Reaches (p : Performance) : Performance → Prop where
  | here : Reaches p p
  | turn {q r : Performance} (run : Reaches p q) (next : q.turn.after? = some r) : Reaches p r

theorem Fails.stopped {p q : Performance} {e : Error} (h : Fails p e q) : q.turn = .ended := by
  cases h with
  | directive here => exact turn_ended_iff.2 ⟨here.pending, rfl⟩
  | layer here => exact turn_ended_iff.2 ⟨here.pending, rfl⟩
  | splice here => exact turn_ended_iff.2 ⟨here.pending, rfl⟩

/-- what a failure leaves as it is -/
theorem Fails.kept {p q : Performance} {e : Error} (h : Fails p e q) : q.frames = p.frames ∧ q.bound = p.bound := by
  cases h <;> exact ⟨rfl, rfl⟩

theorem Reaches.trans {p q r : Performance} (h : Reaches p q) (h' : Reaches q r) : Reaches p r := by
  induction h' with
  | here => exact h
  | turn _ next ih => exact ih.turn next

theorem Turns.reaches {n : Nat} {p q : Performance} {given : List Event} (h : Turns n p given q) : Reaches p q := by
  induction h with
  | none p => exact .here
  | moved first _ ih => exact (Reaches.here.turn (by rw [first]; rfl)).trans ih
  | event first _ ih => exact (Reaches.here.turn (by rw [first]; rfl)).trans ih

/-- a state is reached by turns that do not fail, or by a failure after them -/
theorem Reaches.cases {p q : Performance} (h : Reaches p q) :
    (∃ n given, Turns n p given q) ∨ ∃ n given r e, Turns n p given r ∧ r.turn = .failed e q := by
  induction h with
  | here => exact .inl ⟨0, [], .none p⟩
  | @turn q r _ next ih =>
    rcases ih with ⟨n, given, run⟩ | ⟨n, given, s, e, run, failed⟩
    · cases hturn : q.turn with
      | ended => rw [hturn] at next; cases next
      | moved s => rw [hturn] at next; cases next; exact .inl ⟨_, _, run.trans (.moved hturn (.none r))⟩
      | event e s => rw [hturn] at next; cases next; exact .inl ⟨_, _, run.trans (.event hturn (.none r))⟩
      | failed e s => rw [hturn] at next; cases next; exact .inr ⟨n, given, q, e, run, hturn⟩
    · -- after a failure there is no turn
      rw [(turn_failed_iff.1 failed).stopped] at next
      cases next

theorem Reaches.kept {p q : Performance} (h : Reaches p q) : q.frames = p.frames ∧ q.bound = p.bound := by
  rcases h.cases with ⟨n, given, run⟩ | ⟨n, given, r, e, run, failed⟩
  · exact run.kept
  · obtain ⟨hframes, hbound⟩ := (turn_failed_iff.1 failed).kept
    exact ⟨hframes.trans run.kept.1, hbound.trans run.kept.2⟩

/-! ## Cursors on one another -/

/-- every body of a registry is in the sequence -/
def Bodies (frames : Array Frame) (ps : Procedures) : Prop :=
  ∀ name span, ps.get? name = some span → span.start ≤ span.stop ∧ span.stop ≤ frames.size

theorem Bodies.declare {frames : Array Frame} {ps ps' : Procedures} {pos : Nat} {topLevel : Bool} {frame : Frame}
    (h : Bodies frames ps) (declared : declare ⟨pos, frames.size, topLevel⟩ ps frame = .ok ps')
    (hpos : pos < frames.size) : Bodies frames ps' := by
  rcases declare_cases declared with rfl | ⟨declaration, _, _, rfl⟩
  · exact h
  · intro name span found
    rw [get?_cons] at found
    split at found
    · cases found
      simp only [Declaration.body]
      omega
    · exact h name span found

/-- `c` is the same cursor as `d` before or after some stages and frames -/
structure SameCursor (c d : Cursor) : Prop where
  span : d.span = c.span
  slot : d.slot = c.slot
  ownsSlot : d.ownsSlot = c.ownsSlot
  procedure : d.procedure = c.procedure

/-- the stage at which a frame waits for a procedure on a timeline of its own, or on the frame's -/
def waitingStage (ownsSlot : Bool) : Stage := if ownsSlot then .splice else .place

/-- cursors, the innermost first: the lowest goes through the whole sequence, and each of the others performs a
registered body that the frame of the cursor below it calls -/
inductive Stacked (frames : Array Frame) (ps : Procedures) : List Cursor → Prop where
  | none : Stacked frames ps []
  | whole {b : Cursor} (span : b.span = ⟨0, frames.size⟩) (slot : b.slot = 0) (shares : b.ownsSlot = false)
      (nameless : b.procedure = .none) (inside : b.pos ≤ frames.size) : Stacked frames ps [b]
  | called {c d : Cursor} {below : List Cursor} {name : String} (rest : Stacked frames ps (d :: below))
      (waiting : d.pos < d.span.stop) (stage : d.stage = waitingStage c.ownsSlot)
      (slot : c.slot = if c.ownsSlot then d.slot + 1 else d.slot) (named : c.procedure = some name)
      (registered : ps.get? name = some c.span) (new : ∀ e ∈ d :: below, e.procedure ≠ some name)
      (begun : c.span.start ≤ c.pos) (inside : c.pos ≤ c.span.stop) : Stacked frames ps (c :: d :: below)

namespace Stacked

variable {frames : Array Frame} {ps ps' : Procedures} {c d : Cursor} {below : List Cursor}

theorem mono (h : Stacked frames ps below) (hps : Procedures.Extends ps ps') : Stacked frames ps' below := by
  induction h with
  | none => exact .none
  | whole span slot shares nameless inside => exact .whole span slot shares nameless inside
  | called _ waiting stage slot named registered new begun inside ih =>
    exact .called ih waiting stage slot named (hps _ _ registered) new begun inside

theorem pop (h : Stacked frames ps (c :: below)) : Stacked frames ps below := by
  cases h with
  | whole => exact .none
  | called rest => exact rest

theorem drop {above rest : List Cursor} (h : Stacked frames ps (above ++ rest)) : Stacked frames ps rest := by
  induction above with
  | nil => exact h
  | cons c above ih => exact ih h.pop

/-- the innermost cursor at another place of its span -/
theorem replace (h : Stacked frames ps (c :: below)) (same : SameCursor c d) (begun : d.span.start ≤ d.pos)
    (inside : d.pos ≤ d.span.stop) : Stacked frames ps (d :: below) := by
  cases h with
  | whole span slot shares nameless _ =>
    rw [same.span, span] at inside
    exact .whole (same.span.trans span) (same.slot.trans slot) (same.ownsSlot.trans shares)
      (same.procedure.trans nameless) inside
  | called rest waiting stage slot named registered new _ _ =>
    refine .called rest waiting ?_ ?_ (same.procedure.trans named) ?_ new begun inside
    · rw [same.ownsSlot]; exact stage
    · rw [same.ownsSlot, same.slot]; exact slot
    · rw [same.span]; exact registered

/-- the frame of the innermost cursor calls a procedure that no cursor performs -/
theorem push {name : String} {span : Span} {slot : Nat} {owns : Bool} (h : Stacked frames ps (c :: below))
    (bodies : Bodies frames ps) (waiting : c.pos < c.span.stop) (stage : c.stage = waitingStage owns)
    (hslot : slot = if owns then c.slot + 1 else c.slot) (found : ps.get? name = some span)
    (new : ∀ e ∈ c :: below, e.procedure ≠ some name) :
    Stacked frames ps (.start span slot owns (some name) :: c :: below) :=
  .called h waiting stage hslot rfl found new le_rfl (bodies name span found).1

/-- a cursor's slot is the number of owners up to and including it -/
theorem slot_eq (h : Stacked frames ps (c :: below)) : c.slot = (c :: below).countP (·.ownsSlot) := by
  induction below generalizing c with
  | nil =>
    cases h with
    | whole span slot shares nameless inside => simp [slot, shares]
  | cons d below ih =>
    cases h with
    | called rest waiting stage slot named registered new begun inside =>
      rw [slot, List.countP_cons, ← ih rest]
      cases c.ownsSlot <;> rfl

theorem inside_span (h : Stacked frames ps (c :: below)) (bodies : Bodies frames ps) :
    c.span.start ≤ c.pos ∧ c.pos ≤ c.span.stop ∧ c.span.stop ≤ frames.size := by
  cases h with
  | whole span slot shares nameless inside =>
    rw [span]
    exact ⟨Nat.zero_le _, inside, le_rfl⟩
  | called rest waiting stage slot named registered new begun inside =>
    exact ⟨begun, inside, (bodies _ _ registered).2⟩

/-- all but the lowest cursor have a name, and no two the same -/
theorem names (h : Stacked frames ps (c :: below)) :
    ((c :: below).filterMap (·.procedure)).Nodup ∧ ((c :: below).filterMap (·.procedure)).length = below.length ∧
      ∀ name ∈ (c :: below).filterMap (·.procedure), (ps.get? name).isSome := by
  induction below generalizing c with
  | nil =>
    cases h with
    | whole span slot shares nameless inside => simp [nameless]
  | cons d below ih =>
    cases h with
    | called rest waiting stage slot named registered new begun inside =>
      obtain ⟨hnodup, hlength, hnames⟩ := ih rest
      rw [List.filterMap_cons_some named]
      refine ⟨List.nodup_cons.2 ⟨?_, hnodup⟩, by rw [List.length_cons, hlength, List.length_cons], ?_⟩
      · rw [List.mem_filterMap]
        rintro ⟨e, he, hname⟩
        exact new e he hname
      · intro name hname
        rcases List.mem_cons.1 hname with rfl | hname
        · rw [registered]; rfl
        · exact hnames name hname

end Stacked

/-! ## Performances in order -/

/-- the cursors stand on one another in a sequence that holds the bodies, and the timelines are theirs -/
structure Seated (p : Performance) : Prop where
  stacked : Stacked p.frames p.procedures p.stack
  bodies : Bodies p.frames p.procedures
  timelines : p.timelines.length = 1 + p.stack.countP (·.ownsSlot)

namespace Seated

variable {p q : Performance} {c : Cursor} {below : List Cursor}

theorem start (frames : Array Frame) (song : Song) (timeline : Timeline) : Seated (start frames song timeline) where
  stacked := .whole rfl rfl rfl rfl (Nat.zero_le _)
  bodies := by intro name span h; cases h
  timelines := rfl

/-- the innermost cursor works on the last timeline -/
theorem last (h : Seated p) (stack : p.stack = c :: below) : p.timelines.length = c.slot + 1 := by
  have hslot := (stack ▸ h.stacked).slot_eq
  rw [h.timelines, stack, ← hslot, Nat.add_comm]

/-- the innermost cursor in another stage of its frame -/
theorem restaged {d : Cursor} (h : Seated p) (stack : p.stack = c :: below) (same : SameCursor c d)
    (pos : d.pos = c.pos) : Stacked p.frames p.procedures (d :: below) := by
  have stacked := stack ▸ h.stacked
  obtain ⟨begun, inside, _⟩ := stacked.inside_span h.bodies
  rw [← pos, ← same.span] at begun inside
  exact stacked.replace same begun inside

end Seated

theorem At.pos_lt {p : Performance} {c : Cursor} {below : List Cursor} {frame : Frame} (here : At p c below frame) :
    c.pos < p.frames.size :=
  (Array.getElem?_eq_some_iff.1 here.frame).1

/-- a directive pass that goes through leaves the cursors and the bodies in order -/
theorem Seated.passed {p : Performance} {c : Cursor} {below : List Cursor} {frame : Frame} {pass : Pass} (h : Seated p)
    (here : At p c below frame) (passed : p.passAt c below frame = (pass, none)) :
    Stacked p.frames pass.procedures (c.directed pass :: below) ∧ Bodies p.frames pass.procedures := by
  obtain ⟨_, declared, _⟩ := run_order_passed passed
  have directed : Stacked p.frames p.procedures (c.directed pass :: below) :=
    h.restaged here.stack ⟨rfl, rfl, rfl, rfl⟩ rfl
  exact ⟨directed.mono (declare_extends declared), h.bodies.declare declared here.pos_lt⟩

/-- **A move keeps cursors and timelines in order.** -/
theorem Seated.moves {p q : Performance} (h : Seated p) (m : Moves p q) : Seated q := by
  have htimelines := h.timelines
  cases m with
  | @left c below pending stack done =>
    have stacked := stack ▸ h.stacked
    refine ⟨stacked.pop, h.bodies, ?_⟩
    rw [stack, List.countP_cons] at htimelines
    simp only [leave]
    cases howns : c.ownsSlot with
    | true => simp [howns] at htimelines ⊢; omega
    | false => simpa [howns] using htimelines
  | @directed c below frame pass here stage passed layered =>
    obtain ⟨stacked, bodies⟩ := h.passed here passed
    rw [here.stack] at htimelines
    exact ⟨stacked, bodies, by simpa [afterPass, Cursor.directed, List.countP_cons] using htimelines⟩
  | @layered c below frame pass name span here stage passed layered resolved =>
    obtain ⟨stacked, bodies⟩ := h.passed here passed
    obtain ⟨new, found⟩ := resolve_ok resolved
    have hlast := h.last here.stack
    rw [here.stack] at htimelines
    refine ⟨stacked.push bodies here.inside rfl ?_ found new, bodies, ?_⟩
    · simpa [afterPass, Cursor.directed] using hlast
    · simp [layering, afterPass, Cursor.directed, Cursor.start, List.countP_cons] at htimelines ⊢
      omega
  | @unspliced c below frame here stage spliced =>
    rw [here.stack] at htimelines
    exact ⟨h.restaged here.stack ⟨rfl, rfl, rfl, rfl⟩ rfl, h.bodies, htimelines⟩
  | @spliced c below frame name span here stage spliced resolved =>
    obtain ⟨new, found⟩ := resolve_ok resolved
    have placing : Stacked p.frames p.procedures (c.placing :: below) :=
      h.restaged here.stack ⟨rfl, rfl, rfl, rfl⟩ rfl
    rw [here.stack] at htimelines
    exact ⟨placing.push h.bodies here.inside rfl rfl found new, h.bodies, htimelines⟩
  | @placed c below frame here stage =>
    have stacked := here.stack ▸ h.stacked
    obtain ⟨begun, inside, _⟩ := stacked.inside_span h.bodies
    rw [here.stack] at htimelines
    refine ⟨stacked.replace ⟨rfl, rfl, rfl, rfl⟩ (Nat.le_succ_of_le begun) here.inside, h.bodies, ?_⟩
    simpa [Cursor.advanced, List.countP_cons] using htimelines

/-- giving an event changes nothing but what is pending -/
theorem Seated.event {p : Performance} (h : Seated p) (pending : List Event) : Seated { p with pending } :=
  ⟨h.stacked, h.bodies, h.timelines⟩

/-- **A run keeps cursors and timelines in order.** -/
theorem Seated.turns {n : Nat} {p q : Performance} {given : List Event} (run : Turns n p given q) (h : Seated p) :
    Seated q := by
  induction run with
  | none p => exact h
  | moved first _ ih => exact ih (h.moves (turn_moved_iff.1 first))
  | event first _ ih =>
    obtain ⟨rest, _, rfl⟩ := turn_event_iff.1 first
    exact ih (h.event rest)

/-- a failure empties the stack and drops no timeline -/
theorem Fails.timelines {p q : Performance} {e : Error} (h : Fails p e q) :
    q.stack = [] ∧ q.timelines.length = p.timelines.length := by
  cases h with
  | directive => exact ⟨rfl, List.length_set⟩
  | layer => exact ⟨rfl, List.length_set⟩
  | splice => exact ⟨rfl, rfl⟩

/-! ## The discipline -/

/-- how the cursors and the timelines of a performance that is not over are arranged -/
structure Disciplined (p : Performance) : Prop where
  /-- the lowest cursor goes through the whole sequence, on the top-level timeline and under no name -/
  lowest : ∀ above b, p.stack = above ++ [b] →
    b.span = ⟨0, p.frames.size⟩ ∧ b.slot = 0 ∧ b.ownsSlot = false ∧ b.procedure = none
  /-- every other cursor goes through the body of a registered procedure -/
  called : ∀ above c d below, p.stack = above ++ c :: d :: below →
    ∃ name, c.procedure = some name ∧ p.procedures.get? name = some c.span
  /-- no procedure is performed by two cursors -/
  distinct : (p.stack.filterMap (·.procedure)).Nodup
  /-- every cursor is in its span or at its end, and the span is in the sequence -/
  inside : ∀ c ∈ p.stack, c.span.start ≤ c.pos ∧ c.pos ≤ c.span.stop ∧ c.span.stop ≤ p.frames.size
  /-- beside the top-level timeline there is one for each owner -/
  timelines : p.timelines.length = 1 + p.stack.countP (·.ownsSlot)
  /-- an owner's slot counts the owners up to and including it -/
  owned : ∀ above c below, p.stack = above ++ c :: below → c.ownsSlot = true →
    c.slot = (c :: below).countP (·.ownsSlot)
  /-- a cursor that owns no slot works on the timeline of the one below it -/
  shared : ∀ above c d below, p.stack = above ++ c :: d :: below → c.ownsSlot = false → c.slot = d.slot
  /-- the innermost cursor works on the last timeline -/
  last : ∀ c below, p.stack = c :: below → c.slot + 1 = p.timelines.length
  /-- a cursor with another one on it is inside its span and waits for that one -/
  waiting : ∀ above c d below, p.stack = above ++ c :: d :: below →
    d.pos < d.span.stop ∧ d.stage = if c.ownsSlot then .splice else .place
  /-- at most every registered procedure is performed at once -/
  depth : p.stack.length ≤ 1 + p.procedures.size

/-- whatever a turn or a question about the timeline looks up is there -/
structure InBounds (p : Performance) : Prop where
  /-- a turn that neither gives a pending event nor ends has a cursor to work on -/
  cursor : p.pending = [] → p.turn ≠ .ended → 0 < p.stack.length
  /-- the frame of every cursor that is inside its span -/
  frame : ∀ c ∈ p.stack, c.pos < c.span.stop → c.pos < p.frames.size
  /-- the timeline of every cursor -/
  slot : ∀ c ∈ p.stack, c.slot < p.timelines.length
  /-- the top-level timeline -/
  topLevel : p.timelines[0]? = some p.timeline

theorem mem_of_get?_isSome {ps : Procedures} {name : String} (h : (ps.get? name).isSome) :
    name ∈ ps.bodies.map Prod.fst := by
  obtain ⟨span, found⟩ := Option.isSome_iff_exists.1 h
  exact List.mem_map.2 ⟨_, mem_of_get? found, rfl⟩

namespace Seated

variable {p : Performance}

/-- the names of the cursors are distinct and registered, so the depth is bounded -/
theorem depth (h : Seated p) : p.stack.length ≤ 1 + p.procedures.size := by
  cases stack : p.stack with
  | nil => exact Nat.zero_le _
  | cons c below =>
    obtain ⟨hnodup, hlength, hnames⟩ := (stack ▸ h.stacked).names
    have hsub : (c :: below).filterMap (·.procedure) ⊆ p.procedures.bodies.map Prod.fst :=
      fun name hname => mem_of_get?_isSome (hnames name hname)
    have hle := (List.subperm_of_subset hnodup hsub).length_le
    rw [hlength, List.length_map] at hle
    rw [List.length_cons, Procedures.size]
    omega

theorem disciplined (h : Seated p) : Disciplined p where
  lowest := by
    intro above b stack
    cases (stack ▸ h.stacked).drop with
    | whole span slot shares nameless inside => exact ⟨span, slot, shares, nameless⟩
  called := by
    intro above c d below stack
    cases (stack ▸ h.stacked).drop with
    | called rest waiting stage slot named registered new begun inside => exact ⟨_, named, registered⟩
  distinct := by
    cases stack : p.stack with
    | nil => exact List.nodup_nil
    | cons c below => exact (stack ▸ h.stacked).names.1
  inside := by
    intro c hc
    obtain ⟨above, below, stack⟩ := List.append_of_mem hc
    exact (stack ▸ h.stacked).drop.inside_span h.bodies
  timelines := h.timelines
  owned := by
    intro above c below stack _
    exact (stack ▸ h.stacked).drop.slot_eq
  shared := by
    intro above c d below stack shares
    cases (stack ▸ h.stacked).drop with
    | called rest waiting stage slot named registered new begun inside => simpa [shares] using slot
  last := fun c below stack => (h.last stack).symm
  waiting := by
    intro above c d below stack
    cases (stack ▸ h.stacked).drop with
    | called rest waiting stage slot named registered new begun inside => exact ⟨waiting, stage⟩
  depth := h.depth

theorem inBounds (h : Seated p) : InBounds p where
  cursor := by
    intro pending going
    rw [List.length_pos_iff]
    exact fun stack => going (turn_ended_iff.2 ⟨pending, stack⟩)
  frame := by
    intro c hc hstop
    have := h.disciplined.inside c hc
    omega
  slot := by
    intro c hc
    obtain ⟨above, below, stack⟩ := List.append_of_mem hc
    have hslot := (stack ▸ h.stacked).drop.slot_eq
    rw [h.timelines, stack, List.countP_append, ← hslot]
    omega
  topLevel := by
    have hpos : 0 < p.timelines.length := by rw [h.timelines]; omega
    simp [Performance.timeline, timelineAt, hpos]

end Seated

/-- a performance that failed has nothing left to look up but its top-level timeline -/
theorem InBounds.failed {p q : Performance} {e : Error} (h : InBounds p) (failed : Fails p e q) : InBounds q where
  cursor := fun _ going => absurd failed.stopped going
  frame := by rw [failed.timelines.1]; exact fun c hc => absurd hc List.not_mem_nil
  slot := by rw [failed.timelines.1]; exact fun c hc => absurd hc List.not_mem_nil
  topLevel := by
    have hpos : 0 < q.timelines.length := by
      obtain ⟨hlt, _⟩ := List.getElem?_eq_some_iff.1 h.topLevel
      rw [failed.timelines.2]
      exact hlt
    simp [Performance.timeline, timelineAt, hpos]

/-- **Cursors and timelines.** In every state of a performance the cursors and timelines are arranged as `Disciplined`
says, as long as there is a cursor, and everything that is looked up is there; when a performance has ended without a
failure, only the top-level timeline is left. -/
theorem reached_disciplined (frames : Array Frame) (song : Song) (timeline : Timeline) :
    (∀ p, Reaches (start frames song timeline) p →
        p.frames = frames ∧ (p.stack ≠ [] → Disciplined p) ∧ InBounds p) ∧
      ∀ n given p, Turns n (start frames song timeline) given p → p.turn = .ended → p.timelines = [p.timeline] := by
  have seated := Seated.start frames song timeline
  refine ⟨fun p reached => ⟨reached.kept.1, ?_⟩, fun n given p run ended => ?_⟩
  · rcases reached.cases with ⟨n, given, run⟩ | ⟨n, given, r, e, run, failed⟩
    · have h := seated.turns run
      exact ⟨fun _ => h.disciplined, h.inBounds⟩
    · have hf := turn_failed_iff.1 failed
      exact ⟨fun hcursor => absurd hf.timelines.1 hcursor, (seated.turns run).inBounds.failed hf⟩
  · have hlength := (seated.turns run).timelines
    rw [(turn_ended_iff.1 ended).2] at hlength
    obtain ⟨t, ht⟩ := List.length_eq_one_iff.1 hlength
    simp [Performance.timeline, timelineAt, ht]

/-- a procedure that a second one layers, and a frame that splices the second -/
def layeredInSpliced : Array Frame :=
  #[⟨1, ⟨[("proc", "p")]⟩, [], []⟩, ⟨2, ⟨[("proc", "q"), ("proc_add", "p")]⟩, [], []⟩,
    ⟨3, ⟨[("proc_ins", "q")]⟩, [], []⟩]

/-- on the way there are three cursors and two timelines, and at the end one timeline -/
theorem layeredInSpliced_reached :
    (∃ p, Reaches (start layeredInSpliced .blank .start) p ∧ p.stack.length = 3 ∧ Disciplined p ∧
        p.timelines.length = 2) ∧
      ∃ n given p, Turns n (start layeredInSpliced .blank .start) given p ∧ p.turn = .ended ∧
        p.timelines = [p.timeline] := by
  obtain ⟨arranged, alone⟩ := reached_disciplined layeredInSpliced .blank .start
  constructor
  · have run : Turns 13 (start layeredInSpliced .blank .start) [] _ :=
      .moved rfl (.moved rfl (.moved rfl (.moved rfl (.moved rfl (.moved rfl (.moved rfl (.moved rfl (.moved rfl
        (.moved rfl (.moved rfl (.moved rfl (.moved rfl (.none _)))))))))))))
    obtain ⟨_, disciplined, _⟩ := arranged _ run.reaches
    exact ⟨_, run.reaches, rfl, disciplined (List.cons_ne_nil _ _), rfl⟩
  · obtain ⟨n, q, _, run, ⟨_, ended⟩ | ⟨e, _, failed, _⟩⟩ := drain_turns layeredInSpliced .blank .start
    · exact ⟨n, _, q, run, ended, alone n _ q run ended⟩
    · have hnone : (start layeredInSpliced .blank .start).drain.error = none := by rfl
      rw [hnone] at failed
      cases failed

end RhythmChart.Performance
