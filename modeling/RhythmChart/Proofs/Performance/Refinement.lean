/-
The machine performs what the recursion says.

A cursor about to begin a frame stands on top of the stack and works on the last timeline (`Stands`). From there the
machine gives the events of `recite` for the rest of the cursor's span and then stands where the cursor is gone, with
the song, the registry and the timeline that `recite` leaves; or it fails with the same error, and the timelines below
the cursor's own are as they were (`follows_recite`). The proof is by the recursion of `recite`: one lemma for each
of the three stages of a visit, put together by `Follows.andThen`.

The turns are counted on the way. A body called with `k` names left takes at most `turnsPerCall` turns, and a whole
performance fewer than `turnBound` (`turnsPerCall_lt_turnBound`), so the fuel of `next` and `drain` never runs out.

Main result: `drain_eq_recital`.
-/
import Mathlib.Tactic
import RhythmChart.Proofs.Performance.Moves
import RhythmChart.Proofs.Performance.Recital

namespace RhythmChart.Performance

/-! ## Following a stretch -/

/-- at most `n` turns lead from one performance to another and give some events -/
def Leads (n : Nat) (p : Performance) (given : List Event) (q : Performance) : Prop := ∃ m ≤ n, Turns m p given q

theorem Leads.trans {m n : Nat} {p q r : Performance} {xs ys : List Event} (h : Leads m p xs q) (h' : Leads n q ys r) :
    Leads (m + n) p (xs ++ ys) r := by
  obtain ⟨a, ha, h⟩ := h
  obtain ⟨b, hb, h'⟩ := h'
  exact ⟨a + b, by omega, h.trans h'⟩

/-- the performance that a stretch leaves, with the given timelines and cursors -/
def Stretch.leaves (r : Stretch) (p : Performance) (timelines : List Timeline) (stack : List Cursor) : Performance :=
  { p with song := r.song, procedures := r.procedures, timelines, stack, pending := [] }

/-- within `n` turns the machine does what the stretch says: it gives the events and goes on with `stack` and the
timelines `resume`, or fails in the same way, the timelines `kept` untouched and the stretch's own above them -/
def Follows (n : Nat) (p : Performance) (kept : List Timeline) (r : Stretch) (resume : Timeline → List Timeline)
    (stack : List Cursor) : Prop :=
  match r.error with
  | none => Leads n p r.events (r.leaves p (resume r.timeline) stack)
  | some e => ∃ q extra, Leads n p r.events q ∧ q.turn = .failed e (r.leaves p (kept ++ r.timeline :: extra) [])

namespace Follows

variable {m n : Nat} {p : Performance} {kept : List Timeline} {r : Stretch} {resume resume' : Timeline → List Timeline}
  {stack stack' : List Cursor}

theorem mono (h : Follows m p kept r resume stack) (hmn : m ≤ n) : Follows n p kept r resume stack := by
  unfold Follows at h ⊢
  split at h
  · obtain ⟨a, ha, h⟩ := h
    exact ⟨a, by omega, h⟩
  · obtain ⟨q, extra, ⟨a, ha, h⟩, hq⟩ := h
    exact ⟨q, extra, ⟨a, by omega, h⟩, hq⟩

/-- turns before a stretch -/
theorem after {given : List Event} {q : Performance} (h : Leads m p given q) (hg : given = [])
    (h' : Follows n q kept r resume stack)
    (hq : ∀ timelines stack, r.leaves q timelines stack = r.leaves p timelines stack) :
    Follows (m + n) p kept r resume stack := by
  subst hg
  unfold Follows at h' ⊢
  split at h'
  · rw [hq] at h'
    simpa using h.trans h'
  · obtain ⟨q', extra, h', hf⟩ := h'
    exact ⟨q', extra, by simpa using h.trans h', by rw [hf, hq]⟩

/-- one stretch after another -/
theorem andThen {next : Song → Timeline → Stretch} (h : Follows m p kept r resume stack)
    (h' : r.error = none →
      Follows n (r.leaves p (resume r.timeline) stack) kept (next r.song r.timeline) resume' stack') :
    Follows (m + n) p kept (r.andThen next) resume' stack' := by
  cases hr : r.error with
  | some e =>
    have hthen : r.andThen next = r := by simp only [Stretch.andThen, hr]
    rw [hthen]
    unfold Follows at h ⊢
    rw [hr] at h ⊢
    obtain ⟨q, extra, ⟨a, ha, h⟩, hq⟩ := h
    exact ⟨q, extra, ⟨a, by omega, h⟩, hq⟩
  | none =>
    have hthen : r.andThen next =
        { next r.song r.timeline with events := r.events ++ (next r.song r.timeline).events } := by
      simp only [Stretch.andThen, hr]
    rw [hthen]
    have h' := h' hr
    unfold Follows at h h' ⊢
    rw [hr] at h
    simp only at h h' ⊢
    cases he : (next r.song r.timeline).error with
    | none =>
      rw [he] at h'
      exact h.trans h'
    | some e =>
      rw [he] at h'
      obtain ⟨q, extra, h', hq⟩ := h'
      exact ⟨q, extra, h.trans h', hq⟩

end Follows

/-! ## The number of turns -/

/-- turns that a call takes at most while `k` names can still be called, for a number of frames and of placements -/
def turnsPerCall (frames placed : Nat) : Nat → Nat
  | 0 => 0
  | k + 1 => frames * (placed + 3 + 2 * turnsPerCall frames placed k) + 1

theorem turnsPerCall_lt (frames placed k : Nat) :
    turnsPerCall frames placed (k + 1) < Nat.pow (3 * frames + 4) (k + 1) * (placed + 1) := by
  induction k with
  | zero =>
    have hpow : Nat.pow (3 * frames + 4) 1 = 3 * frames + 4 := by simp
    rw [hpow]
    simp only [turnsPerCall]
    nlinarith
  | succ k ih =>
    have hpow : Nat.pow (3 * frames + 4) (k + 1 + 1) = Nat.pow (3 * frames + 4) (k + 1) * (3 * frames + 4) := rfl
    have hpos : 3 * frames + 4 ≤ Nat.pow (3 * frames + 4) (k + 1) := Nat.le_pow (Nat.succ_pos k)
    rw [turnsPerCall, hpow]
    generalize turnsPerCall frames placed (k + 1) = t at ih ⊢
    generalize Nat.pow (3 * frames + 4) (k + 1) = x at ih hpos ⊢
    have hx : placed + 3 ≤ x * (placed + 1) := by nlinarith
    calc frames * (placed + 3 + 2 * t) + 1
        ≤ frames * (x * (placed + 1) + 2 * (x * (placed + 1))) + 1 := by
          gcongr
      _ < x * (3 * frames + 4) * (placed + 1) := by nlinarith

/-- **The bound is high enough.** -/
theorem turnsPerCall_lt_turnBound (frames : Array Frame) :
    turnsPerCall frames.size (placements frames) (declarations frames + 1) < turnBound frames := by
  refine lt_of_lt_of_le (turnsPerCall_lt _ _ _) ?_
  unfold turnBound
  exact Nat.mul_le_mul_right _ (Nat.pow_le_pow_right (by omega) (by omega))

/-- `k` is at least the number of names that can be called from now on: at the top level those that are defined or
may still be declared, inside a procedure those that are not active -/
def Room (frames : Array Frame) (active : List String) (pos : Nat) (ps : Procedures) (k : Nat) : Prop :=
  if active.isEmpty then ps.size + (frames.toList.drop pos).countP declares ≤ k else spare ps active ≤ k

theorem room_start (frames : Array Frame) : Room frames [] 0 .empty (declarations frames) := by
  have hcount : frames.toList.countP declares = declarations frames := Array.countP_toList
  simp [Room, Procedures.empty, Procedures.size, hcount]

/-- a visit leaves room for the frames after it and for the procedures it calls -/
theorem Room.passed {frames : Array Frame} {active : List String} {pos k : Nat} {song : Song} {timeline : Timeline}
    {ps : Procedures} {frame : Frame} {pass : Pass} (h : Room frames active pos ps k) (here : frames[pos]? = some frame)
    (run : Pass.run ⟨pos, frames.size, active.isEmpty⟩ frame Directive.order (.start song timeline ps) = (pass, none)) :
    Room frames active (pos + 1) pass.procedures k ∧ spare pass.procedures active ≤ k := by
  cases active with
  | nil =>
    have hsize := declare_size (run_order_passed run).2.1
    have hdrop : frames.toList.drop pos = frame :: frames.toList.drop (pos + 1) := by
      obtain ⟨hlt, heq⟩ := Array.getElem?_eq_some_iff.1 here
      rw [List.drop_eq_getElem_cons (by simpa using hlt), Array.getElem_toList, heq]
    simp only [Room, List.isEmpty_nil, if_true, hdrop, List.countP_cons] at h ⊢
    have hspare := spare_le_size pass.procedures []
    omega
  | cons a active =>
    have hps : pass.procedures = ps := run_order_inner run
    rw [hps]
    exact ⟨h, by simpa [Room] using h⟩

theorem mem_placements {frames : Array Frame} {pos : Nat} {frame : Frame} (here : frames[pos]? = some frame) :
    frame.notes.length + frame.walls.length ≤ placements frames := by
  have hmem : frame ∈ frames.toList := by
    obtain ⟨hlt, rfl⟩ := Array.getElem?_eq_some_iff.1 here
    simp
  unfold placements
  generalize frames.toList = fs at hmem ⊢
  induction fs with
  | nil => cases hmem
  | cons f rest ih =>
    rcases List.mem_cons.1 hmem with rfl | hrest
    · simp only [List.foldr_cons]; omega
    · have := ih hrest
      simp only [List.foldr_cons]; omega

/-! ## The stages of a visit -/

/-- the innermost cursor `c` works on the last timeline, and the active procedures are those of the cursors -/
structure Stands (p : Performance) (kept : List Timeline) (timeline : Timeline) (c : Cursor) (below : List Cursor)
    (active : List String) : Prop where
  pending : p.pending = []
  stack : p.stack = c :: below
  timelines : p.timelines = kept ++ [timeline]
  slot : c.slot = kept.length
  names : (c :: below).filterMap (·.procedure) = active
  topLevel : below.isEmpty = active.isEmpty

namespace Stands

variable {p : Performance} {kept : List Timeline} {timeline : Timeline} {c : Cursor} {below : List Cursor}
  {active : List String}

theorem timelineAt (h : Stands p kept timeline c below active) : p.timelineAt c.slot = timeline := by
  simp [Performance.timelineAt, h.timelines, h.slot]

theorem set (h : Stands p kept timeline c below active) (t : Timeline) : p.timelines.set c.slot t = kept ++ [t] := by
  simp [h.timelines, h.slot]

theorem passAt (h : Stands p kept timeline c below active) (frame : Frame) :
    p.passAt c below frame =
      Pass.run ⟨c.pos, p.frames.size, active.isEmpty⟩ frame Directive.order (.start p.song timeline p.procedures) := by
  rw [Performance.passAt, h.timelineAt, h.topLevel]

end Stands

/-- the machine looks for a name among its cursors, the recursion among the active names -/
theorem resolve_eq_summon {p : Performance} {active : List String} (h : p.stack.filterMap (·.procedure) = active)
    (name : String) : p.resolve name = summon p.procedures active name := by
  have hany : p.stack.any (·.procedure = some name) = true ↔ name ∈ active := by
    rw [← h]
    simp [List.mem_filterMap]
  unfold resolve summon
  by_cases hname : name ∈ active
  · rw [if_pos (hany.2 hname), if_pos hname]
  · rw [if_neg (fun hc => hname (hany.1 hc)), if_neg hname]

/-- pending events are given one by one -/
theorem turns_pending (events : List Event) (p : Performance) :
    Turns events.length { p with pending := events } events { p with pending := [] } := by
  induction events with
  | nil => exact .none _
  | cons e rest ih => exact .event (turn_event_iff.2 ⟨rest, rfl, rfl⟩) ih

theorem Follows.onCopyOf {n : Nat} {p : Performance} {kept : List Timeline} {t : Timeline} {r : Stretch}
    {stack : List Cursor} (h : Follows n p (kept ++ [t]) r (fun _ => kept ++ [t]) stack) :
    Follows n p kept (r.onCopyOf t) (fun t => kept ++ [t]) stack := by
  unfold Follows at h ⊢
  cases hr : r.error with
  | none =>
    rw [hr] at h
    simp only [Stretch.onCopyOf, hr]
    exact h
  | some e =>
    rw [hr] at h
    obtain ⟨q, extra, hl, hq⟩ := h
    simp only [Stretch.onCopyOf, hr]
    exact ⟨q, r.timeline :: extra, hl, by rw [hq]; simp [Stretch.leaves]⟩

/-! ## Simulation -/

/-- whenever the machine stands before the frames from `pos` up to `stop`, it follows the recursion -/
def Performs (frames : Array Frame) (active : List String) (pos stop : Nat) (song : Song) (timeline : Timeline)
    (ps : Procedures) : Prop :=
  ∀ (k : Nat) (p : Performance) (kept : List Timeline) (c : Cursor) (below : List Cursor), Room frames active pos ps k →
    Stands p kept timeline c below active → p.frames = frames → p.song = song → p.procedures = ps → c.pos = pos →
    c.span.stop = stop → c.stage = .directives →
    Follows ((frames.size - pos) * (placements frames + 3 + 2 * turnsPerCall frames.size (placements frames) k) + 1) p
      kept (recite frames active pos stop song timeline ps) (fun t => if c.ownsSlot then kept else kept ++ [t]) below

/-- what a body that can be called takes, in terms of the caller's room -/
theorem Performs.called {frames : Array Frame} {active : List String} {name : String} {span : Span} {song : Song}
    {timeline : Timeline} {ps : Procedures} {k : Nat} {p : Performance} {kept : List Timeline} {c : Cursor}
    {below : List Cursor}
    (h : Performs frames (name :: active) span.start span.stop song timeline ps)
    (found : summon ps active name = .ok span) (hk : spare ps active ≤ k)
    (stands : Stands p kept timeline c below (name :: active)) (hf : p.frames = frames) (hs : p.song = song)
    (hp : p.procedures = ps) (hc : c.pos = span.start) (hstop : c.span.stop = span.stop) (stage : c.stage = .directives) :
    Follows (turnsPerCall frames.size (placements frames) k) p kept
      (recite frames (name :: active) span.start span.stop song timeline ps)
      (fun t => if c.ownsSlot then kept else kept ++ [t]) below := by
  have hlt := spare_lt found
  obtain ⟨k, rfl⟩ : ∃ l, k = l + 1 := ⟨k - 1, by omega⟩
  have hroom : Room frames (name :: active) span.start ps k := by
    simp only [Room, List.isEmpty_cons, Bool.false_eq_true, if_false]
    omega
  refine (h k p kept c below hroom stands hf hs hp hc hstop stage).mono ?_
  rw [turnsPerCall]
  gcongr
  omega

section Stages

variable {p : Performance} {kept : List Timeline} {timeline : Timeline} {c : Cursor} {below : List Cursor}
  {active : List String} {frame : Frame} {k : Nat}

/-- the directives, and the layered procedure if there is one -/
theorem follows_layered {pass : Pass} (stands : Stands p kept timeline c below active) (here : At p c below frame)
    (stage : c.stage = .directives) (passed : p.passAt c below frame = (pass, none))
    (hk : spare pass.procedures active ≤ k)
    (ih : ∀ name span, summon pass.procedures active name = .ok span →
      Performs p.frames (name :: active) span.start span.stop pass.song pass.timeline pass.procedures) :
    Follows (1 + turnsPerCall p.frames.size (placements p.frames) k) p kept
      ((call p.frames active frame.line pass.procedures pass.layered pass.song pass.timeline).onCopyOf pass.timeline)
      (fun t => kept ++ [t]) (c.directed pass :: below) := by
  have hafter : ∀ stack, p.afterPass c.slot pass stack =
      ⟨p.frames, pass.song, pass.procedures, kept ++ [pass.timeline], stack, [], p.bound⟩ := fun stack => by
    simp [afterPass, stands.set pass.timeline, stands.pending]
  cases layered : pass.layered with
  | none =>
    have hturn := (Moves.directed here stage passed layered).turn
    rw [hafter] at hturn
    exact ⟨1, Nat.le_add_right _ _, .moved hturn (.none _)⟩
  | some name =>
    have hresolve : (p.afterPass c.slot pass (c.directed pass :: below)).resolve name =
        summon pass.procedures active name := resolve_eq_summon stands.names name
    cases found : summon pass.procedures active name with
    | error fault =>
      have hturn := (Fails.layer here stage passed layered (hresolve.trans found)).turn
      rw [hafter] at hturn
      simp only [call, found]
      exact ⟨p, [], ⟨0, Nat.zero_le _, .none p⟩, hturn⟩
    | ok span =>
      have hturn := (Moves.layered here stage passed layered (hresolve.trans found)).turn
      have inside : c.slot < p.timelines.length := by simp [stands.slot, stands.timelines]
      have hat := timelineAt_afterPass inside pass (c.directed pass :: below)
      have callee : Stands ((p.afterPass c.slot pass (c.directed pass :: below)).layering c.slot span name)
          (kept ++ [pass.timeline]) pass.timeline (.start span (kept ++ [pass.timeline]).length true (some name))
          (c.directed pass :: below) (name :: active) :=
        ⟨stands.pending, by simp [layering, hafter], by rw [layering, hat, hafter], rfl,
          congrArg (name :: ·) stands.names, rfl⟩
      simp only [call, found]
      refine .after ⟨1, le_rfl, .moved hturn (.none _)⟩ rfl (.onCopyOf ?_) (fun _ _ => rfl)
      exact (ih name span found).called found hk callee rfl rfl rfl rfl rfl rfl

/-- the spliced procedure, if there is one -/
theorem follows_spliced {ps : Procedures} (stands : Stands p kept timeline c below active) (here : At p c below frame)
    (stage : c.stage = .splice) (hps : p.procedures = ps) (hk : spare ps active ≤ k)
    (ih : ∀ name span, summon ps active name = .ok span →
      Performs p.frames (name :: active) span.start span.stop p.song timeline ps) :
    Follows (1 + turnsPerCall p.frames.size (placements p.frames) k) p kept
      (call p.frames active frame.line ps c.spliced p.song timeline)
      (fun t => kept ++ [t]) (c.placing :: below) := by
  subst hps
  have hstay : ∀ stack, { p with stack } = ⟨p.frames, p.song, p.procedures, kept ++ [timeline], stack, [], p.bound⟩ :=
    fun stack => by rw [← stands.timelines, ← stands.pending]
  cases spliced : c.spliced with
  | none =>
    have hturn := (Moves.unspliced here stage spliced).turn
    rw [hstay] at hturn
    exact ⟨1, Nat.le_add_right _ _, .moved hturn (.none _)⟩
  | some name =>
    have hresolve : { p with stack := c.placing :: below }.resolve name = summon p.procedures active name :=
      resolve_eq_summon stands.names name
    cases found : summon p.procedures active name with
    | error fault =>
      have hturn := (Fails.splice here stage spliced (hresolve.trans found)).turn
      rw [hstay] at hturn
      simp only [call, found]
      exact ⟨p, [], ⟨0, Nat.zero_le _, .none p⟩, hturn⟩
    | ok span =>
      have hturn := (Moves.spliced here stage spliced (hresolve.trans found)).turn
      have callee : Stands ({ p with stack := c.placing :: below }.splicing c.slot span name) kept timeline
          (.start span c.slot false (some name)) (c.placing :: below) (name :: active) :=
        ⟨stands.pending, rfl, stands.timelines, stands.slot, congrArg (name :: ·) stands.names, rfl⟩
      simp only [call, found]
      refine .after ⟨1, le_rfl, .moved hturn (.none _)⟩ rfl ?_ (fun _ _ => rfl)
      exact (ih name span found).called found hk callee rfl rfl rfl rfl rfl rfl

/-- the frame's own placements, and the events given before anything else is done -/
theorem follows_placed {ps : Procedures} (stands : Stands p kept timeline c below active) (here : At p c below frame)
    (stage : c.stage = .place) (hps : p.procedures = ps) :
    Follows (1 + placements p.frames) p kept ⟨stamp frame timeline c.frameOffset, none, p.song, timeline.advance, ps⟩
      (fun t => kept ++ [t]) (c.advanced :: below) := by
  subst hps
  have hturn := (Moves.placed here stage).turn
  rw [stands.timelineAt, stands.set] at hturn
  have hgiven := turns_pending (stamp frame timeline c.frameOffset)
    ⟨p.frames, p.song, p.procedures, kept ++ [timeline.advance], c.advanced :: below, [], p.bound⟩
  have hlength : (stamp frame timeline c.frameOffset).length ≤ placements p.frames := by
    simpa [stamp] using mem_placements here.frame
  refine ⟨(stamp frame timeline c.frameOffset).length + 1, by omega, ?_⟩
  exact .moved hturn hgiven

/-- a whole visit -/
theorem follows_visit {pass : Pass} (stands : Stands p kept timeline c below active) (here : At p c below frame)
    (stage : c.stage = .directives) (passed : p.passAt c below frame = (pass, none))
    (hk : spare pass.procedures active ≤ k)
    (ih : ∀ song timeline name span, summon pass.procedures active name = .ok span →
      Performs p.frames (name :: active) span.start span.stop song timeline pass.procedures) :
    Follows (placements p.frames + 3 + 2 * turnsPerCall p.frames.size (placements p.frames) k) p kept
      (visit frame pass (call p.frames active frame.line pass.procedures))
      (fun t => kept ++ [t]) ((c.directed pass).placing.advanced :: below) := by
  -- between two stages the cursor stands where it stood, with another song, timeline and stage
  have standsAt : ∀ (r : Stretch) (c' : Cursor), c'.slot = c.slot → c'.procedure = c.procedure →
      Stands (r.leaves p (kept ++ [r.timeline]) (c' :: below)) kept r.timeline c' below active := by
    intro r c' hslot hname
    refine ⟨rfl, rfl, rfl, hslot.trans stands.slot, ?_, stands.topLevel⟩
    rw [← stands.names, List.filterMap_cons, List.filterMap_cons, hname]
  set t := turnsPerCall p.frames.size (placements p.frames) k
  set layered := (call p.frames active frame.line pass.procedures pass.layered pass.song pass.timeline).onCopyOf
    pass.timeline
  set spliced := layered.andThen (call p.frames active frame.line pass.procedures pass.spliced)
  have hlayered : Follows (1 + t) p kept layered (fun t => kept ++ [t]) (c.directed pass :: below) :=
    follows_layered stands here stage passed hk (ih pass.song pass.timeline)
  have hspliced : Follows (1 + t + (1 + t)) p kept spliced (fun t => kept ++ [t]) ((c.directed pass).placing :: below) :=
    hlayered.andThen fun _ => follows_spliced (standsAt _ (c.directed pass) rfl rfl)
      ⟨rfl, rfl, here.inside, here.frame⟩ rfl (call_procedures ..) hk (ih _ _)
  have hprocedures : spliced.procedures = pass.procedures :=
    Stretch.andThen_procedures (call_procedures ..) fun _ _ => call_procedures ..
  have hplaced : Follows (1 + t + (1 + t) + (1 + placements p.frames)) p kept
      (visit frame pass (call p.frames active frame.line pass.procedures)) (fun t => kept ++ [t])
      ((c.directed pass).placing.advanced :: below) :=
    hspliced.andThen fun _ => follows_placed (standsAt _ (c.directed pass).placing rfl rfl)
      ⟨rfl, rfl, here.inside, here.frame⟩ rfl hprocedures
  exact hplaced.mono (by omega)

end Stages

/-- the cursor is gone when its span is done -/
theorem follows_done {p : Performance} {kept : List Timeline} {timeline : Timeline} {c : Cursor} {below : List Cursor}
    {active : List String} (stands : Stands p kept timeline c below active)
    (done : c.span.stop ≤ c.pos ∨ p.frames[c.pos]? = none) :
    Follows 1 p kept (.idle p.song timeline p.procedures) (fun t => if c.ownsSlot then kept else kept ++ [t]) below := by
  have hturn := (Moves.left stands.pending stands.stack done).turn
  have hleave : p.leave c below =
      ⟨p.frames, p.song, p.procedures, if c.ownsSlot then kept else kept ++ [timeline], below, [], p.bound⟩ := by
    simp [leave, stands.timelines, stands.pending]
  rw [hleave] at hturn
  exact ⟨1, le_rfl, .moved hturn (.none _)⟩

/-- **Simulation.** The machine follows the recursion from every frame of every span. -/
theorem follows_recite (frames : Array Frame) (active : List String) (pos stop : Nat) (song : Song) (timeline : Timeline)
    (ps : Procedures) : Performs frames active pos stop song timeline ps := by
  induction active, pos, stop, song, timeline, ps using recite.induct frames with
  | case1 active pos stop song timeline ps inside absent =>
    rintro k p kept c below - stands rfl rfl rfl rfl rfl stage
    rw [recite_done (.inr absent)]
    exact (follows_done stands (.inr absent)).mono (Nat.le_add_left 1 _)
  | case2 active pos stop song timeline ps inside frame present pass fault run =>
    rintro k p kept c below - stands rfl rfl rfl rfl rfl stage
    rw [recite_refused inside present run]
    have here : At p c below frame := ⟨stands.pending, stands.stack, inside, present⟩
    have hturn := (Fails.directive here stage ((stands.passAt frame).trans run)).turn
    refine ⟨p, [], ⟨0, Nat.zero_le _, .none p⟩, ?_⟩
    rw [hturn, afterPass, stands.set, stands.pending]
    rfl
  | case3 active pos stop song timeline ps inside frame present pass run ihCall ihNext =>
    rintro k p kept c below room stands rfl rfl rfl rfl rfl stage
    rw [recite_passed inside present run]
    have here : At p c below frame := ⟨stands.pending, stands.stack, inside, present⟩
    obtain ⟨roomNext, hk⟩ := room.passed present run
    have hvisit := follows_visit stands here stage ((stands.passAt frame).trans run) hk ihCall
    have hprocedures :
        (visit frame pass (call p.frames active frame.line pass.procedures)).procedures = pass.procedures :=
      visit_procedures fun _ _ _ => call_procedures ..
    set visited := visit frame pass (call p.frames active frame.line pass.procedures)
    have hwhole : Follows _ p kept
        (visited.andThen fun song timeline =>
          recite p.frames active (c.pos + 1) c.span.stop song timeline pass.procedures)
        (fun t => if c.ownsSlot then kept else kept ++ [t]) below :=
      hvisit.andThen fun _ => ihNext visited.song visited.timeline k
      (visited.leaves p (kept ++ [visited.timeline]) ((c.directed pass).placing.advanced :: below)) kept
      (c.directed pass).placing.advanced below roomNext
      ⟨rfl, rfl, rfl, stands.slot, stands.names, stands.topLevel⟩ rfl rfl hprocedures rfl rfl rfl
    refine hwhole.mono ?_
    -- one frame fewer is left
    obtain ⟨l, hl⟩ : ∃ l, p.frames.size - c.pos = l + 1 := by
      obtain ⟨hlt, _⟩ := Array.getElem?_eq_some_iff.1 present
      exact ⟨p.frames.size - c.pos - 1, by omega⟩
    have hl' : p.frames.size - (c.pos + 1) = l := by omega
    rw [hl, hl', Nat.add_one_mul l]
    omega
  | case4 active pos stop song timeline ps outside =>
    rintro k p kept c below - stands rfl rfl rfl rfl rfl stage
    rw [recite_done (.inl (Nat.not_lt.1 outside))]
    exact (follows_done stands (.inl (Nat.not_lt.1 outside))).mono (Nat.le_add_left 1 _)

/-! ## Whole performances -/

/-- a performance runs as the recursion says, in fewer turns than its bound -/
theorem turns_recital (frames : Array Frame) (song : Song) (timeline : Timeline) :
    ∃ n q, n < turnBound frames ∧ Turns n (start frames song timeline) (recital frames song timeline).events q ∧
      (((recital frames song timeline).error = none ∧ q = (recital frames song timeline).leaves
          (start frames song timeline) [(recital frames song timeline).timeline] []) ∨
        ∃ e extra, (recital frames song timeline).error = some e ∧
          q.turn = .failed e ((recital frames song timeline).leaves
            (start frames song timeline) ((recital frames song timeline).timeline :: extra) [])) := by
  have stands : Stands (start frames song timeline) [] timeline (.start ⟨0, frames.size⟩ 0 false none) [] [] :=
    ⟨rfl, rfl, rfl, rfl, rfl, rfl⟩
  have hfollows := follows_recite frames [] 0 frames.size song timeline .empty (declarations frames) _ _ _ _
    (room_start frames) stands rfl rfl rfl rfl rfl rfl
  have hbound := turnsPerCall_lt_turnBound frames
  rw [turnsPerCall] at hbound
  change Follows _ _ _ (recital frames song timeline) _ _ at hfollows
  rw [Nat.sub_zero] at hfollows
  unfold Follows at hfollows
  split at hfollows
  · rename_i herror
    obtain ⟨n, hn, hturns⟩ := hfollows
    exact ⟨n, _, by omega, hturns, .inl ⟨herror, rfl⟩⟩
  · rename_i e herror
    obtain ⟨q, extra, ⟨n, hn, hturns⟩, hq⟩ := hfollows
    exact ⟨n, q, by omega, hturns, .inr ⟨e, extra, herror, hq⟩⟩

/-- a performance gives all its events in fewer turns than its bound, and then ends or fails -/
theorem drain_turns (frames : Array Frame) (song : Song) (timeline : Timeline) :
    ∃ n q, n < turnBound frames ∧
      Turns n (start frames song timeline) (start frames song timeline).drain.events q ∧
      (((start frames song timeline).drain.error = none ∧ q.turn = .ended) ∨
        ∃ e q', (start frames song timeline).drain.error = some e ∧ q.turn = .failed e q') := by
  obtain ⟨n, q, hn, hturns, ⟨_, hq⟩ | ⟨e, extra, _, hq⟩⟩ := turns_recital frames song timeline
  · have hended : q.turn = .ended := by
      rw [hq]
      exact turn_ended_iff.2 ⟨rfl, rfl⟩
    rw [drain_of_ended hturns hn hended]
    exact ⟨n, _, hn, hturns, .inl ⟨rfl, hended⟩⟩
  · rw [drain_of_failed hturns hn hq]
    exact ⟨n, q, hn, hturns, .inr ⟨e, _, rfl, hq⟩⟩

/-- a performance that succeeds comes to its end in fewer turns than its bound -/
theorem drain_succeeded {frames : Array Frame} {song : Song} {timeline : Timeline}
    (succeeded : (start frames song timeline).drain.error = none) :
    let played := (start frames song timeline).drain
    ∃ n, n < turnBound frames ∧ Turns n (start frames song timeline) played.events played.final ∧
      played.final.turn = .ended := by
  intro played
  obtain ⟨n, q, hn, run, ⟨_, ended⟩ | ⟨e, _, failed, _⟩⟩ := drain_turns frames song timeline
  · have hplayed : played = ⟨played.events, none, q⟩ := drain_of_ended run hn ended
    have hfinal : played.final = q := by rw [hplayed]
    rw [hfinal]
    exact ⟨n, hn, run, ended⟩
  · rw [failed] at succeeded
    cases succeeded

/-- **The machine refines the recursion.** Pulling a performance until it ends gives exactly the events, the error,
the song, the top-level timeline and the registry of the recursive reading; after that there is nothing left. -/
theorem drain_eq_recital (frames : Array Frame) (song : Song) (timeline : Timeline) :
    let played := (start frames song timeline).drain
    recital frames song timeline =
        ⟨played.events, played.error, played.final.song, played.final.timeline, played.final.procedures⟩ ∧
      played.final.turn = .ended := by
  intro played
  obtain ⟨n, q, hn, hturns, ⟨herror, rfl⟩ | ⟨e, extra, herror, hq⟩⟩ := turns_recital frames song timeline
  · have hplayed : played = _ := drain_of_ended hturns hn (turn_ended_iff.2 ⟨rfl, rfl⟩)
    rw [hplayed]
    exact ⟨by rw [← herror]; rfl, turn_ended_iff.2 ⟨rfl, rfl⟩⟩
  · have hplayed : played = _ := drain_of_failed hturns hn hq
    rw [hplayed]
    exact ⟨by rw [← herror]; rfl, turn_ended_iff.2 ⟨rfl, rfl⟩⟩

end RhythmChart.Performance
