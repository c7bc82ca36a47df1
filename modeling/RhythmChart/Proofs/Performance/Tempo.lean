/-
Tempos follow the order of the frames.

A frame that sets a tempo sets it for the song and for the timeline it is performed on. Copies of a timeline go with
their procedures, so the two can drift apart. They are still set at the same time, because a body replays only frames
that the top level has visited: all timelines in use have the same first tempo, and it is the one that the frames
visited so far give first (`Tempos`). After that the song has the tempo of the last visit, and the top-level timeline
that of the last visit outside the layered procedures.

Main result: `tempo_follows_frames`.
-/
import Mathlib.Tactic
import RhythmChart.Level.Build
import RhythmChart.Proofs.Chart.Linewise
import RhythmChart.Proofs.Compilation.Drawing
import RhythmChart.Proofs.Performance.History

namespace RhythmChart

/-- whether a frame sets a tempo -/
def Frame.setsTempo (f : Frame) : Bool := (f.directive? Directive.tempo.key).isSome

namespace Performance

/-! ## The first tempo -/

/-- the first tempo that the first `n` frames give -/
def tempoWithin (frames : Array Frame) (n : Nat) : Option Float := (frames.toList.take n).findSome? (·.number? .tempo)

theorem tempoWithin_succ {frames : Array Frame} {n : Nat} {frame : Frame} (here : frames[n]? = some frame) :
    tempoWithin frames (n + 1) = (tempoWithin frames n).or (frame.number? .tempo) := by
  have at_n : frames.toList[n]? = some frame := by simpa using here
  rw [tempoWithin, List.take_add_one, at_n, List.findSome?_append, Option.toList_some, List.findSome?_singleton]
  rfl

theorem tempoWithin_isSome {frames : Array Frame} {n i : Nat} {frame : Frame} (inside : i < n)
    (here : frames[i]? = some frame) (given : (frame.number? .tempo).isSome) : (tempoWithin frames n).isSome := by
  rw [tempoWithin, List.findSome?_isSome_iff]
  refine ⟨frame, List.mem_of_getElem? (i := i) ?_, given⟩
  rw [List.getElem?_take_of_lt inside]
  simpa using here

/-- frames that set a tempo give its number -/
theorem findSome?_eq_find?_bind {frames : List Frame}
    (read : ∀ frame ∈ frames, (frame.number? .tempo).isSome = frame.setsTempo) :
    frames.findSome? (·.number? .tempo) = (frames.find? Frame.setsTempo).bind (·.number? .tempo) := by
  induction frames with
  | nil => rfl
  | cons frame rest ih =>
    have here := read frame List.mem_cons_self
    rw [List.findSome?_cons, List.find?_cons, ← here]
    cases number : frame.number? .tempo with
    | none => exact ih fun f hf => read f (List.mem_cons_of_mem frame hf)
    | some x => simp [number]

/-! ## Turns -/

/-- no layered procedure is being performed -/
def unlayered (p : Performance) : Bool := p.stack.all (!·.ownsSlot)

theorem Seated.slot_eq_zero {p : Performance} {c : Cursor} {below : List Cursor} (h : Seated p)
    (stack : p.stack = c :: below) : c.slot = 0 ↔ p.unlayered = true := by
  have stacked := stack ▸ h.stacked
  rw [stacked.slot_eq, unlayered, stack, List.countP_eq_zero, List.all_eq_true]
  simp

/-- the tempos of `p`, which is in a performance of `frames` and has the states `history` behind it -/
structure Tempos (frames : Array Frame) (history : List Performance) (p : Performance) : Prop where
  /-- the frames visited give the tempos that they set -/
  read : ∀ i frame, i < p.seen → frames[i]? = some frame → (frame.number? .tempo).isSome = frame.setsTempo
  /-- every timeline has the first tempo of the frames visited -/
  first : ∀ t ∈ p.timelines, t.firstTempo = tempoWithin frames p.seen ∧ t.tempo.isSome = t.firstTempo.isSome
  /-- and so the song has one as well -/
  set : p.song.tempo.isSome = (tempoWithin frames p.seen).isSome
  /-- the song has the last tempo -/
  song : p.song.tempo = (numbersOf .tempo history).getLast?
  /-- the top-level timeline has the last one outside layered procedures -/
  timeline : p.timeline.tempo = (numbersOf .tempo (history.filter unlayered)).getLast?

theorem Tempos.start (frames : Array Frame) : Tempos frames [] (start frames .blank .start) where
  read := by intro i frame hi; cases hi
  first := by
    intro t ht
    rw [List.mem_singleton.1 ht]
    exact ⟨rfl, rfl⟩
  set := rfl
  song := rfl
  timeline := rfl

section Turns

variable {frames : Array Frame} {history : List Performance} {song : Song} {p q : Performance} {c : Cursor}
  {below : List Cursor} {frame : Frame}

theorem getLast?_numbersOf_snoc (d : Directive) (history : List Performance) (q : Performance) :
    (numbersOf d (history ++ [q])).getLast? = (q.visited.bind (·.number? d)).or (numbersOf d history).getLast? := by
  rw [numbersOf_snoc, List.getLast?_append]
  cases q.visited.bind (·.number? d) <;> rfl

theorem getLast?_numbersOf_filter (d : Directive) (history : List Performance) (q : Performance) :
    (numbersOf d ((history ++ [q]).filter unlayered)).getLast? =
      if q.unlayered then (q.visited.bind (·.number? d)).or (numbersOf d (history.filter unlayered)).getLast?
      else (numbersOf d (history.filter unlayered)).getLast? := by
  rw [List.filter_append]
  cases layered : q.unlayered with
  | true => simp only [List.filter_cons, layered, List.filter_nil, if_true, getLast?_numbersOf_snoc]
  | false => simp [layered]

/-- a turn that is no visit -/
theorem Tempos.idle (h : Tempos frames history p) (unvisited : p.visited = none) (seen : q.seen = p.seen)
    (song : q.song = p.song) (topLevel : q.timeline = p.timeline ∨ q.timeline = p.timeline.advance)
    (timelines : ∀ t ∈ q.timelines, ∃ u ∈ p.timelines, t = u ∨ t = u.advance) : Tempos frames (history ++ [p]) q where
  read := by rw [seen]; exact h.read
  first := by
    intro t ht
    rw [seen]
    obtain ⟨u, hu, rfl | rfl⟩ := timelines t ht
    · exact h.first t hu
    · exact h.first u hu
  set := by rw [song, seen]; exact h.set
  song := by rw [song, h.song, getLast?_numbersOf_snoc, unvisited, Option.bind_none, Option.none_or]
  timeline := by
    have kept : q.timeline.tempo = p.timeline.tempo := by
      rcases topLevel with same | same
      · rw [same]
      · rw [same]
        rfl
    rw [kept, h.timeline, getLast?_numbersOf_filter, unvisited, Option.bind_none, Option.none_or, ite_self]

/-- the frames that count as visited around a visit by `c` -/
structure Sees (p q : Performance) (c : Cursor) (below : List Cursor) : Prop where
  topLevel : below = [] → p.seen = c.pos ∧ q.seen = c.pos + 1
  inner : below ≠ [] → c.pos < p.seen ∧ q.seen = p.seen

theorem Standing.sees (h : Standing frames song p) (m : Moves p q) (directs : Directs p c below frame) :
    Sees p q c below := by
  rcases h.seated.seen_moves h.working m with ⟨c', frame', directs', before, after⟩ | ⟨no, same⟩
  · obtain ⟨rfl, rfl, -⟩ := directs.toAt.unique directs'.toAt
    exact ⟨fun _ => ⟨before, after⟩, fun inner => absurd rfl inner⟩
  · refine ⟨fun outer => ?_, fun inner => ⟨h.descending.seen_lt directs.toAt inner, same⟩⟩
    subst outer
    exact absurd directs (no c frame)

/-- a body replays frames that count already, so only the top level can give a first tempo -/
theorem Sees.tempoWithin (sees : Sees p q c below) (here : frames[c.pos]? = some frame) :
    tempoWithin frames q.seen = (tempoWithin frames p.seen).or (frame.number? .tempo) := by
  by_cases outer : below = []
  · obtain ⟨before, after⟩ := sees.topLevel outer
    rw [before, after, tempoWithin_succ here]
  · obtain ⟨earlier, same⟩ := sees.inner outer
    rw [same]
    cases number : frame.number? .tempo with
    | none => rw [Option.or_none]
    | some x => rw [Option.or_of_isSome (tempoWithin_isSome earlier here (by rw [number]; rfl))]

/-- and only at the top level a visit counts -/
theorem Sees.covers (sees : Sees p q c below) (here : frames[c.pos]? = some frame) {holds : Frame → Prop}
    (now : holds frame) (before : ∀ i f, i < p.seen → frames[i]? = some f → holds f) :
    ∀ i f, i < q.seen → frames[i]? = some f → holds f := by
  intro i f hi hf
  by_cases outer : below = []
  · obtain ⟨seen, seen'⟩ := sees.topLevel outer
    rw [seen'] at hi
    rcases Nat.lt_succ_iff_lt_or_eq.1 hi with hi | rfl
    · exact before i f (seen ▸ hi) hf
    · rw [here] at hf
      cases hf
      exact now
  · rw [(sees.inner outer).2] at hi
    exact before i f hi hf

/-- the timelines after a visit: the one that its directives made, and inside a procedure the others -/
theorem Seated.timelines_of_visit {pass : Pass} (h : Seated p) (stack : p.stack = c :: below)
    (copies : ∀ t ∈ q.timelines, t ∈ p.timelines.set c.slot pass.timeline) :
    ∀ t ∈ q.timelines, t = pass.timeline ∨ below ≠ [] ∧ t ∈ p.timelines := by
  intro t ht
  by_cases outer : below = []
  · subst outer
    have alone := h.alone stack
    have only := copies t ht
    rw [alone.timelines, alone.slot, List.set_cons_zero, List.mem_singleton] at only
    exact .inl only
  · rcases List.mem_or_eq_of_mem_set (copies t ht) with mem | made
    · exact .inr ⟨outer, mem⟩
    · exact .inl made

/-- **A visit**, with directives that go through. -/
theorem Tempos.visit {pass : Pass} (h : Tempos frames history p) (standing : Standing frames song p)
    (sees : Sees p q c below) (directs : Directs p c below frame) (made : p.passAt c below frame = (pass, none))
    (song : q.song = pass.song) (timelines : p.timelines.set c.slot pass.timeline <+: q.timelines)
    (copies : ∀ t ∈ q.timelines, t ∈ p.timelines.set c.slot pass.timeline) : Tempos frames (history ++ [p]) q := by
  have inside := standing.seated.slot_lt directs.stack
  have here : frames[c.pos]? = some frame := standing.frames ▸ directs.frame
  obtain ⟨read, songTempo, tempo, first⟩ := run_tempo made
  simp only [Pass.start] at songTempo tempo first
  obtain ⟨oldFirst, oldSet⟩ := h.first _ (timelineAt_mem inside)
  have within := sees.tempoWithin here
  constructor
  · exact sees.covers here read h.read
  · intro t ht
    rcases standing.seated.timelines_of_visit directs.stack copies t ht with rfl | ⟨inner, old⟩
    · refine ⟨by rw [first, within, oldFirst], ?_⟩
      rw [tempo, first, Option.isSome_or, Option.isSome_or, oldSet, Bool.or_comm]
    · rw [(sees.inner inner).2]
      exact h.first t old
  · rw [song, songTempo, within, Option.isSome_or, Option.isSome_or, h.set, Bool.or_comm]
  · rw [song, songTempo, getLast?_numbersOf_snoc, directs.visits, ← h.song]
    rfl
  · rw [timeline_of_set inside timelines, getLast?_numbersOf_filter, directs.visits, ← h.timeline]
    by_cases layered : p.unlayered = true
    · have slot := (standing.seated.slot_eq_zero directs.stack).2 layered
      rw [if_pos slot, if_pos layered, tempo, slot]
      rfl
    · have slot := fun hslot => layered ((standing.seated.slot_eq_zero directs.stack).1 hslot)
      rw [if_neg slot, if_neg layered]

/-- **A turn** of a performance that does not fail there -/
theorem Tempos.moves (h : Tempos frames history p) (standing : Standing frames song p) (m : Moves p q) :
    Tempos frames (history ++ [p]) q := by
  cases standing.seated.effect (q := q) (by rw [m.turn]; rfl) with
  | @visit c below frame pass fault directs made hsong _ timelines copies =>
    have passed := m.passed directs
    rw [made] at passed
    subst passed
    exact h.visit standing (standing.sees m directs) directs made hsong timelines copies
  | other unvisited hsong _ topLevel timelines =>
    have same : q.seen = p.seen := by
      rcases standing.seated.seen_moves standing.working m with ⟨c, frame, directs, -⟩ | ⟨-, same⟩
      · exact absurd directs (visited_eq_none_iff.1 unvisited c [] frame)
      · exact same
    exact h.idle unvisited same hsong topLevel timelines

theorem Course.tempos (succeeded : (Performance.start frames .blank .start).drain.error = none)
    (run : Course (Performance.start frames .blank .start) history p) : Tempos frames history p := by
  induction run with
  | here => exact .start frames
  | @turn history q r run next ih =>
    have standing := run.reaches.standing (Turn.going next)
    rcases Turn.after_cases next with ⟨e, pending, given, rfl⟩ | m | ⟨e, failed⟩
    · exact ih.idle (unvisited_of_pending given) rfl rfl (.inl rfl) fun t ht => ⟨t, ht, .inl rfl⟩
    · exact ih.moves standing m
    · exact absurd failed (run.reaches.not_fails succeeded)

end Turns

/-! ## Performances -/

/-- the tempos that a performance of `frames` leaves in `final`, after the states `history` -/
structure LeavesTempos (frames : Array Frame) (history : List Performance) (final : Performance) : Prop where
  /-- what sets a tempo gives its number -/
  read : ∀ frame ∈ frames.toList, frame.setsTempo → (frame.number? .tempo).isSome
  /-- there are tempos when a frame sets one -/
  set : ∀ tempo ∈ [final.song.tempo, final.timeline.firstTempo, final.timeline.tempo],
    tempo.isSome ↔ ∃ frame ∈ frames.toList, frame.setsTempo
  /-- the first is that of the first frame that sets one -/
  first : final.timeline.firstTempo = (frames.toList.find? Frame.setsTempo).bind (·.number? .tempo)
  /-- the song has that of the last visit -/
  song : final.song.tempo = (numbersOf .tempo history).getLast?
  /-- the timeline has that of the last visit outside layered procedures -/
  timeline : final.timeline.tempo = (numbersOf .tempo (history.filter unlayered)).getLast?

/-- when everything is visited -/
theorem Tempos.leaves {frames : Array Frame} {history : List Performance} {final : Performance}
    (h : Tempos frames history final) (seen : final.seen = frames.size) (topLevel : final.timeline ∈ final.timelines) :
    LeavesTempos frames history final := by
  have read : ∀ frame ∈ frames.toList, (frame.number? .tempo).isSome = frame.setsTempo := by
    intro frame hframe
    obtain ⟨i, here⟩ := List.mem_iff_getElem?.1 hframe
    rw [Array.getElem?_toList] at here
    exact h.read i frame (seen ▸ (Array.getElem?_eq_some_iff.1 here).1) here
  have whole : tempoWithin frames final.seen = frames.toList.findSome? (·.number? .tempo) := by
    rw [seen, tempoWithin, ← Array.length_toList, List.take_length]
  have given : (tempoWithin frames final.seen).isSome ↔ ∃ frame ∈ frames.toList, frame.setsTempo := by
    rw [whole, List.findSome?_isSome_iff]
    exact exists_congr fun frame => and_congr_right fun hframe => by rw [read frame hframe]
  obtain ⟨first, both⟩ := h.first _ topLevel
  refine ⟨fun frame hframe sets => (read frame hframe).trans sets, ?_, ?_, h.song, h.timeline⟩
  · simp only [List.forall_mem_cons, List.not_mem_nil, false_imp_iff, implies_true, and_true]
    rw [h.set, both, first]
    exact ⟨given, given, given⟩
  · rw [first, whole, findSome?_eq_find?_bind read]

/-- **A performance that succeeds** leaves the tempos that its frames set. -/
theorem drain_leavesTempos {frames : Array Frame} (succeeded : (start frames .blank .start).drain.error = none) :
    let final := (start frames .blank .start).drain.final
    ∃ history, Course (start frames .blank .start) history final ∧ final.turn = .ended ∧
      LeavesTempos frames history final := by
  intro final
  obtain ⟨n, -, turns, ended⟩ := drain_succeeded succeeded
  obtain ⟨history, run⟩ := turns.reaches.course
  have stack : final.stack = [] := (turn_ended_iff.1 ended).2
  have kept : final.frames = frames := turns.kept.1
  have seen : final.seen = frames.size := by
    rw [Performance.seen, stack, ← kept]
    rfl
  have one : 0 < final.timelines.length := by
    rw [((Seated.start frames .blank .start).turns turns).timelines]
    exact Nat.lt_of_lt_of_le Nat.zero_lt_one (Nat.le_add_right _ _)
  exact ⟨history, run, ended, (run.tempos succeeded).leaves seen (timelineAt_mem one)⟩

end Performance

theorem LevelSet.build_missingTempo_iff {events : List Event} {song : Song} {audioPath : String}
    {cover : Option String} :
    LevelSet.build events song audioPath cover = .error .missingTempo ↔ song.tempo = none := by
  unfold LevelSet.build
  cases song.tempo with
  | none => exact ⟨fun _ => rfl, fun _ => rfl⟩
  | some tempo => exact ⟨nofun, nofun⟩

/-- **Tempos.** A performance that succeeds leaves tempos exactly when one of its frames sets one, whatever they call: the
first is that of the first such frame in their order, the song has that of the last visit, and the timeline that of the
last visit outside the layered procedures. So what a chart compiles to lacks a tempo for its export just when no line
of the chart sets one. -/
theorem tempo_follows_frames :
    (∀ frames : Array Frame, (Performance.start frames .blank .start).drain.error = none →
      let final := (Performance.start frames .blank .start).drain.final
      ∃ history, Performance.Course (Performance.start frames .blank .start) history final ∧ final.turn = .ended ∧
        Performance.LeavesTempos frames history final) ∧
      ∀ (d : Dialect) (text : String) (c : Compilation), compile d text = .ok c →
        d.readEach (Text.lines text.toList) = c.frames.map .ok ∧
          ∀ audioPath cover, LevelSet.build c.events c.song audioPath cover = .error .missingTempo ↔
            ∀ frame ∈ c.frames, frame.directive? Directive.tempo.key = none := by
  refine ⟨fun frames succeeded => Performance.drain_leavesTempos succeeded, fun d text c compiled => ?_⟩
  obtain ⟨read, succeeded, -, song⟩ := compile_ok compiled
  obtain ⟨history, -, -, leaves⟩ := Performance.drain_leavesTempos succeeded
  refine ⟨?_, fun audioPath cover => ?_⟩
  · rw [Dialect.readChart_eq] at read
    exact collect_eq_ok_iff.1 read
  · have set := leaves.set _ List.mem_cons_self
    rw [LevelSet.build_missingTempo_iff, ← Option.not_isSome_iff_eq_none, song, set]
    simp [Frame.setsTempo]

/-- a procedure with a tempo, another tempo, and a frame that layers the procedure -/
def driftingChart : String := "8Z;bpm=100;proc=p\n;bpm=120\n9X;proc_add=p"

/-- its frames -/
def driftingFrames : List Frame :=
  [⟨1, ⟨[("bpm", "100"), ("proc", "p")]⟩, [⟨0, 0, .red, some .up, .all⟩], []⟩, ⟨2, ⟨[("bpm", "120")]⟩, [], []⟩,
    ⟨3, ⟨[("proc_add", "p")]⟩, [⟨1, 0, .red, some .upRight, .all⟩], []⟩]

/-- at the end the song is back at the tempo of the procedure, and the timeline is not; the chart can be exported -/
theorem driftingChart_tempos :
    (∃ history final, Performance.Course (Performance.start driftingFrames.toArray .blank .start) history final ∧
      final.timeline.firstTempo = some 100 ∧ (Performance.numbersOf .tempo history).getLast? = some 100 ∧
      (Performance.numbersOf .tempo (history.filter Performance.unlayered)).getLast? = some 120) ∧
      ∃ c, compile .standard driftingChart = .ok c ∧ c.frames = driftingFrames ∧
        LevelSet.build c.events c.song "song.ogg" none ≠ .error .missingTempo := by
  obtain ⟨leaves, exports⟩ := tempo_follows_frames
  constructor
  · have tempos : (Performance.start driftingFrames.toArray .blank .start).drain.final.song.tempo = some 100 ∧
        (Performance.start driftingFrames.toArray .blank .start).drain.final.timeline.tempo = some 120 := by
      decide +kernel
    obtain ⟨history, run, -, left⟩ := leaves driftingFrames.toArray (by decide +kernel)
    refine ⟨history, _, run, left.first.trans ?_, left.song ▸ tempos.1, left.timeline ▸ tempos.2⟩
    decide +kernel
  · have outcome : (compile .standard driftingChart).toOption.map Compilation.frames = some driftingFrames := by
      decide +kernel
    cases compiled : compile .standard driftingChart with
    | error e =>
      rw [compiled] at outcome
      cases outcome
    | ok c =>
      rw [compiled] at outcome
      have frames : c.frames = driftingFrames := Option.some.inj outcome
      refine ⟨c, rfl, frames, fun missing => ?_⟩
      have unset := ((exports .standard driftingChart c compiled).2 _ _).1 missing
      rw [frames] at unset
      exact absurd (unset _ List.mem_cons_self) (by decide)

end RhythmChart
