/-
Setting the time counts from the silence, in seconds.

The clock of a timeline counts beats, and silence before the audio moves it by as many beats as the silence lasts at the
song's tempo. Setting the time puts the clock a number of beats behind the silence as well, but there the silence counts
in seconds (`run_setTime`). So what a frame places that sets the time is that many beats behind the seconds of silence
so far, whatever the tempo and whatever the frame layers. That is as many beats behind the beats of silence when the
two numbers agree, which they do while there is no silence; two seconds at 120 beats per minute are four beats, and
there they do not (`lateChart_early`).

A visit of a frame without a spliced procedure ends with its placements on the timeline that its directives made, or a
turn fails before that (`visit_ends`).

Main result: `setTime_counts_seconds`.
-/
import Mathlib.Tactic
import RhythmChart.Compilation
import RhythmChart.Proofs.Performance.Measure

namespace RhythmChart

/-- the events of a frame's notes and walls at a time, under a measure -/
def Frame.eventsAt (f : Frame) (time measure : Float) : List Event :=
  f.notes.map (fun n => ⟨time, .note n⟩) ++ f.walls.map fun w => ⟨time, .wall { w with length := w.length / measure }⟩

theorem Frame.time_of_mem_eventsAt {f : Frame} {time measure : Float} {e : Event} (h : e ∈ f.eventsAt time measure) :
    e.time = time := by
  rcases List.mem_append.1 h with h | h
  · obtain ⟨n, -, rfl⟩ := List.mem_map.1 h
    rfl
  · obtain ⟨w, -, rfl⟩ := List.mem_map.1 h
    rfl

theorem Frame.eventsAt_eq_nil_iff {f : Frame} {time measure : Float} :
    f.eventsAt time measure = [] ↔ f.notes = [] ∧ f.walls = [] := by
  simp [eventsAt]

/-- events tell the time, if there are any -/
theorem Frame.eventsAt_eq_iff {f : Frame} {s t measure : Float} :
    f.eventsAt s measure = f.eventsAt t measure ↔ (f.notes = [] ∧ f.walls = []) ∨ s = t := by
  constructor
  · intro h
    by_cases empty : f.eventsAt s measure = []
    · exact .inl (eventsAt_eq_nil_iff.1 empty)
    · obtain ⟨e, he⟩ := List.exists_mem_of_ne_nil _ empty
      exact .inr ((time_of_mem_eventsAt he).symm.trans (time_of_mem_eventsAt (h ▸ he)))
  · rintro (empty | rfl)
    · rw [eventsAt_eq_nil_iff.2 empty, eventsAt_eq_nil_iff.2 empty]
    · rfl

namespace Performance

open Decimal (Positive)

/-! ## The silence so far -/

/-- **Silence adds up** over the visits of a performance. -/
theorem Course.leadIn {frames : Array Frame} {song : Song} {timeline : Timeline} {history : List Performance}
    {p : Performance} (run : Course (start frames song timeline) history p) (going : p.turn ≠ .ended) :
    p.song.leadIn = (numbersOf .leadIn history).foldl (· + ·) song.leadIn := by
  induction run with
  | here => rfl
  | @turn history q r run next ih =>
    have ih := ih (Turn.going next)
    have standing := run.reaches.standing (Turn.going next)
    rw [numbersOf_snoc, List.foldl_append, ← ih]
    rcases Turn.after_cases next with ⟨e, pending, given, rfl⟩ | m | ⟨e, failed⟩
    · rw [unvisited_of_pending given]
      rfl
    · cases standing.seated.effect next with
      | other unvisited song =>
        rw [unvisited, song]
        rfl
      | @visit c below frame pass fault directs made song =>
        have passed := m.passed directs
        rw [made] at passed
        subst passed
        rw [song, run_leadIn made, directs.visits]
        rfl
    · exact absurd failed.stopped going

/-! ## Visits -/

/-- `n` turns from `p` on, which give `given`, end the visit by `c` in `q`, where its placements are pending -/
structure Finishes (p q : Performance) (c : Cursor) (below : List Cursor) (n : Nat) (given : List Event) : Prop where
  run : Turns n p given q
  stays : StaysAbove below.length n p
  cursor : ∃ d, q.stack = d :: below ∧ SameCursor c d ∧ d.pos = c.pos + 1 ∧ d.stage = .directives

/-- `n` turns from `p` on, which give `given`, lead to a turn that fails while the cursor is still at its frame -/
structure Breaks (p q : Performance) (c : Cursor) (below : List Cursor) (n : Nat) (given : List Event) : Prop where
  run : Turns n p given q
  stays : StaysAbove below.length n p
  cursor : ∃ above d, q.stack = above ++ d :: below ∧ SameCursor c d ∧ d.pos = c.pos
  fails : ∃ e r, Fails q e r

section Visits

variable {frames : Array Frame} {song : Song} {timeline : Timeline} {p q : Performance} {c : Cursor}
  {below : List Cursor} {frame : Frame} {pass : Pass}

/-- the turns before a visit by the same cursor at the same frame goes on -/
theorem Finishes.after {m n : Nat} {before given : List Event} {d : Cursor} {r : Performance}
    (h : Finishes q r d below n given) (first : Turns m p before q) (stays : StaysAbove below.length m p)
    (same : SameCursor c d) (pos : d.pos = c.pos) : Finishes p r c below (m + n) (before ++ given) := by
  obtain ⟨e, stack, same', pos', stage⟩ := h.cursor
  exact ⟨first.trans h.run, stays.trans first h.stays, e, stack, same.trans same', pos'.trans (by rw [pos]), stage⟩

/-- a cursor whose directives are done, and which splices nothing, places what is on its frame -/
theorem At.finishes (here : At p (c.directed pass) below frame) (own : p.timelineAt c.slot = pass.timeline)
    (unspliced : pass.spliced = none) :
    ∃ q, Finishes p q (c.directed pass) below 2 [] ∧ q.pending = stamp frame pass.timeline pass.frameOffset := by
  have placing : At { p with stack := (c.directed pass).placing :: below } (c.directed pass).placing below frame :=
    ⟨here.pending, rfl, here.inside, here.frame⟩
  have first := (Moves.unspliced here rfl unspliced).turn
  have second := (Moves.placed placing rfl).turn
  refine ⟨_, ⟨.moved first (.moved second (.none _)), ?_, ⟨_, rfl, ⟨rfl, rfl, rfl, rfl⟩, rfl, rfl⟩⟩, ?_⟩
  · exact .moved here.high first (.moved (Nat.lt_succ_self _) second (.zero (Nat.lt_succ_self _)))
  · change stamp frame (p.timelineAt c.slot) pass.frameOffset = _
    rw [own]

/-- the layered procedure is performed before the visit goes on -/
theorem Moves.layered_ends {z : Performance} {e : Cursor} {n : Nat} {given : List Event} (m : Moves p q)
    (directs : Directs p c below frame) (seated : Seated p) (pushed : q.stack = e :: c.directed pass :: below)
    (made : p.passAt c below frame = (pass, none)) (forked : e.ownsSlot = true) (unspliced : pass.spliced = none)
    (rest : Turns n q given z) (stopped : z.turn = .ended ∨ ∃ e z', z.turn = .failed e z') :
    (∃ n given r, Breaks p r c below n given) ∨ ∃ n given r, Finishes p r c below n given ∧
      r.pending = stamp frame pass.timeline pass.frameOffset := by
  have deeper : p.stack.length < q.stack.length := by
    rw [pushed, directs.stack]
    exact Nat.lt_succ_self _
  obtain ⟨c', below', frame', pass', forks, sheltered⟩ := seated.forks m pushed deeper forked
  obtain ⟨rfl, rfl, rfl⟩ := directs.toAt.unique forks.here
  obtain rfl : pass = pass' := congrArg Prod.fst (made.symm.trans forks.passed)
  obtain ⟨k, during, r, body, inner, stop⟩ := turns_until rest stopped sheltered.length_lt
  have first : Turns (k + 1) p during r := .moved m.turn body
  have stays : StaysAbove below'.length (k + 1) p := by
    refine .moved directs.toAt.high m.turn fun i hi given s run => ?_
    exact Nat.lt_of_succ_lt (inner i hi given s run)
  rcases stop with ⟨error, s, failed⟩ | ⟨s, left, low⟩
  · obtain ⟨above, d, stack, -⟩ := (sheltered.turns body inner).stack
    refine .inl ⟨k + 1, during, r, first, stays, ⟨above ++ [d], c'.directed pass, ?_, ⟨rfl, rfl, rfl, rfl⟩, rfl⟩, ?_⟩
    · rw [stack, List.append_assoc, List.singleton_append]
    · exact ⟨error, s, turn_failed_iff.1 failed⟩
  · obtain ⟨-, -, here, own⟩ := forks.left m pushed body (sheltered.turns body inner) (turn_moved_iff.1 left) low
    obtain ⟨u, finishes, pending⟩ := here.finishes own unspliced
    have goes : Turns 1 r [] s := .moved left (.none s)
    have higher : below'.length < r.stack.length := Nat.lt_of_succ_lt (inner k le_rfl during r body)
    have high : StaysAbove below'.length 1 r := .moved higher left (.zero finishes.stays.here)
    exact .inr ⟨_, _, u, finishes.after (first.trans goes) (stays.trans first high) ⟨rfl, rfl, rfl, rfl⟩ rfl, pending⟩

/-- **A visit without a spliced procedure** places what is on its frame, on the timeline that its directives made, or
fails before. -/
theorem visit_ends {n : Nat} {before : List Event} (run : Turns n (start frames song timeline) before p)
    (directs : Directs p c below frame) (unspliced : frame.directive? Directive.splice.key = none) :
    (∃ n given q, Breaks p q c below n given) ∨ ∃ pass n given q, p.passAt c below frame = (pass, none) ∧
      Finishes p q c below n given ∧ q.pending = stamp frame pass.timeline pass.frameOffset := by
  have seated := (Seated.start frames song timeline).turns run
  have splices : ∀ {pass}, p.passAt c below frame = (pass, none) → pass.spliced = none :=
    fun passed => (run_order_passed passed).2.2.2.1.trans unspliced
  rcases p.turn_cases with ⟨e, pending, given, -⟩ | ⟨q, m⟩ | ⟨e, q, failed⟩ | ⟨-, stack, -⟩
  · rw [directs.pending] at given
    cases given
  · obtain ⟨k, rest, z, after, -, stopped⟩ := turns_stop (run.trans (.moved m.turn (.none q)))
    have m' := m
    cases m with
    | left _ stack done => exact absurd directs (visited_eq_none_iff.1 (unvisited_of_done stack done) c below frame)
    | @directed c' below' frame' pass here stage passed layered =>
      obtain ⟨rfl, rfl, rfl⟩ := directs.toAt.unique here
      have own := timelineAt_afterPass (seated.slot_lt here.stack) pass (c'.directed pass :: below')
      have here' : At (p.afterPass c'.slot pass (c'.directed pass :: below')) (c'.directed pass) below' frame' :=
        ⟨here.pending, rfl, here.inside, here.frame⟩
      obtain ⟨u, finishes, pending⟩ := here'.finishes own (splices passed)
      exact .inr ⟨pass, _, _, u, passed, finishes.after (.moved m'.turn (.none _))
        (.moved directs.toAt.high m'.turn (.zero (Nat.lt_succ_self _))) ⟨rfl, rfl, rfl, rfl⟩ rfl, pending⟩
    | @layered c' below' frame' pass name span here stage passed layered resolved =>
      obtain ⟨rfl, rfl, rfl⟩ := directs.toAt.unique here
      refine (m'.layered_ends directs seated rfl passed rfl (splices passed) after stopped).imp_right ?_
      rintro ⟨n, given, u, finishes, pending⟩
      exact ⟨pass, n, given, u, passed, finishes, pending⟩
    | unspliced here stage | spliced here stage | placed here stage =>
      obtain ⟨rfl, -, -⟩ := directs.toAt.unique here
      rw [directs.stage] at stage
      cases stage
  · exact .inl ⟨0, [], p, .none p, .zero directs.toAt.high, ⟨[], c, directs.stack, .refl c, rfl⟩, e, q, failed⟩
  · rw [directs.stack] at stack
    cases stack

end Visits

/-! ## Setting the time -/

/-- the directives of a frame that sets the time, and otherwise leaves its placements where they are -/
structure SetsTime (frame : Frame) (beats : Float) : Prop where
  given : frame.number? .setTime = some beats
  plain : ∀ d ∈ [.tempo, .leadIn, .offset, .frameOffset, .splice], frame.directive? (Directive.key d) = none

/-- the measure for a frame on a timeline -/
def measureFor (frame : Frame) (timeline : Timeline) : Float := (frame.number? .measure).getD timeline.measure

/-- what such a frame places, counted from the silence that its pass begins with -/
theorem SetsTime.stamp {site : Site} {frame : Frame} {beats : Float} {song : Song} {timeline : Timeline}
    {ps : Procedures} {pass : Pass} (h : SetsTime frame beats) (positive : Positive timeline.measure)
    (passed : Pass.run site frame Directive.order (.start song timeline ps) = (pass, none)) :
    stamp frame pass.timeline pass.frameOffset =
      frame.eventsAt (song.leadIn + beats + 0) (measureFor frame timeline) := by
  have free : ∀ d ∈ [.leadIn, .offset], frame.directive? (Directive.key d) = none := by
    have among : [Directive.leadIn, .offset] ⊆ [.tempo, .leadIn, .offset, .frameOffset, .splice] := by decide
    exact fun d hd => h.plain d (among hd)
  have time := run_setTime h.given free passed
  have late := run_frameOffset (h.plain .frameOffset (by decide)) passed
  have measure := run_measure_given passed
  have still_positive : Positive (Pass.run site frame Directive.order (.start song timeline ps)).1.timeline.measure :=
    run_measure site frame _ positive
  rw [passed] at still_positive
  simp only [Pass.start] at time late measure
  rw [Performance.stamp, late, Decimal.zero_div still_positive, time, measure]
  rfl

/-- seconds and beats of no silence -/
theorem leadIn_add_eq {tempo silence beats : Float} (finite : tempo.isFinite = true) (none : (silence == 0) = true) :
    silence + beats + 0 = Song.beatsIn tempo silence + beats + 0 := by
  have minute : Positive 60 := by
    unfold Positive
    decide +kernel
  exact Decimal.zero_add_add_zero none (Decimal.zero_mul_div finite none minute)

/-- **Setting the time.** A frame sets the time and does nothing else to the time of its placements or to the tempo and
the silence of the song. A visit of it that does not fail places them as many beats as it says behind the seconds of
silence which the visits before have added up. This is as many beats behind the beats of silence when the frame places
nothing or the two times agree; they agree while there is no silence. -/
theorem setTime_counts_seconds {frames : Array Frame} {song : Song} {timeline : Timeline} {history : List Performance}
    {p : Performance} {c : Cursor} {below : List Cursor} {frame : Frame} {beats : Float}
    (positive : Positive timeline.measure) (run : Course (start frames song timeline) history p)
    (directs : Directs p c below frame) (sets : SetsTime frame beats) :
    let silence := (numbersOf .leadIn history).foldl (· + ·) song.leadIn
    let measure := measureFor frame (p.timelineAt c.slot)
    p.song.leadIn = silence ∧
      ((∃ n given q, Breaks p q c below n given) ∨ ∃ n given q, Finishes p q c below n given ∧
        q.pending = frame.eventsAt (silence + beats + 0) measure ∧
        ∀ tempo, p.song.tempo = some tempo →
          (q.pending = frame.eventsAt (Song.beatsIn tempo silence + beats + 0) measure ↔
            (frame.notes = [] ∧ frame.walls = []) ∨ silence + beats + 0 = Song.beatsIn tempo silence + beats + 0)) ∧
      ∀ tempo, p.song.tempo = some tempo → tempo.isFinite = true → (silence == 0) = true →
        silence + beats + 0 = Song.beatsIn tempo silence + beats + 0 := by
  intro silence measure
  have leadIn : p.song.leadIn = silence := run.leadIn directs.going
  refine ⟨leadIn, ?_, fun tempo _ finite none => leadIn_add_eq finite none⟩
  obtain ⟨n, before, turns⟩ := run.reaches.going directs.going
  refine (visit_ends turns directs (sets.plain .splice (by decide))).imp_right ?_
  rintro ⟨pass, m, given, q, passed, finishes, pending⟩
  have seated := (Seated.start frames song timeline).turns turns
  have stamped := sets.stamp ((run.reaches.measures positive).at_slot seated directs.stack) passed
  rw [leadIn] at stamped
  have placed := pending.trans stamped
  refine ⟨m, given, q, finishes, placed, fun tempo _ => ?_⟩
  rw [placed, Frame.eventsAt_eq_iff]

/-- a frame that layers a procedure, and sets the time to one beat -/
def timedFrame : Frame := ⟨2, ⟨[("set_time", "1"), ("proc_add", "p")]⟩, [⟨0, 0, .red, none, .all⟩], []⟩

/-- two seconds of silence in a procedure, and that frame -/
def silencedTwice : Array Frame :=
  #[⟨1, ⟨[("bpm", "120"), ("intro_silence", "2"), ("proc", "p")]⟩, [], []⟩, timedFrame]

/-- one beat behind two seconds is the third beat, whatever silence the layered procedure adds -/
theorem silencedTwice_time :
    ∃ history p c n given q, Course (start silencedTwice .blank .start) history p ∧ Directs p c [] timedFrame ∧
      SetsTime timedFrame 1 ∧ Finishes p q c [] n given ∧ q.pending.map (·.time) = [3] := by
  have one : Positive Timeline.start.measure := by
    unfold Positive
    decide +kernel
  have sets : SetsTime timedFrame 1 := ⟨by decide +kernel, by decide⟩
  have turns : Turns 3 (start silencedTwice .blank .start) [] _ := .moved rfl (.moved rfl (.moved rfl (.none _)))
  obtain ⟨p, c, reached, directs, silence⟩ : ∃ p c, Reaches (start silencedTwice .blank .start) p ∧
      Directs p c [] timedFrame ∧ p.song.leadIn = 2 :=
    ⟨_, _, turns.reaches, ⟨⟨rfl, rfl, Nat.lt_succ_self 1, rfl⟩, rfl⟩, by decide +kernel⟩
  obtain ⟨history, run⟩ := reached.course
  obtain ⟨leadIn, visit, -⟩ := setTime_counts_seconds one run directs sets
  rcases visit with ⟨n, given, q, breaks⟩ | ⟨n, given, q, finishes, pending, -⟩
  · obtain ⟨e, r, failed⟩ := breaks.fails
    exact absurd failed ((reached.trans breaks.run.reaches).not_fails (by decide +kernel))
  · refine ⟨history, p, c, n, given, q, run, directs, sets, finishes, ?_⟩
    have sum : (2 + 1 + 0 : Float) = 3 := by decide +kernel
    rw [pending, ← leadIn, silence, sum]
    rfl

end Performance

/-- two seconds of silence at 120 beats per minute, and a note that sets the time to their end -/
def lateChart : String := ";bpm=120;intro_silence=2\n8Z;set_time=0"

/-- the frame of its note -/
def lateFrame : Frame := ⟨2, ⟨[("set_time", "0")]⟩, [⟨0, 0, .red, some .up, .all⟩], []⟩

/-- its frames, which set one tempo -/
def lateFrames : List Frame := [⟨1, ⟨[("bpm", "120"), ("intro_silence", "2")]⟩, [], []⟩, lateFrame]

/-- the silence lasts four beats, and the note is at the second one -/
theorem lateChart_early : ∃ c, compile .standard lateChart = .ok c ∧ c.frames = lateFrames ∧
    Performance.SetsTime lateFrame 0 ∧ c.song.tempo = some 120 ∧ c.song.leadInBeats = some 4 ∧
    c.events = lateFrame.eventsAt 2 1 ∧ c.events ≠ lateFrame.eventsAt (4 + 0) 1 := by
  have outcome : (compile .standard lateChart).toOption.map
      (fun c => (c.frames, c.song.tempo, c.song.leadInBeats, c.events)) =
        some (lateFrames, some 120, some 4, lateFrame.eventsAt 2 1) := by
    decide +kernel
  cases compiled : compile .standard lateChart with
  | error e =>
    rw [compiled] at outcome
    cases outcome
  | ok c =>
    rw [compiled] at outcome
    simp only [Except.toOption, Option.map_some, Option.some.injEq, Prod.mk.injEq] at outcome
    obtain ⟨frames, tempo, beats, events⟩ := outcome
    refine ⟨c, rfl, frames, ⟨by decide +kernel, by decide⟩, tempo, beats, events, ?_⟩
    rw [events]
    decide +kernel

end RhythmChart
