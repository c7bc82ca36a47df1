/-
Every event of a performance comes from a frame.

A performance makes no placements of its own: it stamps those of its frames, and of a wall it changes the length only
(`Event.ComesFrom`). What is pending comes from the frames (`Sourced`), a turn keeps it so (`Sourced.moves`), and so
everything that is given does.

Main result: `events_comeFrom`.
-/
import Mathlib.Tactic
import RhythmChart.Proofs.Performance.Refinement

namespace RhythmChart

/-- the event places a note of the frame, or a wall of the frame with another length -/
inductive Event.ComesFrom (frame : Frame) (e : Event) : Prop where
  | note {n : Note} (placed : e.placed = .note n) (source : n ∈ frame.notes)
  | wall {w : Wall} {length : Float} (placed : e.placed = .wall { w with length }) (source : w ∈ frame.walls)

namespace Performance

theorem comesFrom_of_mem_stamp {frame : Frame} {timeline : Timeline} {frameOffset : Float} {e : Event}
    (h : e ∈ stamp frame timeline frameOffset) : e.ComesFrom frame := by
  simp only [stamp, List.mem_append, List.mem_map] at h
  rcases h with ⟨n, source, rfl⟩ | ⟨w, source, rfl⟩
  · exact .note rfl source
  · exact .wall rfl source

/-- the events come from the given frames -/
def Sourced (frames : Array Frame) (events : List Event) : Prop :=
  ∀ e ∈ events, ∃ frame ∈ frames, e.ComesFrom frame

theorem Sourced.moves {p q : Performance} (h : Sourced p.frames p.pending) (m : Moves p q) :
    Sourced p.frames q.pending := by
  cases m with
  | left | directed | layered | unspliced | spliced => exact h
  | @placed c below frame here stage =>
    intro e he
    exact ⟨frame, Array.mem_of_getElem? here.frame, comesFrom_of_mem_stamp he⟩

/-- what a run gives comes from the frames, if what is pending before does -/
theorem Sourced.turns {n : Nat} {p q : Performance} {given : List Event} (run : Turns n p given q)
    (h : Sourced p.frames p.pending) : Sourced p.frames given := by
  induction run with
  | none p => intro e he; cases he
  | @moved n p q r given first _ ih =>
    have m := turn_moved_iff.1 first
    rw [← m.kept.1]
    apply ih
    rw [m.kept.1]
    exact h.moves m
  | @event n p q r e given first _ ih =>
    obtain ⟨pending, hpending, rfl⟩ := turn_event_iff.1 first
    rw [hpending] at h
    intro e' he'
    rcases List.mem_cons.1 he' with rfl | he'
    · exact h e' List.mem_cons_self
    · exact ih (fun e'' he'' => h e'' (List.mem_cons_of_mem e he'')) e' he'

/-- **Every event comes from a frame.** -/
theorem events_comeFrom (frames : Array Frame) (song : Song) (timeline : Timeline) :
    Sourced frames (start frames song timeline).drain.events := by
  obtain ⟨n, q, _, run, _⟩ := drain_turns frames song timeline
  apply Sourced.turns run
  intro e he
  cases he

end Performance

end RhythmChart
