/-
Every performance ends.

One pull repeats turns until one of them answers. `Loops` counts these turns without any fuel: in every state that a
performance reaches, a pull takes no more turns than its bound (`Reaches.loops`), so the fuel of `next` decides nothing
(`Loops.next`). The bound counts the turns of a whole performance, through the frames left and the names that can still
be called, so there are finitely many pulls with an answer; all pulls after them find the performance ended.

Main result: `pulls_end`.
-/
import Mathlib.Tactic
import RhythmChart.Proofs.Performance.Causality
import RhythmChart.Proofs.Performance.Discipline

namespace RhythmChart.Performance

/-! ## One pull -/

/-- `n` turns from `p` on, the last one gives an answer and leaves `q`, those before it give none -/
inductive Loops : Nat → Performance → Answer → Performance → Prop where
  | event {p q : Performance} {e : Event} (first : p.turn = .event e q) : Loops 1 p (.event e) q
  | failed {p q : Performance} {e : Error} (first : p.turn = .failed e q) : Loops 1 p (.failed e) q
  | ended {p : Performance} (first : p.turn = .ended) : Loops 1 p .ended p
  | moved {n : Nat} {p q r : Performance} {answer : Answer} (first : p.turn = .moved q) (rest : Loops n q answer r) :
      Loops (n + 1) p answer r

namespace Loops

variable {n : Nat} {p q r : Performance} {answer : Answer}

/-- turns without an answer before a pull -/
theorem after {k : Nat} (run : Turns k p [] q) (h : Loops n q answer r) : Loops (k + n) p answer r := by
  generalize hes : ([] : List Event) = es at run
  induction run with
  | none p => rwa [Nat.zero_add]
  | moved first _ ih => rw [Nat.add_right_comm]; exact .moved first (ih h hes)
  | event => cases hes

theorem reaches (h : Loops n p answer q) : Reaches p q := by
  induction h with
  | event first | failed first => exact Reaches.here.turn (by rw [first]; rfl)
  | ended => exact .here
  | moved first _ ih => exact (Reaches.here.turn (by rw [first]; rfl)).trans ih

/-- fuel for as many turns as a pull takes is enough -/
theorem nextWithin (h : Loops n p answer q) {fuel : Nat} (enough : n ≤ fuel) :
    nextWithin fuel p = (answer, q) := by
  induction h generalizing fuel with
  | event first | failed first | ended first =>
    obtain ⟨fuel, rfl⟩ : ∃ m, fuel = m + 1 := ⟨fuel - 1, by omega⟩
    rw [Performance.nextWithin, first]
  | moved first _ ih =>
    obtain ⟨fuel, rfl⟩ : ∃ m, fuel = m + 1 := ⟨fuel - 1, by omega⟩
    rw [Performance.nextWithin, first]
    exact ih (by omega)

theorem next (h : Loops n p answer q) (enough : n ≤ p.bound) : p.next = (answer, q) := h.nextWithin enough

end Loops

/-- **Every pull ends.** In a state that a performance reaches, a pull takes no more turns than the bound. -/
theorem Reaches.loops {frames : Array Frame} {song : Song} {timeline : Timeline} {p : Performance}
    (h : Reaches (start frames song timeline) p) : ∃ n answer q, n ≤ turnBound frames ∧ Loops n p answer q := by
  rcases h.cases with ⟨m, given, run⟩ | ⟨m, given, r, e, run, failed⟩
  · obtain ⟨k, left, last, rest, hbound, stopped⟩ := turns_stop run
    cases left with
    | nil =>
      rcases stopped with ended | ⟨e, q, failed⟩
      · exact ⟨_, _, _, by omega, .after rest (.ended ended)⟩
      · exact ⟨_, _, _, by omega, .after rest (.failed failed)⟩
    | cons e left =>
      obtain ⟨k, l, q, q', before, gives, _, hkl⟩ := rest.uncons
      exact ⟨_, _, _, by omega, .after before (.event gives)⟩
  · have hpos := turns_lt_bound run
    exact ⟨1, .ended, p, by omega, .ended (turn_failed_iff.1 failed).stopped⟩

/-! ## All pulls -/

theorem pulls_reached (frames : Array Frame) (song : Song) (timeline : Timeline) (m : Nat) :
    Reaches (start frames song timeline) (pulls m (start frames song timeline)).2 := by
  induction m with
  | zero => exact .here
  | succ m ih =>
    obtain ⟨n, answer, q, hn, loops⟩ := ih.loops
    have hnext := loops.next (by rw [ih.kept.2]; exact hn)
    rw [pulls]
    simp only [hnext]
    exact ih.trans loops.reaches

/-- the pulls that give the events of a run, and the turns of the run that are left after them -/
theorem pulls_turns {N : Nat} {p r : Performance} {events : List Event} (run : Turns N p events r) (hN : N < p.bound)
    {n : Nat} (hn : n ≤ events.length) :
    ∃ q k, pulls n p = ((events.take n).map .event, q) ∧ Turns k q (events.drop n) r ∧ k ≤ N ∧ q.bound = p.bound := by
  induction n with
  | zero => exact ⟨p, N, rfl, run, le_rfl, rfl⟩
  | succ n ih =>
    obtain ⟨q, k, pulled, rest, hk, hbound⟩ := ih (by omega)
    rw [List.drop_eq_getElem_cons hn] at rest
    obtain ⟨i, l, s, q', before, gives, after, hkil⟩ := rest.uncons
    have hnext := (Loops.after before (.event gives)).next (by omega)
    refine ⟨q', l, ?_, after, by omega, ?_⟩
    · rw [List.take_add_one, List.getElem?_eq_getElem hn, List.map_append]
      exact pulls_succ pulled hnext
    · obtain ⟨_, _, rfl⟩ := turn_event_iff.1 gives
      exact before.kept.2.trans hbound

theorem next_idle {p : Performance} (ended : p.turn = .ended) : p.next = (.ended, p) := by
  cases hbound : p.bound with
  | zero => rw [next, hbound, nextWithin]
  | succ m => exact (Loops.ended ended).next (by omega)

/-- once a pull finds the performance ended, all pulls do -/
theorem pulls_ended {n : Nat} {p q r : Performance} {answers : List Answer} (pulled : pulls n p = (answers, q))
    (hnext : q.next = (.ended, r)) (ended : r.turn = .ended) (k : Nat) :
    (pulls (n + k) p).1 = answers ++ List.replicate k .ended := by
  have hall : ∀ k, pulls (n + k + 1) p = (answers ++ List.replicate (k + 1) .ended, r) := by
    intro k
    induction k with
    | zero => exact pulls_succ pulled hnext
    | succ k ih => rw [← Nat.add_assoc, pulls_succ ih (next_idle ended), List.append_assoc, ← List.replicate_succ']
  cases k with
  | zero => simp [pulled]
  | succ k => rw [← Nat.add_assoc, hall]

/-- **Every performance ends.** Each pull, after however many others, repeats turns until one of them answers, and that
takes no more turns than the bound; the pulls give the answers of the whole performance and nothing after them. -/
theorem pulls_end (frames : Array Frame) (song : Song) (timeline : Timeline) :
    let p := start frames song timeline
    (∀ m, ∃ n ≤ turnBound frames, ∃ answer q,
        Loops n (pulls m p).2 answer q ∧ pulls (m + 1) p = ((pulls m p).1 ++ [answer], q)) ∧
      p.drain.answers.length ≤ turnBound frames ∧
      ∀ k, (pulls (p.drain.answers.length + k) p).1 = p.drain.answers ++ List.replicate k .ended := by
  intro p
  constructor
  · intro m
    have reached := pulls_reached frames song timeline m
    obtain ⟨n, answer, q, hn, loops⟩ := reached.loops
    have hnext := loops.next (by rw [reached.kept.2]; exact hn)
    exact ⟨n, hn, answer, q, loops, pulls_succ rfl hnext⟩
  · obtain ⟨N, r, hN, run, stopped⟩ := drain_turns frames song timeline
    change Turns N p p.drain.events r at run
    have hevents := run.length_le
    obtain ⟨q, k, pulled, rest, hk, hbound⟩ := pulls_turns run hN le_rfl
    rw [List.take_length] at pulled
    rw [List.drop_length] at rest
    have hroom : k + 1 ≤ q.bound := by
      rw [hbound]
      exact lt_of_le_of_lt hk hN
    rcases stopped with ⟨herror, ended⟩ | ⟨e, r', herror, failed⟩
    · have hanswers : p.drain.answers = p.drain.events.map .event := by simp [Outcome.answers, p, herror]
      rw [hanswers, List.length_map]
      exact ⟨by omega, pulls_ended pulled ((Loops.after rest (.ended ended)).next hroom) ended⟩
    · have hanswers : p.drain.answers = p.drain.events.map .event ++ [.failed e] := by simp [Outcome.answers, p, herror]
      have hpulled := pulls_succ pulled ((Loops.after rest (.failed failed)).next hroom)
      have hstopped := (turn_failed_iff.1 failed).stopped
      rw [hanswers, List.length_append, List.length_map, List.length_singleton]
      exact ⟨by omega, pulls_ended hpulled (next_idle hstopped) hstopped⟩

end RhythmChart.Performance
