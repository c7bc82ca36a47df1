/-
Later frames do not influence what was given before.

A performance of `F ++ G` is looked at as a performance of `F`: every body is cut at the end of `F` (`cut`). Turn by
turn the two do the same (`turn_cut`), as long as no cursor is at the end of a cut body. In a descending stack none ever
is: a body that reaches the end of `F` holds its caller, so it never gets past the calling frame (`cut_faithful`). The
performances part only when the one of `F` has given its last event.

Main result: `pulls_append`.
-/
import Mathlib.Tactic
import RhythmChart.Proofs.Performance.Refinement
import RhythmChart.Proofs.Performance.Descent

namespace RhythmChart

/-! ## Cutting -/

/-- a span cut at `m` -/
def Span.cut (m : Nat) (s : Span) : Span := ⟨s.start, min s.stop m⟩

/-- a registry with its bodies cut at `m` -/
def Procedures.cut (m : Nat) (ps : Procedures) : Procedures := ⟨ps.bodies.map fun b => (b.1, b.2.cut m)⟩

theorem Procedures.get?_cut (m : Nat) (ps : Procedures) (name : String) :
    (ps.cut m).get? name = (ps.get? name).map (Span.cut m) := by
  obtain ⟨bodies⟩ := ps
  simp only [Procedures.get?, Procedures.cut]
  induction bodies with
  | nil => rfl
  | cons b rest ih =>
    rw [List.map_cons, List.lookup_cons, List.lookup_cons]
    cases name == b.1 with
    | true => rfl
    | false => exact ih

theorem Procedures.body_cut (m : Nat) (ps : Procedures) (name : String) :
    (ps.cut m).body name = (ps.body name).map (Span.cut m) := by
  rw [Procedures.body, Procedures.body, Procedures.get?_cut]
  cases ps.get? name <;> rfl

namespace Performance

def Cursor.cut (m : Nat) (c : Cursor) : Cursor := { c with span := c.span.cut m }

def Pass.cut (m : Nat) (p : Pass) : Pass := { p with procedures := p.procedures.cut m }

/-- a performance looked at as one of the frames `F` only -/
def cut (F : Array Frame) (q : Performance) : Performance :=
  { q with
    frames := F
    procedures := q.procedures.cut F.size
    stack := q.stack.map (Cursor.cut F.size)
    bound := turnBound F }

/-- what a turn gives, looked at in the same way -/
def Turn.cut (F : Array Frame) : Turn → Turn
  | .ended => .ended
  | .event e q => .event e (q.cut F)
  | .failed e q => .failed e (q.cut F)
  | .moved q => .moved (q.cut F)

/-! ## Turns -/

section Turns

variable {F G : Array Frame} {q : Performance} {c : Cursor} {below : List Cursor} {frame : Frame}

theorem body_cut {d : Declaration} {m pos count : Nat} (hpos : pos < m) (hcount : m ≤ count) :
    (d.body pos count).cut m = d.body pos m := by
  rw [d.body_of_lt (lt_of_lt_of_le hpos hcount), d.body_of_lt hpos, Span.cut, min_assoc, min_eq_right hcount]

theorem declare_cut {m pos count : Nat} {topLevel : Bool} {ps : Procedures} (hpos : pos < m) (hcount : m ≤ count) :
    declare ⟨pos, m, topLevel⟩ (ps.cut m) frame = (declare ⟨pos, count, topLevel⟩ ps frame).map (Procedures.cut m) := by
  unfold declare
  cases frame.directive? Directive.define.key with
  | none => rfl
  | some raw =>
    cases topLevel with
    | false => rfl
    | true =>
      simp only [if_true]
      cases Declaration.read raw with
      | error fault => rfl
      | ok d =>
        simp only [Procedures.define, Procedures.get?_cut, Option.isSome_map]
        cases (ps.get? d.name).isSome with
        | true => rfl
        | false =>
          simp only [Bool.false_eq_true, if_false, Except.map, ← body_cut hpos hcount]
          rfl

/-- the directives do the same to a cut registry -/
theorem pass_cut {m pos count : Nat} {topLevel : Bool} {song : Song} {timeline : Timeline} {ps : Procedures}
    (hpos : pos < m) (hcount : m ≤ count) :
    Pass.run ⟨pos, m, topLevel⟩ frame Directive.order (.start song timeline (ps.cut m)) =
      ((Pass.run ⟨pos, count, topLevel⟩ frame Directive.order (.start song timeline ps)).1.cut m,
        (Pass.run ⟨pos, count, topLevel⟩ frame Directive.order (.start song timeline ps)).2) := by
  rw [run_order, run_order, declare_cut hpos hcount]
  rcases settle frame song timeline with ⟨p, _ | fault⟩
  · simp only
    cases declare ⟨pos, count, topLevel⟩ ps frame <;> rfl
  · rfl

theorem resolve_cut (q : Performance) (name : String) :
    (q.cut F).resolve name = (q.resolve name).map (Span.cut F.size) := by
  have hany : (q.cut F).stack.any (·.procedure = some name) = q.stack.any (·.procedure = some name) := by
    simp only [cut, List.any_map]
    rfl
  have hbody : (q.cut F).procedures.body name = (q.procedures.body name).map (Span.cut F.size) :=
    Procedures.body_cut F.size q.procedures name
  unfold resolve
  rw [hany, hbody]
  split <;> rfl

theorem layer_cut (q : Performance) (slot : Nat) (name : String) (line : Nat) :
    (q.cut F).layer slot name line = ((q.layer slot name line).1.cut F, (q.layer slot name line).2) := by
  unfold layer
  rw [resolve_cut]
  cases q.resolve name <;> rfl

theorem splice_cut (q : Performance) (slot : Nat) (name : String) (line : Nat) :
    (q.cut F).splice slot name line = ((q.splice slot name line).1.cut F, (q.splice slot name line).2) := by
  unfold splice
  rw [resolve_cut]
  cases q.resolve name <;> rfl

/-- one stage does the same inside `F` -/
theorem step_cut (hq : q.frames = F ++ G) (hpos : c.pos < F.size) :
    (q.cut F).step (c.cut F.size) (below.map (Cursor.cut F.size)) frame =
      ((q.step c below frame).1.cut F, (q.step c below frame).2) := by
  have hcount : F.size ≤ q.frames.size := by simp [hq]
  have hempty : (below.map (Cursor.cut F.size)).isEmpty = below.isEmpty := List.isEmpty_map
  have hstage : (c.cut F.size).stage = c.stage := rfl
  unfold step
  rw [hstage]
  cases c.stage with
  | directives =>
    have hpass : Pass.run ⟨(c.cut F.size).pos, (q.cut F).frames.size, (below.map (Cursor.cut F.size)).isEmpty⟩ frame
        Directive.order (.start (q.cut F).song ((q.cut F).timelineAt (c.cut F.size).slot) (q.cut F).procedures) =
        ((Pass.run ⟨c.pos, q.frames.size, below.isEmpty⟩ frame Directive.order
          (.start q.song (q.timelineAt c.slot) q.procedures)).1.cut F.size,
        (Pass.run ⟨c.pos, q.frames.size, below.isEmpty⟩ frame Directive.order
          (.start q.song (q.timelineAt c.slot) q.procedures)).2) := by
      rw [hempty]
      exact pass_cut hpos hcount
    simp only [hpass]
    clear hpass
    rcases Pass.run ⟨c.pos, q.frames.size, below.isEmpty⟩ frame Directive.order
      (.start q.song (q.timelineAt c.slot) q.procedures) with ⟨pass, _ | fault⟩
    · have hlayered : (pass.cut F.size).layered = pass.layered := rfl
      simp only [hlayered]
      cases pass.layered with
      | none => rfl
      | some name => exact layer_cut (q.afterPass c.slot pass (c.directed pass :: below)) c.slot name frame.line
    · rfl
  | splice =>
    have hspliced : (c.cut F.size).spliced = c.spliced := rfl
    simp only [hspliced]
    cases c.spliced with
    | none => rfl
    | some name => exact splice_cut { q with stack := c.placing :: below } c.slot name frame.line
  | place => rfl

theorem leave_cut (q : Performance) (c : Cursor) (below : List Cursor) :
    (q.cut F).leave (c.cut F.size) (below.map (Cursor.cut F.size)) = (q.leave c below).cut F := rfl

/-- **One turn.** It does the same unless the innermost cursor is at the end of a cut body. -/
theorem turn_cut (hq : q.frames = F ++ G)
    (faithful : q.pending = [] → ∀ c below, q.stack = c :: below → c.pos < F.size ∨ c.span.stop ≤ c.pos) :
    (q.cut F).turn = q.turn.cut F := by
  have hpending : (q.cut F).pending = q.pending := rfl
  have hstack : (q.cut F).stack = q.stack.map (Cursor.cut F.size) := rfl
  unfold turn
  rw [hpending, hstack]
  cases pending : q.pending with
  | cons e rest => rfl
  | nil =>
    cases stack : q.stack with
    | nil => rfl
    | cons c below =>
      simp only [List.map_cons]
      have hpos : (c.cut F.size).pos = c.pos := rfl
      have hframes : (q.cut F).frames = F := rfl
      have hstop : (c.cut F.size).span.stop = min c.span.stop F.size := rfl
      rw [hpos, hframes, hstop]
      by_cases done : c.span.stop ≤ c.pos
      · rw [if_pos done, if_pos (by omega)]
        exact congrArg Turn.moved (leave_cut q c below)
      · have hlt : c.pos < F.size := (faithful pending c below stack).resolve_right done
        have hsame : q.frames[c.pos]? = F[c.pos]? := by rw [hq, Array.getElem?_append_left hlt]
        rw [if_neg done, if_neg (by omega), hsame, Array.getElem?_eq_getElem hlt]
        simp only [step_cut hq hlt]
        rcases q.step c below F[c.pos] with ⟨r, _ | e⟩ <;> rfl

end Turns

/-! ## Runs -/

/-- in a descending stack the innermost cursor is at the end of a cut body only when the whole of `F` is done -/
theorem cut_faithful {F : Array Frame} {q : Performance} (h : Descending (q.cut F))
    (going : ∀ p, (q.cut F).turn = .moved p → p.turn ≠ .ended) :
    q.pending = [] → ∀ c below, q.stack = c :: below → c.pos < F.size ∨ c.span.stop ≤ c.pos := by
  intro pending c below stack
  by_contra hfar
  obtain ⟨hpos, hstop⟩ := not_or.1 hfar
  have hstack : (q.cut F).stack = c.cut F.size :: below.map (Cursor.cut F.size) := by
    change q.stack.map _ = _
    rw [stack]
    rfl
  have done : (q.cut F).frames[(c.cut F.size).pos]? = none := Array.getElem?_eq_none (Nat.not_lt.1 hpos)
  have hleft := (Moves.left (p := q.cut F) pending hstack (.inr done)).turn
  rcases h with hended | ⟨cs, b, hdescends, h⟩
  · rw [hleft] at hended
    cases hended
  · cases cs with
    | nil =>
      obtain ⟨_, hbelow⟩ := List.cons.inj (hstack.symm.trans hdescends)
      refine going _ hleft (turn_ended_iff.2 ⟨pending, ?_⟩)
      exact hbelow
    | cons d cs =>
      obtain ⟨rfl, _⟩ := List.cons.inj (hdescends.symm.trans hstack)
      have hlt := h.pos_lt
      have hbehind := h.stop_le_of_done (.inr done)
      -- the body stops inside `F`, so it was not cut
      change min c.span.stop F.size ≤ b.pos at hbehind
      change b.pos < F.size at hlt
      omega

theorem Turns.eq_of_ended {n : Nat} {p q : Performance} {given : List Event} (h : Turns n p given q)
    (hp : p.turn = .ended) : q = p := by
  cases h with
  | none p => rfl
  | moved first _ => rw [hp] at first; cases first
  | event first _ => rw [hp] at first; cases first

/-- **Runs side by side.** As long as the performance of `F` is not at its end, the longer one gives the same. -/
theorem turns_cut {F G : Array Frame} {n : Nat} {p q r : Performance} {given : List Event} (run : Turns n p given r)
    (hp : p = q.cut F) (hq : q.frames = F ++ G) (h : Descending p) (hr : r.turn ≠ .ended) :
    ∃ r', Turns n q given r' ∧ r = r'.cut F ∧ r'.frames = F ++ G := by
  induction run generalizing q with
  | none p => exact ⟨q, .none q, hp, hq⟩
  | @moved n p p' r given first rest ih =>
    have going : ∀ p', p.turn = .moved p' → p'.turn ≠ .ended := by
      intro p'' hturn hended
      rw [first] at hturn
      cases hturn
      rw [rest.eq_of_ended hended] at hr
      exact hr hended
    have h' := h.moves (turn_moved_iff.1 first)
    subst hp
    have hturn := turn_cut hq (cut_faithful h going)
    rw [first] at hturn
    cases hlong : q.turn with
    | moved q' =>
      rw [hlong] at hturn
      cases hturn
      have hq' := (turn_moved_iff.1 hlong).kept.1.trans hq
      obtain ⟨r', hrun, hr', hframes⟩ := ih rfl hq' h' hr
      exact ⟨r', .moved hlong hrun, hr', hframes⟩
    | ended => rw [hlong] at hturn; cases hturn
    | event e q' => rw [hlong] at hturn; cases hturn
    | failed e q' => rw [hlong] at hturn; cases hturn
  | @event n p p' r e given first rest ih =>
    obtain ⟨pending, hpending, hp'⟩ := turn_event_iff.1 first
    have h' := Descending.turns (.event first (.none _)) h
    subst hp
    have hlong : q.turn = .event e { q with pending } := turn_event_iff.2 ⟨pending, hpending, rfl⟩
    obtain ⟨r', hrun, hr', hframes⟩ := ih (q := { q with pending }) hp' hq h' hr
    exact ⟨r', .event hlong hrun, hr', hframes⟩

/-! ## Pulls -/

/-- the answers of `n` pulls, and the performance after them -/
def pulls : Nat → Performance → List Answer × Performance
  | 0, p => ([], p)
  | n + 1, p =>
    let (answers, q) := pulls n p
    let (answer, r) := q.next
    (answers ++ [answer], r)

/-- what a whole performance gave: its events and, after them, its error if there is one -/
def Outcome.answers (o : Outcome) : List Answer := o.events.map .event ++ (o.error.map .failed).toList

theorem pulls_succ {n : Nat} {p q r : Performance} {answers : List Answer} {answer : Answer}
    (h : pulls n p = (answers, q)) (hnext : q.next = (answer, r)) : pulls (n + 1) p = (answers ++ [answer], r) := by
  rw [pulls, h]
  simp only [hnext]

/-- from every state that a performance comes to, turns lead to its end or to a failure, within the bound -/
theorem turns_stop {frames : Array Frame} {song : Song} {timeline : Timeline} {m : Nat} {given : List Event}
    {p : Performance} (run : Turns m (start frames song timeline) given p) :
    ∃ n rest q, Turns n p rest q ∧ m + n < turnBound frames ∧ (q.turn = .ended ∨ ∃ e r, q.turn = .failed e r) := by
  obtain ⟨n, q, hn, hturns, hq⟩ := drain_turns frames song timeline
  have stopped : q.turn = .ended ∨ ∃ e r, q.turn = .failed e r :=
    hq.imp And.right fun ⟨e, r, _, hfailed⟩ => ⟨e, r, hfailed⟩
  have hle : m ≤ n := hturns.le_of_stopped run stopped
  obtain ⟨rest, hrest, _⟩ := hturns.split_of_le run hle
  exact ⟨n - m, rest, q, hrest, by omega, stopped⟩

theorem turns_lt_bound {frames : Array Frame} {song : Song} {timeline : Timeline} {m : Nat} {given : List Event}
    {p : Performance} (run : Turns m (start frames song timeline) given p) : m < turnBound frames := by
  obtain ⟨n, _, _, _, hbound, _⟩ := turns_stop run
  omega

/-- the performances of `F` and of `F ++ G` have both been pulled for the given events, and no further -/
structure Abreast (F G : Array Frame) (song : Song) (timeline : Timeline) (given : List Event) (p q : Performance) :
    Prop where
  short : ∃ m, Turns m (start F song timeline) given p
  long : ∃ m, Turns m (start (F ++ G) song timeline) given q
  same : p = q.cut F
  pulled : pulls given.length (start F song timeline) = (given.map .event, p)
  pulledLong : pulls given.length (start (F ++ G) song timeline) = (given.map .event, q)

namespace Abreast

variable {F G : Array Frame} {song : Song} {timeline : Timeline} {given : List Event} {p q : Performance}

theorem start (F G : Array Frame) (song : Song) (timeline : Timeline) :
    Abreast F G song timeline [] (start F song timeline) (start (F ++ G) song timeline) where
  short := ⟨0, .none _⟩
  long := ⟨0, .none _⟩
  same := by simp [Performance.start, cut, Cursor.cut, Cursor.start, Span.cut, Procedures.cut, Procedures.empty]
  pulled := rfl
  pulledLong := rfl

/-- the next answer is the same -/
theorem pull (h : Abreast F G song timeline given p q) {k : Nat} {s p' : Performance} {answer : Answer}
    (run : Turns k p [] s) (gives : s.turn.answer? = some (answer, p')) :
    ∃ s' q', Turns k q [] s' ∧ s'.turn.answer? = some (answer, q') ∧ p' = q'.cut F ∧
      p.next = (answer, p') ∧ q.next = (answer, q') := by
  obtain ⟨m, short⟩ := h.short
  obtain ⟨m', long⟩ := h.long
  have hs : s.turn ≠ .ended := by
    intro hended
    rw [hended] at gives
    cases gives
  have hdescending := (descending_start F song timeline).turns short
  obtain ⟨s', run', rfl, hframes⟩ := turns_cut run h.same long.kept.1 hdescending hs
  have going : ∀ r, (s'.cut F).turn = .moved r → r.turn ≠ .ended := by
    intro r hmoved
    rw [hmoved] at gives
    cases gives
  have hturn := turn_cut hframes (cut_faithful (hdescending.turns run) going)
  have hshort : k < p.bound := by
    have := turns_lt_bound (short.trans run)
    rw [short.kept.2]
    exact lt_of_le_of_lt (Nat.le_add_left k m) this
  have hlong : k < q.bound := by
    have := turns_lt_bound (long.trans run')
    rw [long.kept.2]
    exact lt_of_le_of_lt (Nat.le_add_left k m') this
  obtain ⟨q', gives', hp'⟩ : ∃ q', s'.turn.answer? = some (answer, q') ∧ p' = q'.cut F := by
    rw [hturn] at gives
    cases hs' : s'.turn with
    | ended => rw [hs'] at gives; cases gives
    | moved r => rw [hs'] at gives; cases gives
    | event e r => rw [hs'] at gives; cases gives; exact ⟨r, rfl, rfl⟩
    | failed e r => rw [hs'] at gives; cases gives; exact ⟨r, rfl, rfl⟩
  exact ⟨s', q', run', gives', hp', next_of_turns run hshort gives, next_of_turns run' hlong gives'⟩

/-- they stay abreast over one more event -/
theorem snoc (h : Abreast F G song timeline given p q) {k : Nat} {s p' : Performance} {e : Event}
    (run : Turns k p [] s) (gives : s.turn = .event e p') : ∃ q', Abreast F G song timeline (given ++ [e]) p' q' := by
  obtain ⟨m, short⟩ := h.short
  obtain ⟨m', long⟩ := h.long
  obtain ⟨s', q', run', gives', hp', hnext, hnext'⟩ := h.pull run (by rw [gives]; rfl)
  have hturn' : s'.turn = .event e q' := Turn.answer?_event.1 gives'
  refine ⟨q', ⟨_, short.trans (run.trans (.event gives (.none p')))⟩,
    ⟨_, long.trans (run'.trans (.event hturn' (.none q')))⟩, hp', ?_, ?_⟩
  · rw [List.length_append, List.map_append]
    exact pulls_succ h.pulled hnext
  · rw [List.length_append, List.map_append]
    exact pulls_succ h.pulledLong hnext'

/-- they are abreast after each of the events of the shorter performance -/
theorem take {N : Nat} {events : List Event} {r : Performance}
    (run : Turns N (Performance.start F song timeline) events r) {n : Nat} (hn : n ≤ events.length) :
    ∃ p q k, Abreast F G song timeline (events.take n) p q ∧ Turns k p (events.drop n) r := by
  induction n with
  | zero => exact ⟨_, _, N, .start F G song timeline, run⟩
  | succ n ih =>
    obtain ⟨p, q, k, h, rest⟩ := ih (by omega)
    have hdrop : events.drop n = events[n] :: events.drop (n + 1) := List.drop_eq_getElem_cons hn
    rw [hdrop] at rest
    obtain ⟨i, l, s, p', before, gives, after, _⟩ := rest.uncons
    obtain ⟨q', h'⟩ := h.snoc before gives
    rw [List.take_add_one, List.getElem?_eq_getElem hn]
    exact ⟨p', q', l, h', after⟩

end Abreast

theorem pulls_cut (F G : Array Frame) (song : Song) (timeline : Timeline) {n : Nat}
    (hn : n ≤ (start F song timeline).drain.answers.length) :
    ∃ p q, pulls n (start F song timeline) = ((start F song timeline).drain.answers.take n, p) ∧
      pulls n (start (F ++ G) song timeline) = ((start F song timeline).drain.answers.take n, q) ∧ p = q.cut F := by
  obtain ⟨N, r, _, run, hr⟩ := drain_turns F song timeline
  unfold Outcome.answers at hn ⊢
  set played := (start F song timeline).drain
  by_cases hevents : n ≤ played.events.length
  · obtain ⟨p, q, _, h, _⟩ := Abreast.take (G := G) run hevents
    have hlength : (played.events.take n).length = n := by simpa using hevents
    have hpulled := h.pulled
    have hpulledLong := h.pulledLong
    rw [hlength, List.map_take] at hpulled hpulledLong
    rw [List.take_append_of_le_length (by simpa using hevents)]
    exact ⟨p, q, hpulled, hpulledLong, h.same⟩
  · -- only the error is left to pull
    rcases hr with ⟨herror, _⟩ | ⟨e, r', herror, hfailed⟩
    · rw [herror] at hn
      simp at hn
      omega
    · have hn' : n = played.events.length + 1 := by
        rw [herror] at hn
        simp at hn
        omega
      obtain ⟨p, q, k, h, rest⟩ := Abreast.take (G := G) run le_rfl
      rw [List.take_length] at h
      rw [List.drop_length] at rest
      obtain ⟨_, q', _, _, hr', hnext, hnext'⟩ := h.pull rest (by rw [hfailed]; rfl)
      rw [herror, hn', List.take_of_length_le (by simp)]
      exact ⟨r', q', pulls_succ h.pulled hnext, pulls_succ h.pulledLong hnext', hr'⟩

/-- **Causality.** As many pulls as a performance of `F` has answers give the same answers from a performance of
`F ++ G`, and leave the same timeline, the same song and the same registered names. So when the one of `F` fails, the
longer one fails in the same way, and otherwise it begins with the same events. -/
theorem pulls_append (F G : Array Frame) (song : Song) (timeline : Timeline) :
    let short := start F song timeline
    let long := start (F ++ G) song timeline
    (∀ n ≤ short.drain.answers.length,
      (pulls n short).1 = short.drain.answers.take n ∧ (pulls n long).1 = short.drain.answers.take n ∧
        (pulls n long).2.timeline = (pulls n short).2.timeline ∧ (pulls n long).2.song = (pulls n short).2.song ∧
        ∀ name, ((pulls n long).2.procedures.get? name).isSome = ((pulls n short).2.procedures.get? name).isSome) ∧
      (∀ e, short.drain.error = some e → long.drain.events = short.drain.events ∧ long.drain.error = some e) ∧
      (short.drain.error = none → short.drain.events <+: long.drain.events) := by
  intro short long
  obtain ⟨N, r, _, run, hr⟩ := drain_turns F song timeline
  obtain ⟨p, q, k, h, rest⟩ := Abreast.take (G := G) run le_rfl
  rw [List.take_length] at h
  rw [List.drop_length] at rest
  obtain ⟨m, hlong⟩ := h.long
  refine ⟨fun n hn => ?_, fun e herror => ?_, fun _ => ?_⟩
  · obtain ⟨p', q', hpulls, hpulls', hp'⟩ := pulls_cut F G song timeline hn
    rw [hpulls, hpulls', hp']
    refine ⟨rfl, rfl, rfl, rfl, fun name => ?_⟩
    change (q'.procedures.get? name).isSome = ((q'.procedures.cut F.size).get? name).isSome
    rw [Procedures.get?_cut, Option.isSome_map]
  · rcases hr with ⟨hnone, _⟩ | ⟨e', r', hsome, hfailed⟩
    · rw [hnone] at herror
      cases herror
    · rw [hsome] at herror
      cases herror
      obtain ⟨s', q', run', gives, _⟩ := h.pull rest (by rw [hfailed]; rfl)
      have hturn : s'.turn = .failed e q' := Turn.answer?_failed.1 gives
      have hwhole := hlong.trans run'
      rw [List.append_nil] at hwhole
      rw [drain_of_failed hwhole (turns_lt_bound hwhole) hturn]
      exact ⟨rfl, rfl⟩
  · obtain ⟨M, s, _, hall, hs⟩ := drain_turns (F ++ G) song timeline
    have hle : m ≤ M := hall.le_of_stopped hlong (hs.imp And.right fun ⟨e, q', _, hfailed⟩ => ⟨e, q', hfailed⟩)
    obtain ⟨zs, _, heq⟩ := hall.split_of_le hlong hle
    exact ⟨zs, heq.symm⟩

/-- a frame that splices a body of two frames which it starts itself -/
def reachingOn : Array Frame := #[⟨1, ⟨[("proc", "p,2"), ("proc_ins", "p")]⟩, [], []⟩]

/-- alone the body is cut to one frame, and with a second frame it is not, but both performances fail at once -/
theorem reachingOn_cut :
    let long := reachingOn ++ #[⟨2, .empty, [], []⟩]
    (pulls 1 (start long .blank .start)).1 = (pulls 1 (start reachingOn .blank .start)).1 ∧
      (pulls 1 (start long .blank .start)).2.procedures.get? "p" = some ⟨0, 2⟩ ∧
      (pulls 1 (start reachingOn .blank .start)).2.procedures.get? "p" = some ⟨0, 1⟩ := by
  intro long
  have hpulls := (pulls_append reachingOn #[⟨2, .empty, [], []⟩] .blank .start).1 1 (by decide)
  exact ⟨hpulls.2.1.trans hpulls.1.symm, by decide, by decide⟩

end Performance

end RhythmChart
