/-
A layered procedure can be taken out of a chart.

One frame of a sequence loses its call of a layered procedure, and nothing else (`Frame.unlayered`). The performance of
the sequence and the one without the call are run side by side. Outside the bodies that this call starts they differ in
the song only, and there in nothing that a directive reads (`Aligned`). While such a body is performed the other
performance waits at the call (`Inside`): the cursors and timelines below the copy are its own, and the body, whose
frames are quiet, keeps the song alike. So when the body is left the two are aligned again.

What the body gives is told apart by the stack right after each event: it has a cursor with a timeline of its own on
the cursor at the frame of the call (`layersFrom`).

Main result: `drain_unlayered`.
-/
import Mathlib.Tactic
import RhythmChart.Proofs.Performance.Causality
import RhythmChart.Proofs.Performance.Isolation
import RhythmChart.Proofs.Performance.Songs

namespace RhythmChart

/-! ## Taking a call out -/

/-- the directives without a key -/
def Directives.erase (ds : Directives) (key : String) : Directives := ⟨ds.entries.filter fun e => e.1 ≠ key⟩

theorem Directives.get?_erase (ds : Directives) (key k : String) :
    (ds.erase key).get? k = if k = key then none else ds.get? k := by
  obtain ⟨entries⟩ := ds
  simp only [get?, erase]
  induction entries with
  | nil => simp
  | cons e rest ih =>
    obtain ⟨k', v⟩ := e
    by_cases hk' : k' = key
    · by_cases hk : k = key
      · simpa [hk', hk] using ih
      · have hne : (k == key) = false := by simpa using hk
        simpa [hk', hk, List.lookup_cons, hne] using ih
    · by_cases hk : k = k'
      · subst hk
        simp [hk']
      · have hne : (k == k') = false := by simpa using hk
        simpa [hk', List.lookup_cons, hne] using ih

/-- the frame without its layered procedure -/
def Frame.unlayered (f : Frame) : Frame := { f with directives := f.directives.erase Directive.layer.key }

namespace Performance

theorem directive?_unlayered (frame : Frame) {d : Directive} (hd : d ≠ .layer) :
    frame.unlayered.directive? d.key = frame.directive? d.key := by
  have hkey : d.key ≠ Directive.layer.key := by
    revert hd
    cases d <;> decide
  simp [Frame.directive?, Frame.unlayered, Directives.get?_erase, hkey]

theorem layerOf_unlayered (frame : Frame) : layerOf frame.unlayered = none := by
  simp [layerOf, Frame.directive?, Frame.unlayered, Directives.get?_erase]

theorem settle_unlayered (frame : Frame) (song : Song) (timeline : Timeline) :
    settle frame.unlayered song timeline = settle frame song timeline := by
  have unlayered : ∀ d ∈ settings, d ≠ .layer := by decide
  exact run_congr (fun d hd => directive?_unlayered frame (unlayered d hd)) _ _

theorem declare_unlayered (site : Site) (ps : Procedures) (frame : Frame) :
    declare site ps frame.unlayered = declare site ps frame := by
  simp only [declare, directive?_unlayered frame (d := .define) (by decide)]

/-- the pass does the same but for the call -/
theorem run_unlayered (site : Site) (frame : Frame) (song : Song) (timeline : Timeline) (ps : Procedures) :
    Pass.run site frame.unlayered Directive.order (.start song timeline ps) =
      ({ (Pass.run site frame Directive.order (.start song timeline ps)).1 with layered := none },
        (Pass.run site frame Directive.order (.start song timeline ps)).2) := by
  have layered : frame.unlayered.directive? Directive.layer.key = none := layerOf_unlayered frame
  rw [run_order, run_order, settle_unlayered, declare_unlayered, layered,
    directive?_unlayered frame (d := .splice) (by decide)]
  rcases settle frame song timeline with ⟨q, _ | fault⟩
  · simp only
    cases declare site ps frame <;> rfl
  · rfl

/-! ## Where events come from -/

/-- the events that a number of turns give, each with the performance right after it -/
def emissionsWithin : Nat → Performance → List (Event × Performance)
  | 0, _ => []
  | fuel + 1, p =>
    match p.turn with
    | .event e q => (e, q) :: emissionsWithin fuel q
    | .moved q => emissionsWithin fuel q
    | .ended | .failed _ _ => []

/-- the events of a performance, each with the performance right after it -/
def emissions (p : Performance) : List (Event × Performance) := emissionsWithin p.bound p

theorem emissionsWithin_moved {n : Nat} {p q : Performance} (h : p.turn = .moved q) :
    emissionsWithin (n + 1) p = emissionsWithin n q := by
  rw [emissionsWithin, h]

theorem emissionsWithin_event {n : Nat} {p q : Performance} {e : Event} (h : p.turn = .event e q) :
    emissionsWithin (n + 1) p = (e, q) :: emissionsWithin n q := by
  rw [emissionsWithin, h]

theorem emissionsWithin_of_turns {n : Nat} {p q : Performance} {given : List Event} (run : Turns n p given q) :
    (emissionsWithin n p).map Prod.fst = given := by
  induction run with
  | none p => rfl
  | moved first _ ih => rw [emissionsWithin_moved first, ih]
  | event first _ ih => rw [emissionsWithin_event first, List.map_cons, ih]

theorem emissions_of_ended {n : Nat} {p q : Performance} {given : List Event} (run : Turns n p given q)
    (hn : n < p.bound) (ended : q.turn = .ended) : p.emissions = emissionsWithin n p := by
  obtain ⟨k, hk⟩ : ∃ k, p.bound = n + (k + 1) := ⟨p.bound - n - 1, by omega⟩
  rw [emissions, hk]
  clear hn hk
  induction run with
  | none p => simp only [emissionsWithin, ended]
  | moved first _ ih => rw [Nat.add_right_comm, emissionsWithin_moved first, emissionsWithin_moved first, ih ended]
  | event first _ ih => rw [Nat.add_right_comm, emissionsWithin_event first, emissionsWithin_event first, ih ended]

/-- some cursor with a timeline of its own stands on a cursor at frame `j` -/
def layersFrom (j : Nat) : List Cursor → Bool
  | c :: d :: below => c.ownsSlot && d.pos == j || layersFrom j (d :: below)
  | _ => false

section LayersFrom

variable {j : Nat} {c d : Cursor} {below : List Cursor}

theorem layersFrom_replace (h : layersFrom j (c :: below) = false) (owns : d.ownsSlot = c.ownsSlot) :
    layersFrom j (d :: below) = false := by
  cases below with
  | nil => rfl
  | cons b below => rwa [layersFrom, owns]

theorem layersFrom_pop (h : layersFrom j (c :: below) = false) : layersFrom j below = false := by
  cases below with
  | nil => rfl
  | cons b below =>
    rw [layersFrom, Bool.or_eq_false_iff] at h
    exact h.2

theorem layersFrom_push (h : layersFrom j (d :: below) = false) (new : c.ownsSlot = true → d.pos ≠ j) :
    layersFrom j (c :: d :: below) = false := by
  rw [layersFrom, h, Bool.or_false]
  cases owns : c.ownsSlot with
  | false => rfl
  | true => simpa using new owns

theorem layersFrom_above (above : List Cursor) (owns : c.ownsSlot = true) (pos : d.pos = j) :
    layersFrom j (above ++ c :: d :: below) = true := by
  induction above with
  | nil => simp [layersFrom, owns, pos]
  | cons a above ih =>
    cases habove : above ++ c :: d :: below with
    | nil => simp at habove
    | cons b rest =>
      rw [habove] at ih
      rw [List.cons_append, habove, layersFrom, ih, Bool.or_true]

end LayersFrom

/-- the events that no call of frame `j` has started -/
def eventsOutside (j : Nat) (emissions : List (Event × Performance)) : List Event :=
  (emissions.filter fun emission => !layersFrom j emission.2.stack).map Prod.fst

theorem eventsOutside_cons_of_false {j : Nat} {e : Event} {q : Performance} (rest : List (Event × Performance))
    (h : layersFrom j q.stack = false) : eventsOutside j ((e, q) :: rest) = e :: eventsOutside j rest := by
  simp [eventsOutside, h]

theorem eventsOutside_cons_of_true {j : Nat} {e : Event} {q : Performance} (rest : List (Event × Performance))
    (h : layersFrom j q.stack = true) : eventsOutside j ((e, q) :: rest) = eventsOutside j rest := by
  simp [eventsOutside, h]

/-- frame `i` stands in the body of a procedure, or in that of one that is called from there -/
inductive Involves (frames : Array Frame) (ps : Procedures) : String → Nat → Prop where
  | body {name : String} {span : Span} {i : Nat} (found : ps.get? name = some span) (begun : span.start ≤ i)
      (inside : i < span.stop) : Involves frames ps name i
  | called {name callee : String} {k i : Nat} {frame : Frame} (caller : Involves frames ps name k)
      (here : frames[k]? = some frame) (calls : layerOf frame = some callee ∨ spliceOf frame = some callee)
      (rest : Involves frames ps callee i) : Involves frames ps name i

/-! ## Two performances side by side -/

/-- a performance in which frame `j` has no layered procedure, with another song and another bound -/
def omitting (j : Nat) (p : Performance) (song : Song) (bound : Nat) : Performance :=
  { p with frames := p.frames.modify j Frame.unlayered, song, bound }

/-- frame `j` layers the procedure, whose body and those called from it are quiet -/
structure Omits (frames : Array Frame) (ps : Procedures) (j : Nat) (name : String) : Prop where
  layers : ∃ frame, frames[j]? = some frame ∧ layerOf frame = some name
  quiet : ∀ i frame, Involves frames ps name i → frames[i]? = some frame → Quiet frame

/-- `p'` is `p` without the call, outside of what that call starts -/
structure Aligned (j : Nat) (p p' : Performance) : Prop where
  seated : Seated p
  song : p.song.Alike p'.song
  same : p' = p.omitting j p'.song p'.bound
  outside : layersFrom j p.stack = false

/-- the cursor goes through frames that a procedure involves -/
def Cursor.Stays (frames : Array Frame) (ps : Procedures) (name : String) (c : Cursor) : Prop :=
  ∀ i, c.span.start ≤ i → i < c.span.stop → Involves frames ps name i

/-- `p` performs what the call of frame `j` starts, on top of the cursors and the timelines of `p'` -/
structure Inside (ps : Procedures) (j : Nat) (name : String) (p p' : Performance) : Prop where
  sheltered : ∃ e, Sheltered e p'.stack p'.timelines p
  frames : p'.frames = p.frames.modify j Frame.unlayered
  song : p.song.Alike p'.song
  procedures : p'.procedures = p.procedures
  pending : p'.pending = []
  caller : ∃ b below, p'.stack = b :: below ∧ b.pos = j
  outside : layersFrom j p'.stack = false
  involved : ∃ above, p.stack = above ++ p'.stack ∧ ∀ c ∈ above, c.Stays p.frames ps name

section Sides

variable {j : Nat} {name : String} {ps : Procedures} {p p' q : Performance} {c : Cursor} {below : List Cursor}
  {frame : Frame} {song : Song} {bound : Nat}

theorem At.omitting (here : At p c below frame) (hne : c.pos ≠ j) : At (p.omitting j song bound) c below frame where
  pending := here.pending
  stack := here.stack
  inside := here.inside
  frame := by
    change (p.frames.modify j Frame.unlayered)[c.pos]? = some frame
    rw [Array.getElem?_modify, if_neg (Ne.symm hne)]
    exact here.frame

theorem At.omitted (here : At p c below frame) (hpos : c.pos = j) :
    At (p.omitting j song bound) c below frame.unlayered where
  pending := here.pending
  stack := here.stack
  inside := here.inside
  frame := by
    change (p.frames.modify j Frame.unlayered)[c.pos]? = some frame.unlayered
    rw [Array.getElem?_modify, if_pos hpos.symm, here.frame]
    rfl

theorem At.beside (here : At p c below frame) (j : Nat) (song : Song) (bound : Nat) :
    ∃ frame', At (p.omitting j song bound) c below frame' ∧ (frame' = frame ∨ frame' = frame.unlayered) := by
  by_cases hpos : c.pos = j
  · exact ⟨_, here.omitted hpos, .inr rfl⟩
  · exact ⟨_, here.omitting hpos, .inl rfl⟩

/-- the directives do the same to the other song -/
theorem passAt_omitting (alike : p.song.Alike song) (j bound : Nat) (c : Cursor) (below : List Cursor) (frame : Frame) :
    ∃ song', (p.passAt c below frame).1.song.Alike song' ∧
      (p.omitting j song bound).passAt c below frame =
        ((p.passAt c below frame).1.singing song', (p.passAt c below frame).2) := by
  have hsize : (p.frames.modify j Frame.unlayered).size = p.frames.size := Array.size_modify
  have h := run_singing ⟨c.pos, p.frames.size, below.isEmpty⟩ frame Directive.order
    (p := .start p.song (p.timelineAt c.slot) p.procedures) alike
  unfold passAt omitting
  rw [hsize]
  exact h

/-- the call starts a body that the other performance leaves out -/
theorem Seated.inside {pass : Pass} {span : Span} {song' : Song} (seated : Seated p) (here : At p c below frame)
    (stage : c.stage = .directives) (passed : p.passAt c below frame = (pass, none))
    (layered : pass.layered = some name)
    (resolved : (p.afterPass c.slot pass (c.directed pass :: below)).resolve name = .ok span)
    (alike : pass.song.Alike song') (hpos : c.pos = j) (outside : layersFrom j (c :: below) = false)
    (extends_ : Procedures.Extends pass.procedures ps) :
    Inside ps j name ((p.afterPass c.slot pass (c.directed pass :: below)).layering c.slot span name)
      ((p.omitting j song bound).afterPass c.slot (pass.singing song') (c.directed pass :: below)) := by
  have m := Moves.layered here stage passed layered resolved
  obtain ⟨c', rest, frame', pass', forks, sheltered⟩ := seated.forks m rfl (by rw [here.stack]; exact Nat.lt_succ_self _) rfl
  obtain ⟨rfl, rfl⟩ := here.innermost forks.here.stack
  obtain rfl : frame' = frame := by
    have present := forks.here.frame
    rw [here.frame] at present
    exact (Option.some.inj present).symm
  obtain rfl : pass' = pass := by
    have passed' := forks.passed
    rw [passed] at passed'
    exact (Prod.mk.inj passed').1.symm
  rw [forks.others] at sheltered
  refine ⟨⟨_, sheltered⟩, rfl, alike, rfl, here.pending, ⟨_, _, rfl, hpos⟩, layersFrom_replace outside rfl, ?_⟩
  refine ⟨[_], rfl, ?_⟩
  intro d hd i begun inside
  obtain rfl := List.mem_singleton.1 hd
  exact .body (extends_ _ _ (resolve_ok resolved).2) begun inside

/-- **Outside the call** a move of one is a move of the other, unless it makes the call. -/
theorem Aligned.moves (h : Aligned j p p') (m : Moves p q) (omits : Omits p.frames ps j name)
    (extends_ : Procedures.Extends q.procedures ps) :
    ∃ q', Moves p' q' ∧ (Aligned j q q' ∨ Inside ps j name q q') := by
  have before := h.seated
  have seated := before.moves m
  have outside := h.outside
  obtain ⟨song, bound, alike, rfl⟩ : ∃ song bound, p.song.Alike song ∧ p' = p.omitting j song bound :=
    ⟨_, _, h.song, h.same⟩
  clear h
  cases m with
  | @left c below pending stack done =>
    rw [stack] at outside
    have done' : c.span.stop ≤ c.pos ∨ (p.omitting j song bound).frames[c.pos]? = none := by
      refine done.imp_right fun absent => ?_
      change (p.frames.modify j Frame.unlayered)[c.pos]? = none
      rw [Array.getElem?_modify, absent]
      split <;> rfl
    exact ⟨_, .left pending stack done', .inl ⟨seated, alike, rfl, layersFrom_pop outside⟩⟩
  | @directed c below frame pass here stage passed layered =>
    rw [here.stack] at outside
    have hne : c.pos ≠ j := by
      rintro rfl
      obtain ⟨frame', here', layers⟩ := omits.layers
      rw [here.frame] at here'
      cases here'
      rw [(run_order_passed passed).2.2.1] at layered
      rw [layerOf, layered] at layers
      cases layers
    obtain ⟨song', alike', passed'⟩ := passAt_omitting alike j bound c below frame
    rw [passed] at passed' alike'
    exact ⟨_, .directed (here.omitting hne) stage passed' layered,
      .inl ⟨seated, alike', rfl, layersFrom_replace outside rfl⟩⟩
  | @layered c below frame pass callee span here stage passed layered resolved =>
    rw [here.stack] at outside
    obtain ⟨song', alike', passed'⟩ := passAt_omitting alike j bound c below frame
    rw [passed] at passed' alike'
    by_cases hpos : c.pos = j
    · obtain ⟨frame', here', layers⟩ := omits.layers
      rw [← hpos, here.frame] at here'
      cases here'
      obtain rfl : callee = name := by
        rw [(run_order_passed passed).2.2.1] at layered
        exact Option.some.inj (layered.symm.trans layers)
      have uncalled : (p.omitting j song bound).passAt c below frame.unlayered =
          ({ pass.singing song' with layered := none }, none) := by
        rw [passAt, run_unlayered]
        unfold passAt at passed'
        rw [passed']
      exact ⟨_, .directed (here.omitted hpos) stage uncalled rfl,
        .inr (before.inside here stage passed layered resolved alike' hpos outside extends_)⟩
    · refine ⟨_, .layered (here.omitting hpos) stage passed' layered resolved, .inl ⟨seated, alike', rfl, ?_⟩⟩
      exact layersFrom_push (layersFrom_replace outside rfl) fun _ => hpos
  | @unspliced c below frame here stage spliced =>
    rw [here.stack] at outside
    obtain ⟨_, here', _⟩ := here.beside j song bound
    exact ⟨_, .unspliced here' stage spliced, .inl ⟨seated, alike, rfl, layersFrom_replace outside rfl⟩⟩
  | @spliced c below frame callee span here stage spliced resolved =>
    rw [here.stack] at outside
    obtain ⟨_, here', _⟩ := here.beside j song bound
    refine ⟨_, .spliced here' stage spliced resolved, .inl ⟨seated, alike, rfl, ?_⟩⟩
    exact layersFrom_push (layersFrom_replace outside rfl) fun owns => absurd owns Bool.false_ne_true
  | @placed c below frame here stage =>
    rw [here.stack] at outside
    obtain ⟨frame', here', hframe⟩ := here.beside j song bound
    refine ⟨_, .placed here' stage, .inl ⟨seated, alike, ?_, layersFrom_replace outside rfl⟩⟩
    rcases hframe with rfl | rfl <;> rfl

theorem Inside.omitting (h : Inside ps j name p p') (pending : q.pending = []) (stack : q.stack = p'.stack)
    (timelines : q.timelines = p'.timelines) (kept : q.frames = p.frames) (procedures : q.procedures = p.procedures) :
    p' = q.omitting j p'.song p'.bound := by
  have frames' := h.frames
  have procedures' := h.procedures
  have pending' := h.pending
  obtain ⟨_, _, _, _, _, _, _⟩ := p'
  simp_all [Performance.omitting]

/-- inside a procedure, at a quiet frame, a move keeps the registry and what is read of the song -/
theorem Moves.quiet (m : Moves p q) (stack : p.stack = c :: below) (inner : below ≠ [])
    (quiet : ∀ frame, At p c below frame → Quiet frame) : q.procedures = p.procedures ∧ p.song.Alike q.song := by
  have passed_quiet : ∀ {frame pass}, At p c below frame → p.passAt c below frame = (pass, none) →
      pass.procedures = p.procedures ∧ p.song.Alike pass.song := by
    intro frame pass here passed
    have alike := run_alike ⟨c.pos, p.frames.size, below.isEmpty⟩ (quiet frame here) Directive.order
      (.start p.song (p.timelineAt c.slot) p.procedures)
    change (p.passAt c below frame).1.song.Alike p.song at alike
    rw [passed] at alike
    exact ⟨(passAt_inner passed inner).1, alike.symm⟩
  cases m with
  | left | unspliced | spliced | placed => exact ⟨rfl, .refl _⟩
  | directed here _ passed | layered here _ passed =>
    obtain ⟨rfl, rfl⟩ := here.innermost stack
    exact passed_quiet here passed

theorem Descending.noted (h : Descending p) (stack : p.stack = c :: below) (stage : c.stage = .splice)
    (here : p.frames[c.pos]? = some frame) : c.spliced = spliceOf frame := by
  rcases h with ended | ⟨cs, b, hstack, h⟩
  · rw [(turn_ended_iff.1 ended).2] at stack
    cases stack
  · have hc : c ∈ cs ++ [b] := by
      rw [← hstack, stack]
      exact List.mem_cons_self
    rcases List.mem_append.1 hc with hc | hc
    · exact h.noted c hc stage frame here
    · obtain rfl := List.mem_singleton.1 hc
      exact h.marked stage frame here

/-- a move inside a procedure goes on in frames that the procedure involves -/
theorem Moves.involved {above rest : List Cursor} (m : Moves p q) (descending : Descending p)
    (stack : p.stack = c :: (above ++ rest)) (inner : above ++ rest ≠ []) (begun : c.span.start ≤ c.pos)
    (involved : ∀ d ∈ c :: above, d.Stays p.frames ps name) (extends_ : Procedures.Extends q.procedures ps) :
    ∃ above', q.stack = above' ++ rest ∧ ∀ d ∈ above', d.Stays q.frames ps name := by
  obtain ⟨top, others⟩ := List.forall_mem_cons.1 involved
  have callee : ∀ {frame : Frame} {name' : String} {d : Cursor}, At p c (above ++ rest) frame →
      layerOf frame = some name' ∨ spliceOf frame = some name' → q.procedures.get? name' = some d.span →
      d.Stays p.frames ps name := by
    intro frame name' d here calls found i hbegun hinside
    exact .called (top c.pos begun here.inside) here.frame calls (.body (extends_ _ _ found) hbegun hinside)
  cases m with
  | left pending stack' done =>
    obtain ⟨rfl, rfl⟩ := List.cons.inj (stack.symm.trans stack')
    exact ⟨above, rfl, others⟩
  | directed here | unspliced here | placed here =>
    obtain ⟨rfl, rfl⟩ := here.innermost stack
    exact ⟨_ :: above, rfl, List.forall_mem_cons.2 ⟨top, others⟩⟩
  | layered here stage passed layered resolved =>
    obtain ⟨rfl, rfl⟩ := here.innermost stack
    have calls := (passAt_inner passed inner).2.1.symm.trans layered
    refine ⟨_ :: _ :: above, rfl, List.forall_mem_cons.2 ⟨?_, List.forall_mem_cons.2 ⟨top, others⟩⟩⟩
    exact callee here (.inl calls) (resolve_ok resolved).2
  | spliced here stage spliced resolved =>
    obtain ⟨rfl, rfl⟩ := here.innermost stack
    have calls := (descending.noted stack stage here.frame).symm.trans spliced
    refine ⟨_ :: _ :: above, rfl, List.forall_mem_cons.2 ⟨?_, List.forall_mem_cons.2 ⟨top, others⟩⟩⟩
    exact callee here (.inr calls) (resolve_ok resolved).2

/-- **Inside the call** a move of the one that makes it stays inside, or leaves it, and then the two are aligned. -/
theorem Inside.moves (h : Inside ps j name p p') (m : Moves p q) (descending : Descending p)
    (omits : Omits p.frames ps j name) (extends_ : Procedures.Extends q.procedures ps) :
    Inside ps j name q p' ∨ Aligned j q p' := by
  obtain ⟨e, sheltered⟩ := h.sheltered
  obtain ⟨above, hstack, involved⟩ := h.involved
  have hlonger := sheltered.length_lt
  cases above with
  | nil =>
    rw [hstack] at hlonger
    exact absurd hlonger (lt_irrefl _)
  | cons c above =>
    have stack : p.stack = c :: (above ++ p'.stack) := hstack
    have inner : above ++ p'.stack ≠ [] := by
      obtain ⟨b, below, hcaller, _⟩ := h.caller
      simp [hcaller]
    have begun := ((stack ▸ sheltered.seated.stacked).inside_span sheltered.seated.bodies).1
    obtain ⟨procedures, alike⟩ := m.quiet stack inner fun frame here =>
      omits.quiet c.pos frame (involved c List.mem_cons_self c.pos begun here.inside) here.frame
    have song : q.song.Alike p'.song := alike.symm.trans h.song
    rcases sheltered.moves m with sheltered' | ⟨pending, stack', timelines⟩
    · exact .inl ⟨⟨e, sheltered'⟩, h.frames.trans (by rw [m.kept.1]), song, h.procedures.trans procedures.symm,
        h.pending, h.caller, h.outside, m.involved descending stack inner begun involved extends_⟩
    · right
      refine ⟨sheltered.seated.moves m, song, h.omitting pending stack' timelines m.kept.1 procedures, ?_⟩
      rw [stack']
      exact h.outside

/-- outside the call both give a pending event -/
theorem Aligned.event {e : Event} {pending : List Event} (h : Aligned j p p') (hpending : p.pending = e :: pending) :
    ∃ q', p'.turn = .event e q' ∧ Aligned j { p with pending } q' := by
  have hpending' : p'.pending = e :: pending := by rw [h.same]; exact hpending
  refine ⟨_, turn_event_iff.2 ⟨pending, hpending', rfl⟩, h.seated.event pending, h.song,
    ?_, h.outside⟩
  have same := h.same
  generalize p'.song = song at same
  generalize p'.bound = bound at same
  subst same
  rfl

theorem Inside.layersFrom (h : Inside ps j name p p') : layersFrom j p.stack = true := by
  obtain ⟨e, sheltered⟩ := h.sheltered
  obtain ⟨above, d, stack, same⟩ := sheltered.stack
  obtain ⟨b, below, caller, pos⟩ := h.caller
  rw [stack, caller]
  exact layersFrom_above above (same.ownsSlot.trans sheltered.owns) pos

theorem Inside.event (h : Inside ps j name p p') (pending : List Event) : Inside ps j name { p with pending } p' := by
  obtain ⟨e, sheltered⟩ := h.sheltered
  exact ⟨⟨e, sheltered.event pending⟩, h.frames, h.song, h.procedures, h.pending, h.caller, h.outside, h.involved⟩

end Sides

/-! ## Whole runs -/

theorem Moves.extends {p q : Performance} (m : Moves p q) : Procedures.Extends p.procedures q.procedures := by
  cases m with
  | left | unspliced | spliced | placed => exact fun _ _ found => found
  | directed _ _ passed | layered _ _ passed => exact declare_extends (run_order_passed passed).2.1

theorem Turns.extends {n : Nat} {p q : Performance} {given : List Event} (run : Turns n p given q) :
    Procedures.Extends p.procedures q.procedures := by
  induction run with
  | none p => exact fun _ _ found => found
  | moved first _ ih => exact fun name span found => ih name span ((turn_moved_iff.1 first).extends name span found)
  | event first _ ih =>
    obtain ⟨_, _, rfl⟩ := turn_event_iff.1 first
    exact ih

/-- **Side by side.** The performance without the call gives the events that the call has not started. -/
theorem Turns.beside {j n : Nat} {name : String} {p p' r : Performance} {given : List Event} (run : Turns n p given r)
    (descending : Descending p) (omits : Omits p.frames r.procedures j name)
    (h : Aligned j p p' ∨ Inside r.procedures j name p p') :
    ∃ n' r', Turns n' p' (eventsOutside j (emissionsWithin n p)) r' ∧
      (Aligned j r r' ∨ Inside r.procedures j name r r') := by
  induction run generalizing p' with
  | none p => exact ⟨0, p', .none p', h⟩
  | @moved n p q r given first rest ih =>
    have m := turn_moved_iff.1 first
    rw [← m.kept.1] at omits
    rw [emissionsWithin_moved first]
    rcases h with h | h
    · obtain ⟨q', m', h'⟩ := h.moves m (m.kept.1 ▸ omits) rest.extends
      obtain ⟨n', r', run', hr⟩ := ih (descending.moves m) omits h'
      exact ⟨n' + 1, r', .moved m'.turn run', hr⟩
    · exact ih (descending.moves m) omits (h.moves m descending (m.kept.1 ▸ omits) rest.extends).symm
  | @event n p q r e given first rest ih =>
    have descending' : Descending q := Descending.turns (.event first (.none q)) descending
    obtain ⟨pending, hpending, rfl⟩ := turn_event_iff.1 first
    rw [emissionsWithin_event first]
    rcases h with h | h
    · obtain ⟨q', given', h'⟩ := h.event hpending
      obtain ⟨n', r', run', hr⟩ := ih descending' omits (.inl h')
      rw [eventsOutside_cons_of_false _ h'.outside]
      exact ⟨n' + 1, r', .event given' run', hr⟩
    · have h' := h.event pending
      rw [eventsOutside_cons_of_true _ h'.layersFrom]
      exact ih descending' omits (.inr h')

/-- **A layered procedure can be taken out.** Let frame `j` layer a procedure, and let no frame of its body or of one
that is called from there set a tempo or silence. When the performance succeeds, so does the one without the call. It
gives the same events but those that the call has started, and leaves the same timeline, registry, tempo and silence. -/
theorem drain_unlayered {F : Array Frame} {song : Song} {timeline : Timeline} {j : Nat} {frame : Frame} {name : String}
    (here : F[j]? = some frame) (layers : layerOf frame = some name)
    (succeeded : (start F song timeline).drain.error = none)
    (quiet : ∀ i f, Involves F (start F song timeline).drain.final.procedures name i → F[i]? = some f → Quiet f) :
    let p := start F song timeline
    let played := p.drain
    let shortened := (start (F.modify j Frame.unlayered) song timeline).drain
    p.emissions.map Prod.fst = played.events ∧ shortened.events = eventsOutside j p.emissions ∧
      shortened.error = none ∧ shortened.final.timeline = played.final.timeline ∧
      shortened.final.procedures = played.final.procedures ∧ played.final.song.Alike shortened.final.song := by
  intro p played shortened
  obtain ⟨n, hn, run, ended⟩ := drain_succeeded succeeded
  have aligned : Aligned j p (start (F.modify j Frame.unlayered) song timeline) :=
    ⟨.start F song timeline, .refl song, by simp [p, start, omitting], rfl⟩
  obtain ⟨n', r', run', beside⟩ := run.beside (descending_start F song timeline) ⟨⟨frame, here, layers⟩, quiet⟩
    (.inl aligned)
  have hemissions : p.emissions = emissionsWithin n p := emissions_of_ended run hn ended
  rw [hemissions]
  obtain ⟨pending, stack⟩ := turn_ended_iff.1 ended
  rcases beside with h | h
  · have ended' : r'.turn = .ended := by
      rw [turn_ended_iff, h.same]
      exact ⟨pending, stack⟩
    have hshortened : shortened = _ := drain_of_ended run' (turns_lt_bound run') ended'
    rw [hshortened]
    refine ⟨emissionsWithin_of_turns run, rfl, rfl, ?_, ?_, h.song⟩
    · rw [h.same]
      rfl
    · rw [h.same]
      rfl
  · -- inside the call there are still cursors
    obtain ⟨_, sheltered⟩ := h.sheltered
    have hlonger := sheltered.length_lt
    rw [stack] at hlonger
    exact absurd hlonger (Nat.not_lt_zero _)

/-- a procedure that sets a time and a title, a frame that layers it, and one that splices that frame -/
def layeredTwice : Array Frame :=
  #[⟨1, ⟨[("proc", "p"), ("set_time", "7"), ("title", "inner")]⟩, [⟨0, 0, .red, none, .all⟩], []⟩,
    ⟨2, ⟨[("proc", "q"), ("proc_add", "p"), ("measure", "4")]⟩, [⟨1, 1, .blue, none, .all⟩], []⟩,
    ⟨3, ⟨[("bpm", "120"), ("proc_ins", "q"), ("title", "outer")]⟩, [⟨2, 2, .bomb, none, .all⟩], []⟩]

/-- without the call the events of its two bodies are gone, and the title is not set again -/
theorem layeredTwice_unlayered :
    let played := (start layeredTwice .blank .start).drain
    let shortened := (start (layeredTwice.modify 1 Frame.unlayered) .blank .start).drain
    shortened.events = eventsOutside 1 (start layeredTwice .blank .start).emissions ∧ shortened.error = none ∧
      shortened.final.timeline = played.final.timeline ∧ played.final.song.Alike shortened.final.song ∧
      played.events.length = 6 ∧ shortened.events.length = 4 ∧ played.final.song.title = some "inner" ∧
      shortened.final.song.title = some "outer" := by
  have involved : ∀ name i, Involves layeredTwice (start layeredTwice .blank .start).drain.final.procedures name i →
      name = "p" → i = 0 := by
    have body : (start layeredTwice .blank .start).drain.final.procedures.get? "p" = some ⟨0, 1⟩ := by decide +kernel
    intro name i h
    induction h with
    | body found begun inside =>
      rintro rfl
      rw [body] at found
      cases found
      exact Nat.lt_one_iff.1 inside
    | called _ here calls _ ih _ =>
      intro hname
      rw [ih hname] at here
      cases here
      rcases calls with calls | calls <;> cases calls
  have quiet : ∀ i f, Involves layeredTwice (start layeredTwice .blank .start).drain.final.procedures "p" i →
      layeredTwice[i]? = some f → Quiet f := by
    intro i f h here
    rw [involved _ i h rfl] at here
    cases here
    decide
  obtain ⟨_, events, error, timeline, _, alike⟩ :=
    @drain_unlayered layeredTwice .blank .start 1 _ "p" rfl rfl (by decide +kernel) quiet
  refine ⟨events, error, timeline, alike, ?_⟩
  decide +kernel

end Performance

end RhythmChart
