/-
A long performance can be cut in two.

When a performance of `F` has succeeded, another one can go on from its song and its timeline with the frames `G`. It
starts with an empty registry and counts its frames from zero, and a body that it declares is cut at the end of `G`. A
performance of `F ++ G` does the same with its frames counted from the end of `F` and with the procedures of `F` behind
its own in the registry (`recite_behind`), as long as `G` uses none of their names: each body of the one, moved by the
length of `F`, is a body of the other.

The first half comes from the machine. The longer performance does what the one of `F` does up to the turn before its
last one (`turns_before_end`), and then its lowest cursor is at the first frame of `G` (`turns_halfway`). From there it
follows the recursion, which the shift is about.

Main result: `drain_append`.
-/
import Mathlib.Tactic
import RhythmChart.Proofs.Performance.Causality
import RhythmChart.Proofs.Performance.Discipline

namespace RhythmChart

/-! ## Names -/

/-- the name that a frame declares, if its declaration can be read -/
def Performance.declaredName (frame : Frame) : Option String :=
  match frame.directive? Directive.define.key with
  | none => none
  | some raw =>
    match Declaration.read raw with
    | .ok declaration => some declaration.name
    | .error _ => none

/-- the names that a frame declares or calls -/
def Performance.namesIn (frame : Frame) : List String :=
  (declaredName frame).toList ++ (layerOf frame).toList ++ (spliceOf frame).toList

/-! ## The shift -/

/-- a span in a sequence with `m` more frames in front -/
def Span.behind (m : Nat) (s : Span) : Span := ⟨s.start + m, s.stop + m⟩

/-- a registry behind `m` frames that have left the procedures `known` -/
def Procedures.behind (ps : Procedures) (m : Nat) (known : Procedures) : Procedures :=
  ⟨ps.bodies.map (fun b => (b.1, b.2.behind m)) ++ known.bodies⟩

theorem Procedures.get?_behind {m : Nat} {known : Procedures} (ps : Procedures) {name : String}
    (fresh : known.get? name = none) : (ps.behind m known).get? name = (ps.get? name).map (Span.behind m) := by
  obtain ⟨bodies⟩ := ps
  unfold Procedures.behind
  induction bodies with
  | nil => exact fresh
  | cons b rest ih =>
    obtain ⟨name', span⟩ := b
    simp only [Procedures.get?, List.map_cons, List.cons_append, List.lookup_cons] at ih ⊢
    cases name == name' with
    | true => rfl
    | false => exact ih

theorem Declaration.body_behind (d : Declaration) (m pos count : Nat) :
    d.body (pos + m) (count + m) = (d.body pos count).behind m := by
  unfold Declaration.body Span.behind
  congr 1
  simp only
  omega

namespace Performance

def Pass.behind (m : Nat) (known : Procedures) (p : Pass) : Pass := { p with procedures := p.procedures.behind m known }

def Stretch.behind (m : Nat) (known : Procedures) (r : Stretch) : Stretch :=
  { r with procedures := r.procedures.behind m known }

section Behind

variable {m : Nat} {known : Procedures} {frame : Frame}

theorem declare_behind {pos count : Nat} {topLevel : Bool} {ps : Procedures}
    (fresh : ∀ name ∈ namesIn frame, known.get? name = none) :
    declare ⟨pos + m, count + m, topLevel⟩ (ps.behind m known) frame =
      (declare ⟨pos, count, topLevel⟩ ps frame).map (·.behind m known) := by
  unfold declare
  cases declared : frame.directive? Directive.define.key with
  | none => rfl
  | some raw =>
    cases topLevel with
    | false => rfl
    | true =>
      simp only [if_true]
      cases read : Declaration.read raw with
      | error fault => rfl
      | ok d =>
        have unknown : known.get? d.name = none := fresh _ (by simp [namesIn, declaredName, declared, read])
        simp only [Procedures.define, Procedures.get?_behind ps unknown, Option.isSome_map]
        cases (ps.get? d.name).isSome with
        | true => rfl
        | false =>
          simp only [Bool.false_eq_true, if_false, Except.map, d.body_behind]
          rfl

/-- the directives do the same to a registry behind other procedures -/
theorem pass_behind (fresh : ∀ name ∈ namesIn frame, known.get? name = none) (m pos count : Nat) (topLevel : Bool)
    (song : Song) (timeline : Timeline) (ps : Procedures) :
    Pass.run ⟨pos + m, count + m, topLevel⟩ frame Directive.order (.start song timeline (ps.behind m known)) =
      ((Pass.run ⟨pos, count, topLevel⟩ frame Directive.order (.start song timeline ps)).1.behind m known,
        (Pass.run ⟨pos, count, topLevel⟩ frame Directive.order (.start song timeline ps)).2) := by
  rw [run_order, run_order, declare_behind fresh]
  rcases settle frame song timeline with ⟨p, _ | fault⟩
  · simp only
    cases declare ⟨pos, count, topLevel⟩ ps frame <;> rfl
  · rfl

theorem summon_behind {ps : Procedures} (active : List String) {name : String} (fresh : known.get? name = none) :
    summon (ps.behind m known) active name = (summon ps active name).map (Span.behind m) := by
  unfold summon Procedures.body
  rw [Procedures.get?_behind ps fresh]
  cases ps.get? name <;> split <;> rfl

theorem Stretch.andThen_behind (r : Stretch) {next next' : Song → Timeline → Stretch}
    (h : ∀ song timeline, next' song timeline = (next song timeline).behind m known) :
    (r.behind m known).andThen next' = (r.andThen next).behind m known := by
  obtain ⟨events, error, song, timeline, ps⟩ := r
  cases error with
  | some e => rfl
  | none => simp only [Stretch.andThen, Stretch.behind, h]

/-- a visit whose calls are moved is moved -/
theorem visit_behind {pass : Pass} {call call' : Option String → Song → Timeline → Stretch}
    (layered : ∀ song timeline, call' pass.layered song timeline = (call pass.layered song timeline).behind m known)
    (spliced : ∀ song timeline, call' pass.spliced song timeline = (call pass.spliced song timeline).behind m known) :
    visit frame (pass.behind m known) call' = (visit frame pass call).behind m known := by
  have onCopy : (call' pass.layered pass.song pass.timeline).onCopyOf pass.timeline =
      ((call pass.layered pass.song pass.timeline).onCopyOf pass.timeline).behind m known := by
    rw [layered]
    rfl
  unfold visit
  change (((call' pass.layered pass.song pass.timeline).onCopyOf pass.timeline).andThen (call' pass.spliced)).andThen _ = _
  rw [onCopy, Stretch.andThen_behind _ spliced]
  exact Stretch.andThen_behind _ fun _ _ => rfl

/-- **The shift.** Behind the frames `F` and their procedures, the frames `G` are performed as they are alone. -/
theorem recite_behind {F G : Array Frame} (fresh : ∀ frame ∈ G, ∀ name ∈ namesIn frame, known.get? name = none)
    (active : List String) (pos stop : Nat) (song : Song) (timeline : Timeline) (ps : Procedures) :
    recite (F ++ G) active (pos + F.size) (stop + F.size) song timeline (ps.behind F.size known) =
      (recite G active pos stop song timeline ps).behind F.size known := by
  have hsize : (F ++ G).size = G.size + F.size := by rw [Array.size_append, Nat.add_comm]
  have hframe : ∀ i, (F ++ G)[i + F.size]? = G[i]? := by
    intro i
    rw [Array.getElem?_append_right (Nat.le_add_left _ _), Nat.add_sub_cancel]
  induction active, pos, stop, song, timeline, ps using recite.induct G with
  | case1 active pos stop song timeline ps inside absent =>
    rw [recite_done (.inr absent), recite_done (.inr ((hframe pos).trans absent))]
    rfl
  | case2 active pos stop song timeline ps inside frame here pass fault run =>
    have hpass := pass_behind (fresh frame (Array.mem_of_getElem? here)) F.size pos G.size active.isEmpty song timeline ps
    rw [run, ← hsize] at hpass
    rw [recite_refused inside here run, recite_refused (by omega) ((hframe pos).trans here) hpass]
    rfl
  | case3 active pos stop song timeline ps inside frame here pass run ihCall ihNext =>
    have unknown := fresh frame (Array.mem_of_getElem? here)
    have hpass := pass_behind unknown F.size pos G.size active.isEmpty song timeline ps
    rw [run, ← hsize] at hpass
    obtain ⟨_, _, hlayered, hspliced, _⟩ := run_order_passed run
    have called : ∀ name, name = layerOf frame ∨ name = spliceOf frame → ∀ song timeline,
        call (F ++ G) active frame.line (pass.procedures.behind F.size known) name song timeline =
          (call G active frame.line pass.procedures name song timeline).behind F.size known := by
      intro name hname song timeline
      cases name with
      | none => rfl
      | some name =>
        have absent : known.get? name = none := unknown name (by
          rcases hname with hname | hname <;> simp [namesIn, ← hname])
        simp only [call, summon_behind active absent]
        cases found : summon pass.procedures active name with
        | error fault => rfl
        | ok span => exact ihCall song timeline name span found
    rw [recite_passed inside here run, recite_passed (by omega) ((hframe pos).trans here) hpass]
    rw [show (pass.behind F.size known).procedures = pass.procedures.behind F.size known from rfl,
      visit_behind (called _ (.inl hlayered)) (called _ (.inr hspliced))]
    apply Stretch.andThen_behind
    intro song timeline
    rw [Nat.add_right_comm]
    exact ihNext song timeline
  | case4 active pos stop song timeline ps outside =>
    rw [recite_done (.inl (Nat.not_lt.1 outside)), recite_done (.inl (by omega))]
    rfl

end Behind

/-! ## Up to the end of the first part -/

/-- the turns before the last one, and the last one -/
theorem Turns.unsnoc {n : Nat} {p q : Performance} {given : List Event} (h : Turns (n + 1) p given q) :
    ∃ before r, Turns n p before r ∧
      (given = before ∧ r.turn = .moved q ∨ ∃ e, given = before ++ [e] ∧ r.turn = .event e q) := by
  generalize hk : n + 1 = k at h
  induction h generalizing n with
  | none => cases hk
  | @moved k p p' q given first rest ih =>
    cases hk
    cases k with
    | zero =>
      cases rest
      exact ⟨[], p, .none p, .inl ⟨rfl, first⟩⟩
    | succ k =>
      obtain ⟨before, r, run, last⟩ := ih rfl
      exact ⟨before, r, .moved first run, last⟩
  | @event k p p' q e given first rest ih =>
    cases hk
    cases k with
    | zero =>
      cases rest
      exact ⟨[], p, .none p, .inr ⟨e, rfl, first⟩⟩
    | succ k =>
      obtain ⟨before, r, run, last⟩ := ih rfl
      refine ⟨e :: before, r, .event first run, ?_⟩
      rcases last with ⟨rfl, last⟩ | ⟨e', rfl, last⟩
      · exact .inl ⟨rfl, last⟩
      · exact .inr ⟨e', rfl, last⟩

/-- a cursor is inside its span while it works on a frame -/
def Working (p : Performance) : Prop := ∀ c ∈ p.stack, c.stage ≠ .directives → c.pos < c.span.stop

theorem Working.moves {p q : Performance} (h : Working p) (m : Moves p q) : Working q := by
  have below_ok : ∀ {c : Cursor} {below : List Cursor}, p.stack = c :: below → ∀ d ∈ below, d.stage ≠ .directives →
      d.pos < d.span.stop := by
    intro c below stack d hd
    exact h d (by rw [stack]; exact List.mem_cons_of_mem c hd)
  intro d hd working
  cases m with
  | left _ stack => exact below_ok stack d hd working
  | directed here | unspliced here =>
    rcases List.mem_cons.1 hd with rfl | hd
    · exact here.inside
    · exact below_ok here.stack d hd working
  | layered here | spliced here =>
    rcases List.mem_cons.1 hd with rfl | hd
    · exact absurd rfl working
    · rcases List.mem_cons.1 hd with rfl | hd
      · exact here.inside
      · exact below_ok here.stack d hd working
  | placed here =>
    rcases List.mem_cons.1 hd with rfl | hd
    · exact absurd rfl working
    · exact below_ok here.stack d hd working

theorem Working.turns {n : Nat} {p q : Performance} {given : List Event} (run : Turns n p given q) (h : Working p) :
    Working q := by
  induction run with
  | none p => exact h
  | moved first _ ih => exact ih (h.moves (turn_moved_iff.1 first))
  | event first _ ih =>
    obtain ⟨rest, _, rfl⟩ := turn_event_iff.1 first
    exact ih h

theorem working_start (frames : Array Frame) (song : Song) (timeline : Timeline) :
    Working (start frames song timeline) := by
  intro c hc working
  rw [List.mem_singleton.1 hc] at working
  exact absurd rfl working

/-- `c` is the cursor of the whole sequence, with nothing above it, and works on the only timeline -/
structure Alone (p : Performance) (c : Cursor) : Prop where
  stack : p.stack = [c]
  span : c.span = ⟨0, p.frames.size⟩
  slot : c.slot = 0
  shares : c.ownsSlot = false
  nameless : c.procedure = none
  inside : c.pos ≤ p.frames.size
  timelines : p.timelines = [p.timeline]

theorem Seated.alone {p : Performance} {c : Cursor} (h : Seated p) (stack : p.stack = [c]) : Alone p c := by
  have htimelines := h.timelines
  cases stack ▸ h.stacked with
  | whole span slot shares nameless inside =>
    rw [stack, List.countP_singleton, shares] at htimelines
    obtain ⟨t, ht⟩ := List.length_eq_one_iff.1 htimelines
    exact ⟨stack, span, slot, shares, nameless, inside, by simp [Performance.timeline, timelineAt, ht]⟩

/-- only leaving the last cursor empties the stack -/
theorem Moves.emptied {p q : Performance} (m : Moves p q) (h : q.stack = []) :
    ∃ c, p.pending = [] ∧ p.stack = [c] ∧ (c.span.stop ≤ c.pos ∨ p.frames[c.pos]? = none) ∧ q = p.leave c [] := by
  cases m with
  | @left c below pending stack done =>
    obtain rfl : below = [] := h
    exact ⟨c, pending, stack, done, rfl⟩
  | directed | layered | unspliced | spliced | placed => cases h

/-- the turn that ends a performance is a move, because events are given while there are cursors -/
theorem Turns.before_end {n : Nat} {p q : Performance} {given : List Event} (run : Turns n p given q)
    (descending : Descending p) (going : p.turn ≠ .ended) (ended : q.turn = .ended) :
    ∃ k r, Turns k p given r ∧ Moves r q := by
  cases n with
  | zero =>
    cases run
    exact absurd ended going
  | succ n =>
    obtain ⟨before, r, run', ⟨rfl, last⟩ | ⟨e, _, last⟩⟩ := run.unsnoc
    · exact ⟨n, r, run', turn_moved_iff.1 last⟩
    · have hstack := (turn_ended_iff.1 ended).2
      obtain ⟨pending, _, rfl⟩ := turn_event_iff.1 last
      rcases descending.turns run' with hended | ⟨cs, b, hcursors, _⟩
      · rw [hended] at last
        cases last
      · rw [hcursors] at hstack
        simp at hstack

/-- before the turn that ends a performance of `F` its lowest cursor is alone and at the end of `F` -/
theorem turns_before_end {F : Array Frame} {song : Song} {timeline : Timeline}
    (succeeded : (start F song timeline).drain.error = none) :
    let played := (start F song timeline).drain
    ∃ n r c, Turns n (start F song timeline) played.events r ∧ r.turn = .moved played.final ∧ r.pending = [] ∧
      r.stack = [c] ∧ c.pos = F.size ∧ c.stage = .directives ∧ played.final = { r with stack := [] } := by
  intro played
  obtain ⟨n, _, run, ended⟩ := drain_succeeded succeeded
  have going : (start F song timeline).turn ≠ .ended := by
    rw [Ne, turn_ended_iff]
    rintro ⟨_, hstack⟩
    cases hstack
  obtain ⟨k, r, run', m⟩ := run.before_end (descending_start F song timeline) going ended
  obtain ⟨c, pending, stack, done, hfinal⟩ := m.emptied (turn_ended_iff.1 ended).2
  have alone := ((Seated.start F song timeline).turns run').alone stack
  have frames : r.frames = F := run'.kept.1
  have hpos : c.pos = r.frames.size := by
    refine le_antisymm alone.inside ?_
    rcases done with done | done
    · rwa [alone.span] at done
    · exact Array.getElem?_eq_none_iff.1 done
  have stage : c.stage = .directives := by
    by_contra working
    have hlt := (working_start F song timeline).turns run' c (by simp [stack]) working
    rw [alone.span, hpos] at hlt
    exact absurd hlt (lt_irrefl _)
  have hleave : r.leave c [] = { r with stack := [] } := by simp [leave, alone.shares]
  exact ⟨k, r, c, run', m.turn, pending, stack, by rw [hpos, frames], stage, hfinal.trans hleave⟩

/-- the longer performance `r` when the one of `F` has ended as `played`: its lowest cursor `b` is alone, at the first
frame of `G` -/
structure Halfway (F G : Array Frame) (played r : Performance) (b : Cursor) : Prop where
  stands : Stands r [] played.timeline b [] []
  frames : r.frames = F ++ G
  song : r.song = played.song
  procedures : r.procedures.cut F.size = played.procedures
  pos : b.pos = F.size
  stop : b.span.stop = G.size + F.size
  stage : b.stage = .directives
  shares : b.ownsSlot = false

/-- **The first half.** The longer performance gives the events of the one of `F` and is then at the first frame of
`G`. -/
theorem turns_halfway {F : Array Frame} (G : Array Frame) {song : Song} {timeline : Timeline}
    (succeeded : (start F song timeline).drain.error = none) :
    let played := (start F song timeline).drain
    ∃ n r b, Turns n (start (F ++ G) song timeline) played.events r ∧ Halfway F G played.final r b := by
  intro played
  obtain ⟨n, short, c, run, last, pending, stack, pos, stage, hfinal⟩ := turns_before_end succeeded
  change played.final = _ at hfinal
  obtain ⟨r, run', rfl, frames⟩ := turns_cut run (Abreast.start F G song timeline).same rfl
    (descending_start F song timeline) (by rw [last]; exact Turn.noConfusion)
  obtain ⟨b, hstack, rfl⟩ : ∃ b, r.stack = [b] ∧ b.cut F.size = c := by
    simpa [cut, List.map_eq_singleton_iff] using stack
  have alone := ((Seated.start (F ++ G) song timeline).turns run').alone hstack
  have htimeline : played.final.timeline = r.timeline := by
    rw [hfinal]
    rfl
  refine ⟨n, r, b, run', ⟨pending, hstack, ?_, alone.slot, ?_, rfl⟩, frames, ?_, ?_, pos, ?_, stage, alone.shares⟩
  · rw [htimeline, alone.timelines, List.nil_append]
  · simp [alone.nameless]
  · rw [hfinal]
    rfl
  · rw [hfinal]
    rfl
  · rw [alone.span, frames, Array.size_append, Nat.add_comm]

/-! ## The whole -/

/-- a performance that comes to a cursor of the whole sequence and follows a stretch from there has been performed -/
theorem drain_of_follows {frames : Array Frame} {song : Song} {timeline : Timeline} {n N : Nat} {r : Performance}
    {given : List Event} {stretch : Stretch} (run : Turns n (start frames song timeline) given r)
    (h : Follows N r [] stretch (fun t => [t]) []) :
    let played := (start frames song timeline).drain
    played.events = given ++ stretch.events ∧ played.error = stretch.error ∧
      played.final.song = stretch.song ∧ played.final.timeline = stretch.timeline := by
  intro played
  unfold Follows at h
  split at h
  · rename_i herror
    obtain ⟨m, _, rest⟩ := h
    have hplayed : played = _ :=
      drain_of_ended (run.trans rest) (turns_lt_bound (run.trans rest)) (turn_ended_iff.2 ⟨rfl, rfl⟩)
    rw [hplayed, herror]
    exact ⟨rfl, rfl, rfl, rfl⟩
  · rename_i e herror
    obtain ⟨q, extra, ⟨m, _, rest⟩, failed⟩ := h
    have hplayed : played = _ := drain_of_failed (run.trans rest) (turns_lt_bound (run.trans rest)) failed
    rw [hplayed, herror]
    exact ⟨rfl, rfl, rfl, rfl⟩

theorem follows_start (frames : Array Frame) (song : Song) (timeline : Timeline) :
    ∃ N, Follows N (start frames song timeline) [] (recital frames song timeline) (fun t => [t]) [] := by
  have stands : Stands (start frames song timeline) [] timeline (.start ⟨0, frames.size⟩ 0 false none) [] [] :=
    ⟨rfl, rfl, rfl, rfl, rfl, rfl⟩
  exact ⟨_, follows_recite frames [] 0 frames.size song timeline .empty (declarations frames) _ _ _ _ (room_start frames)
    stands rfl rfl rfl rfl rfl rfl⟩

/-- from the first frame of `G` on, the longer performance follows the recursion on `G` alone -/
theorem Halfway.follows {F G : Array Frame} {played r : Performance} {b : Cursor} (h : Halfway F G played r b)
    (fresh : ∀ frame ∈ G, ∀ name ∈ namesIn frame, played.procedures.get? name = none) :
    ∃ N, Follows N r [] ((recital G played.song played.timeline).behind F.size r.procedures) (fun t => [t]) [] := by
  have unknown : ∀ frame ∈ G, ∀ name ∈ namesIn frame, r.procedures.get? name = none := by
    intro frame hframe name hname
    have hcut := fresh frame hframe name hname
    rw [← h.procedures, Procedures.get?_cut] at hcut
    simpa using hcut
  have shift : recite (F ++ G) [] b.pos b.span.stop r.song played.timeline r.procedures =
      (recital G played.song played.timeline).behind F.size r.procedures := by
    have hshift := recite_behind (F := F) unknown [] 0 G.size r.song played.timeline .empty
    rw [Nat.zero_add] at hshift
    rw [h.pos, h.stop, ← h.song]
    exact hshift
  have follows := follows_recite (F ++ G) [] b.pos b.span.stop r.song played.timeline r.procedures
    (r.procedures.size + ((F ++ G).toList.drop b.pos).countP declares) r [] b [] (by simp [Room]) h.stands h.frames
    rfl rfl rfl rfl h.stage
  rw [shift, h.shares] at follows
  exact ⟨_, follows⟩

/-- **A long performance can be cut and resumed.** When the performance of `F` succeeds, and `G` neither declares nor
calls a procedure that it has registered, the one of `F ++ G` gives its events and then whatever a performance of `G`
gives that starts from its song and its timeline; and it leaves the same song and the same timeline as that one. -/
theorem drain_append {F G : Array Frame} {song : Song} {timeline : Timeline}
    (succeeded : (start F song timeline).drain.error = none)
    (fresh : ∀ frame ∈ G, ∀ name ∈ namesIn frame, (start F song timeline).drain.final.procedures.get? name = none) :
    let played := (start F song timeline).drain
    let resumed := (start G played.final.song played.final.timeline).drain
    let whole := (start (F ++ G) song timeline).drain
    whole.events = played.events ++ resumed.events ∧ whole.error = resumed.error ∧
      whole.final.song = resumed.final.song ∧ whole.final.timeline = resumed.final.timeline := by
  intro played resumed whole
  obtain ⟨n, r, b, run, half⟩ := turns_halfway G succeeded
  change Turns n _ played.events r at run
  change Halfway F G played.final r b at half
  obtain ⟨_, second⟩ := half.follows fresh
  obtain ⟨_, alone⟩ := follows_start G played.final.song played.final.timeline
  obtain ⟨events, error, song', timeline'⟩ := drain_of_follows run second
  obtain ⟨events₂, error₂, song₂, timeline₂⟩ := drain_of_follows (.none _) alone
  refine ⟨?_, error.trans error₂.symm, song'.trans song₂.symm, timeline'.trans timeline₂.symm⟩
  rw [List.nil_append] at events₂
  rw [events₂]
  exact events

/-- a procedure with a note, and a frame that splices it and changes the measure -/
def firstHalf : Array Frame :=
  #[⟨1, ⟨[("proc", "p"), ("bpm", "120")]⟩, [⟨1, 0, .red, none, .all⟩], []⟩,
    ⟨2, ⟨[("proc_ins", "p"), ("measure", "4"), ("frame_offset", "1")]⟩, [⟨2, 1, .blue, none, .all⟩], []⟩]

/-- a procedure that is layered behind silence, and one that reaches beyond the end and is called inside itself -/
def secondHalf : Array Frame :=
  #[⟨3, ⟨[("proc", "q,2")]⟩, [⟨0, 0, .red, none, .all⟩], []⟩, ⟨4, ⟨[("proc", "r,9")]⟩, [], []⟩,
    ⟨5, ⟨[("proc_add", "q"), ("intro_silence", "0.5")]⟩, [⟨3, 2, .bomb, none, .all⟩], []⟩,
    ⟨6, ⟨[("proc_ins", "r")]⟩, [], []⟩]

/-- the second half fails after five events, alone as well as behind the first -/
theorem halves_append :
    let played := (start firstHalf .blank .start).drain
    let resumed := (start secondHalf played.final.song played.final.timeline).drain
    let whole := (start (firstHalf ++ secondHalf) .blank .start).drain
    (whole.events = played.events ++ resumed.events ∧ whole.error = resumed.error ∧
      whole.final.song = resumed.final.song ∧ whole.final.timeline = resumed.final.timeline) ∧
      played.events.length = 3 ∧ whole.events.length = 8 ∧ whole.error.map (·.line) = some 6 := by
  have short : (start firstHalf .blank .start).drain.events.length = 3 := by decide +kernel
  have long : (start (firstHalf ++ secondHalf) .blank .start).drain.events.length = 8 := by decide +kernel
  have line : (start (firstHalf ++ secondHalf) .blank .start).drain.error.map (·.line) = some 6 := by decide +kernel
  exact ⟨drain_append (by decide +kernel) (by decide +kernel), short, long, line⟩

end Performance

end RhythmChart
