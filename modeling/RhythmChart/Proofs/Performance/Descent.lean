/-
Expansions go back in the sequence.

Frames call procedures that were declared at or before them. A body that a top-level visit performs to its end stops
at or before the calling frame (`Behind`): a body with the caller in it comes to the caller again, finds its own name
active, and the performance fails (`Circling`). Replayed frames are frames that the top level has already passed, so
what they call lies behind them in turn.

`Descends` says this of the whole stack: every body but the outermost stops at or before the frame that called it,
and so does the outermost unless it is circling. It holds when a performance starts and every move keeps it:
- `Descends.start`, `Descends.moves_outer`, `Descends.moves_inner`; along runs `Descending.turns`;
- `Descends.top_cases`: what it says of the innermost cursor, from which the rest follows.
-/
import Mathlib.Tactic
import RhythmChart.Proofs.Performance.Moves
import RhythmChart.Proofs.Performance.Passes

namespace RhythmChart.Performance

/-! ## Calls -/

/-- the procedure that a frame performs on a copy of its timeline -/
def layerOf (frame : Frame) : Option String := frame.directive? Directive.layer.key

/-- the procedure that a frame performs on its own timeline -/
def spliceOf (frame : Frame) : Option String := frame.directive? Directive.splice.key

/-- the called procedure, if there is one, has a body that stops at or before the frame at `pos` -/
def Behind (ps : Procedures) (pos : Nat) (called : Option String) : Prop :=
  ∀ name, called = some name → ∃ span, ps.get? name = some span ∧ span.stop ≤ pos

/-- every entry of a registry is in another one too -/
def Procedures.Extends (ps ps' : Procedures) : Prop := ∀ name span, ps.get? name = some span → ps'.get? name = some span

theorem Behind.none (ps : Procedures) (pos : Nat) : Behind ps pos none := by
  intro name h
  cases h

theorem Behind.mono {ps ps' : Procedures} {pos : Nat} {called : Option String} (h : Behind ps pos called)
    (hps : Procedures.Extends ps ps') : Behind ps' pos called := by
  intro name hname
  obtain ⟨span, found, hstop⟩ := h name hname
  exact ⟨span, hps _ _ found, hstop⟩

theorem get?_cons (ps : Procedures) (name name' : String) (span : Span) :
    Procedures.get? ⟨(name', span) :: ps.bodies⟩ name = if name = name' then some span else ps.get? name := by
  unfold Procedures.get?
  rw [List.lookup_cons]
  by_cases h : name = name'
  · simp [h]
  · have hne : (name == name') = false := by simpa using h
    simp [h, hne]

theorem declare_extends {site : Site} {ps ps' : Procedures} {frame : Frame} (h : declare site ps frame = .ok ps') :
    Procedures.Extends ps ps' := by
  intro name span found
  rcases declare_cases h with rfl | ⟨declaration, _, hnew, rfl⟩
  · exact found
  · rw [get?_cons]
    split
    · rename_i hname
      rw [hname, hnew] at found
      cases found
    · exact found

/-- a body that can be called starts at or before the frame that may have declared it last -/
theorem declare_start {site : Site} {ps ps' : Procedures} {frame : Frame} (h : declare site ps frame = .ok ps')
    (hps : ∀ name span, ps.get? name = some span → span.start ≤ site.pos) :
    ∀ name span, ps'.get? name = some span → span.start ≤ site.pos := by
  intro name span found
  rcases declare_cases h with rfl | ⟨declaration, _, _, rfl⟩
  · exact hps name span found
  · rw [get?_cons] at found
    split at found
    · cases found
      exact le_rfl
    · exact hps name span found

/-- the machine resolves a name that is registered and that no cursor performs -/
theorem resolve_ok {p : Performance} {name : String} {span : Span} (h : p.resolve name = .ok span) :
    (∀ c ∈ p.stack, c.procedure ≠ some name) ∧ p.procedures.get? name = some span := by
  unfold resolve Procedures.body at h
  split at h
  · cases h
  · rename_i hactive
    refine ⟨by simpa using hactive, ?_⟩
    split at h
    · rename_i found
      cases h
      exact found
    · cases h

/-! ## The invariant -/

/-- `e` performs a body that holds the frame `b` is at, and has not come past that frame -/
structure Circling (b e : Cursor) : Prop where
  holds : b.pos < e.span.stop
  reached : e.pos ≤ b.pos
  again : e.pos = b.pos → e.stage = .directives ∨ e.stage = .splice ∧ e.ownsSlot = false

/-- `e` performs what `b` calls at `frame` -/
inductive Entered (ps : Procedures) (frame : Frame) (b e : Cursor) : Prop where
  | layered (owns : e.ownsSlot = true) (stage : b.stage = .splice) (named : e.procedure = layerOf frame)
  | spliced (shares : e.ownsSlot = false) (stage : b.stage = .place) (named : e.procedure = spliceOf frame)
      (layer : Behind ps b.pos (layerOf frame))

/-- the calls that a visit of `frame` has done by the given stage are behind the frame -/
def Called (ps : Procedures) (frame : Frame) (pos : Nat) (stage : Stage) : Prop :=
  (stage ≠ .directives → Behind ps pos (layerOf frame)) ∧ (stage = .place → Behind ps pos (spliceOf frame))

/-- `b` is the cursor of the whole sequence, and what the frames before it call is behind them -/
structure Outermost (frames : Array Frame) (ps : Procedures) (b : Cursor) : Prop where
  nameless : b.procedure = none
  whole : b.span = ⟨0, frames.size⟩
  registered : ∀ name span, ps.get? name = some span → span.start ≤ b.pos
  passed : ∀ i frame, i < b.pos → frames[i]? = some frame → Called ps frame i .place
  marked : b.stage = .splice → ∀ frame, frames[b.pos]? = some frame → b.spliced = spliceOf frame

/-- the cursors `cs`, the innermost first, perform procedures above the cursor `b` of the whole sequence -/
structure Descends (frames : Array Frame) (ps : Procedures) (cs : List Cursor) (b : Cursor) : Prop
    extends Outermost frames ps b where
  named : ∀ c ∈ cs, ∃ name, c.procedure = some name ∧ ps.get? name = some c.span
  nested : cs.Pairwise fun c d => c.span.stop ≤ d.pos ∧ d.pos < d.span.stop
  noted : ∀ c ∈ cs, c.stage = .splice → ∀ frame, frames[c.pos]? = some frame → c.spliced = spliceOf frame
  idle : cs = [] → ∀ frame, frames[b.pos]? = some frame → Called ps frame b.pos b.stage
  entered : ∀ e, cs.getLast? = some e → (∃ frame, frames[b.pos]? = some frame ∧ Entered ps frame b e) ∧
    (e.span.stop ≤ b.pos ∨ Circling b e)

namespace Descends

variable {frames : Array Frame} {ps : Procedures} {cs : List Cursor} {b c : Cursor}

theorem start (frames : Array Frame) : Descends frames .empty [] (.start ⟨0, frames.size⟩ 0 false none) where
  nameless := rfl
  whole := rfl
  registered := by intro name span h; cases h
  passed := by intro i frame hi; cases hi
  marked := by intro hstage; cases hstage
  named := by intro c hc; cases hc
  nested := .nil
  noted := by intro c hc; cases hc
  idle := fun _ _ _ => ⟨fun h => absurd rfl h, fun h => by cases h⟩
  entered := by intro e he; cases he

/-- the frame that called the outermost body is in the sequence -/
theorem pos_lt (h : Descends frames ps (c :: cs) b) : b.pos < frames.size := by
  obtain ⟨e, he⟩ : ∃ e, (c :: cs).getLast? = some e := ⟨_, List.getLast?_eq_some_getLast (List.cons_ne_nil c cs)⟩
  obtain ⟨⟨frame, here, _⟩, _⟩ := h.entered e he
  exact (Array.getElem?_eq_some_iff.1 here).1

/-- **The innermost body** stops at or before the frame the top level is at, or it is the only one and circling. -/
theorem top_cases (h : Descends frames ps (c :: cs) b) : c.span.stop ≤ b.pos ∨ cs = [] ∧ Circling b c := by
  cases cs with
  | nil =>
    rcases (h.entered c rfl).2 with hstop | circling
    · exact .inl hstop
    · exact .inr ⟨rfl, circling⟩
  | cons d cs =>
    left
    obtain ⟨e, he⟩ : ∃ e, (d :: cs).getLast? = some e := ⟨_, List.getLast?_eq_some_getLast (List.cons_ne_nil d cs)⟩
    obtain ⟨hce, hinside⟩ := (List.pairwise_cons.1 h.nested).1 e (List.mem_of_getLast? he)
    rcases (h.entered e (by rw [List.getLast?_cons_cons]; exact he)).2 with hstop | circling
    · omega
    · have := circling.reached
      omega

/-- a body that is done does not hold the frame the top level is at -/
theorem stop_le_of_done (h : Descends frames ps (c :: cs) b) (done : c.span.stop ≤ c.pos ∨ frames[c.pos]? = none) :
    c.span.stop ≤ b.pos := by
  have hlt := h.pos_lt
  rcases h.top_cases with hstop | ⟨_, circling⟩
  · exact hstop
  · have hholds := circling.holds
    have hreached := circling.reached
    rcases done with done | done
    · omega
    · have := Array.getElem?_eq_none_iff.1 done
      omega

/-- a replayed frame is one the top level has passed, or the calling frame met again -/
theorem replayed (h : Descends frames ps (c :: cs) b) (inside : c.pos < c.span.stop) {frame : Frame}
    (here : frames[c.pos]? = some frame) :
    c.pos < b.pos ∧ Called ps frame c.pos .place ∨
      cs = [] ∧ c.pos = b.pos ∧ Circling b c ∧ Entered ps frame b c := by
  by_cases hlt : c.pos < b.pos
  · exact .inl ⟨hlt, h.passed _ _ hlt here⟩
  · right
    rcases h.top_cases with hstop | ⟨rfl, circling⟩
    · omega
    · have hpos : c.pos = b.pos := by have := circling.reached; omega
      obtain ⟨⟨frame', here', entered⟩, _⟩ := h.entered c rfl
      rw [← hpos, here] at here'
      cases here'
      exact ⟨rfl, hpos, circling, entered⟩

/-- a name whose body is behind the innermost cursor's frame is not being performed -/
theorem not_active (h : Descends frames ps (c :: cs) b) (inside : c.pos < c.span.stop) {name : String} {span : Span}
    (found : ps.get? name = some span) (hstop : span.stop ≤ c.pos) : ∀ d ∈ c :: cs ++ [b], d.procedure ≠ some name := by
  intro d hd hname
  rcases List.mem_append.1 hd with hd | hd
  · obtain ⟨name', hname', found'⟩ := h.named d hd
    rw [hname] at hname'
    cases hname'
    rw [found] at found'
    cases found'
    -- the cursors below are inside bodies that reach further
    rcases List.mem_cons.1 hd with rfl | hd
    · omega
    · obtain ⟨hcd, hinside⟩ := (List.pairwise_cons.1 h.nested).1 d hd
      omega
  · rw [List.mem_singleton] at hd
    rw [hd, h.nameless] at hname
    cases hname

/-! ## Moves inside a procedure -/

/-- the innermost cursor goes on in its body -/
theorem replace {c' : Cursor} (h : Descends frames ps (c :: cs) b) (hspan : c'.span = c.span)
    (hprocedure : c'.procedure = c.procedure) (howns : c'.ownsSlot = c.ownsSlot)
    (hnoted : c'.stage = .splice → ∀ frame, frames[c'.pos]? = some frame → c'.spliced = spliceOf frame)
    (hcircling : cs = [] → Circling b c → Circling b c') : Descends frames ps (c' :: cs) b where
  toOutermost := h.toOutermost
  named := by
    intro d hd
    rcases List.mem_cons.1 hd with rfl | hd
    · rw [hprocedure, hspan]
      exact h.named c List.mem_cons_self
    · exact h.named d (List.mem_cons_of_mem c hd)
  nested := by
    have hnested := List.pairwise_cons.1 h.nested
    refine List.pairwise_cons.2 ⟨fun d hd => ?_, hnested.2⟩
    rw [hspan]
    exact hnested.1 d hd
  noted := by
    intro d hd
    rcases List.mem_cons.1 hd with rfl | hd
    · exact hnoted
    · exact h.noted d (List.mem_cons_of_mem c hd)
  idle := by intro hnil; cases hnil
  entered := by
    intro e he
    cases cs with
    | nil =>
      rw [List.getLast?_singleton] at he
      cases he
      obtain ⟨⟨frame, here, entered⟩, hwhere⟩ := h.entered c rfl
      refine ⟨⟨frame, here, ?_⟩, ?_⟩
      · cases entered with
        | layered owns stage named => exact .layered (howns.trans owns) stage (hprocedure.trans named)
        | spliced shares stage named layer => exact .spliced (howns.trans shares) stage (hprocedure.trans named) layer
      · rw [hspan]
        exact hwhere.imp_right (hcircling rfl)
    | cons d cs => exact h.entered e (by rw [List.getLast?_cons_cons] at he ⊢; exact he)

/-- the innermost cursor calls a procedure whose body is behind its frame -/
theorem push (h : Descends frames ps (c :: cs) b) (inside : c.pos < c.span.stop) {name : String} {span : Span}
    (found : ps.get? name = some span) (hstop : span.stop ≤ c.pos) (slot : Nat) (owns : Bool) :
    Descends frames ps (.start span slot owns (some name) :: c :: cs) b where
  toOutermost := h.toOutermost
  named := by
    intro d hd
    rcases List.mem_cons.1 hd with rfl | hd
    · exact ⟨name, rfl, found⟩
    · exact h.named d hd
  nested := by
    refine List.pairwise_cons.2 ⟨fun d hd => ?_, h.nested⟩
    change span.stop ≤ d.pos ∧ d.pos < d.span.stop
    rcases List.mem_cons.1 hd with rfl | hd
    · exact ⟨hstop, inside⟩
    · obtain ⟨hcd, hinside⟩ := (List.pairwise_cons.1 h.nested).1 d hd
      exact ⟨by omega, hinside⟩
  noted := by
    intro d hd hstage
    rcases List.mem_cons.1 hd with rfl | hd
    · cases hstage
    · exact h.noted d hd hstage
  idle := by intro hnil; cases hnil
  entered := by
    intro e he
    rw [List.getLast?_cons_cons] at he
    exact h.entered e he

/-- the innermost cursor leaves its body -/
theorem pop (h : Descends frames ps (c :: cs) b) (hstop : c.span.stop ≤ b.pos) : Descends frames ps cs b where
  toOutermost := h.toOutermost
  named := fun d hd => h.named d (List.mem_cons_of_mem c hd)
  nested := (List.pairwise_cons.1 h.nested).2
  noted := fun d hd => h.noted d (List.mem_cons_of_mem c hd)
  idle := by
    rintro rfl frame here
    obtain ⟨⟨frame', here', entered⟩, _⟩ := h.entered c rfl
    rw [here] at here'
    cases here'
    obtain ⟨name, hname, found⟩ := h.named c List.mem_cons_self
    have hbehind : Behind ps b.pos c.procedure := by
      intro name' hname'
      rw [hname] at hname'
      cases hname'
      exact ⟨_, found, hstop⟩
    cases entered with
    | layered owns stage named =>
      rw [named] at hbehind
      exact ⟨fun _ => hbehind, fun hplace => by rw [stage] at hplace; cases hplace⟩
    | spliced shares stage named layer =>
      rw [named] at hbehind
      exact ⟨fun _ => layer, fun _ => hbehind⟩
  entered := by
    intro e he
    cases cs with
    | nil => cases he
    | cons d cs => exact h.entered e (by rw [List.getLast?_cons_cons]; exact he)

/-- unless it is the layered procedure of the frame met again, what a replayed frame layers is behind it -/
theorem layer_behind (h : Descends frames ps (c :: cs) b) (inside : c.pos < c.span.stop) {frame : Frame}
    (here : frames[c.pos]? = some frame) (hself : c.procedure ≠ layerOf frame) :
    Behind ps c.pos (layerOf frame) ∧ (c.pos = b.pos → c.ownsSlot = false) := by
  rcases h.replayed inside here with ⟨hlt, called⟩ | ⟨_, hpos, _, entered⟩
  · exact ⟨called.1 (by simp), fun hpos => by omega⟩
  · cases entered with
    | layered owns stage named => exact absurd named hself
    | spliced shares stage named layer =>
      rw [hpos]
      exact ⟨layer, fun _ => shares⟩

/-- unless it is the spliced procedure of the frame met again, what a replayed frame splices is behind it -/
theorem splice_behind (h : Descends frames ps (c :: cs) b) (inside : c.pos < c.span.stop) {frame : Frame}
    (here : frames[c.pos]? = some frame) (stage : c.stage = .splice) (hself : c.procedure ≠ spliceOf frame) :
    Behind ps c.pos (spliceOf frame) ∧ c.pos < b.pos := by
  rcases h.replayed inside here with ⟨hlt, called⟩ | ⟨_, hpos, circling, entered⟩
  · exact ⟨called.2 rfl, hlt⟩
  · rcases circling.again hpos with hstage | ⟨_, hshares⟩
    · rw [stage] at hstage
      cases hstage
    · cases entered with
      | layered owns stage named =>
        rw [owns] at hshares
        cases hshares
      | spliced shares stage named layer => exact absurd named hself

/-- the innermost cursor has applied its directives -/
theorem directed (h : Descends frames ps (c :: cs) b) (inside : c.pos < c.span.stop) {frame : Frame}
    (here : frames[c.pos]? = some frame) {pass : Pass} (hspliced : pass.spliced = spliceOf frame)
    (hself : c.procedure ≠ layerOf frame) : Descends frames ps (c.directed pass :: cs) b := by
  refine h.replace rfl rfl rfl ?_ ?_
  · intro _ frame' here'
    change frames[c.pos]? = some frame' at here'
    rw [here] at here'
    cases here'
    exact hspliced
  · intro _ circling
    exact ⟨circling.holds, circling.reached, fun hpos => .inr ⟨rfl, (h.layer_behind inside here hself).2 hpos⟩⟩

/-- the innermost cursor has dealt with its spliced procedure -/
theorem placing (h : Descends frames ps (c :: cs) b) (hlt : c.pos < b.pos) : Descends frames ps (c.placing :: cs) b := by
  refine h.replace rfl rfl rfl (fun hstage => by cases hstage) ?_
  intro _ circling
  exact ⟨circling.holds, circling.reached, fun hpos => by change c.pos = b.pos at hpos; omega⟩

/-- the innermost cursor goes to its next frame -/
theorem advanced (h : Descends frames ps (c :: cs) b) (hlt : c.pos < b.pos) :
    Descends frames ps (c.advanced :: cs) b := by
  refine h.replace rfl rfl rfl (fun hstage => by cases hstage) ?_
  intro _ circling
  exact ⟨circling.holds, by change c.pos + 1 ≤ b.pos; omega, fun _ => .inl rfl⟩

end Descends

/-- inside a procedure a directive pass leaves the registry and takes the calls from the frame -/
theorem passAt_inner {p : Performance} {c : Cursor} {below : List Cursor} {frame : Frame} {pass : Pass}
    (h : p.passAt c below frame = (pass, none)) (hbelow : below ≠ []) :
    pass.procedures = p.procedures ∧ pass.layered = layerOf frame ∧ pass.spliced = spliceOf frame := by
  have hinner : below.isEmpty = false := by simpa using hbelow
  unfold passAt at h
  rw [hinner] at h
  obtain ⟨_, _, hlayered, hspliced, _⟩ := run_order_passed h
  exact ⟨run_order_inner h, hlayered, hspliced⟩

/-- **A move inside a procedure.** The cursor of the whole sequence and the registry stay as they are. -/
theorem Descends.moves_inner {p q : Performance} {c : Cursor} {cs : List Cursor} {b : Cursor}
    (h : Descends p.frames p.procedures (c :: cs) b) (hstack : p.stack = c :: cs ++ [b]) (m : Moves p q) :
    q.procedures = p.procedures ∧ ∃ cs', q.stack = cs' ++ [b] ∧ Descends p.frames p.procedures cs' b := by
  have hbelow : cs ++ [b] ≠ [] := by simp
  have hmem : ∀ {c' : Cursor} {name : String} {r : Performance} {span : Span}, r.stack = c' :: (cs ++ [b]) →
      r.resolve name = .ok span → c'.procedure ≠ some name ∧ r.procedures.get? name = some span := by
    intro c' name r span hr hresolved
    obtain ⟨hactive, found⟩ := resolve_ok hresolved
    exact ⟨hactive c' (by rw [hr]; exact List.mem_cons_self), found⟩
  cases m with
  | left pending stack done =>
    obtain ⟨rfl, rfl⟩ := List.cons.inj (hstack.symm.trans stack)
    exact ⟨rfl, cs, rfl, h.pop (h.stop_le_of_done done)⟩
  | @directed _ _ frame pass here stage passed layered =>
    obtain ⟨rfl, rfl⟩ := List.cons.inj (hstack.symm.trans here.stack)
    obtain ⟨hps, hlayered, hspliced⟩ := passAt_inner passed hbelow
    obtain ⟨name, hname, _⟩ := h.named _ List.mem_cons_self
    have hself : c.procedure ≠ layerOf frame := by
      rw [← hlayered, layered, hname]
      simp
    exact ⟨hps, _ :: cs, rfl, h.directed here.inside here.frame hspliced hself⟩
  | @layered _ _ frame pass name span here stage passed layered resolved =>
    obtain ⟨rfl, rfl⟩ := List.cons.inj (hstack.symm.trans here.stack)
    obtain ⟨hps, hlayered, hspliced⟩ := passAt_inner passed hbelow
    obtain ⟨hother, found⟩ := hmem rfl resolved
    have hself : c.procedure ≠ layerOf frame := by
      rw [← hlayered, layered]
      exact hother
    have found' : p.procedures.get? name = some span := hps ▸ found
    obtain ⟨span', found'', hstop⟩ := (h.layer_behind here.inside here.frame hself).1 _ (hlayered.symm.trans layered)
    rw [found'] at found''
    cases found''
    exact ⟨hps, _ :: _ :: cs, rfl, (h.directed here.inside here.frame hspliced hself).push here.inside found' hstop _ _⟩
  | @unspliced _ _ frame here stage spliced =>
    obtain ⟨rfl, rfl⟩ := List.cons.inj (hstack.symm.trans here.stack)
    have hnoted := h.noted _ List.mem_cons_self stage _ here.frame
    obtain ⟨name, hname, _⟩ := h.named _ List.mem_cons_self
    have hself : c.procedure ≠ spliceOf frame := by
      rw [← hnoted, spliced, hname]
      simp
    exact ⟨rfl, _ :: cs, rfl, h.placing (h.splice_behind here.inside here.frame stage hself).2⟩
  | @spliced _ _ frame name span here stage spliced resolved =>
    obtain ⟨rfl, rfl⟩ := List.cons.inj (hstack.symm.trans here.stack)
    have hnoted := h.noted _ List.mem_cons_self stage _ here.frame
    obtain ⟨hother, found⟩ := hmem rfl resolved
    have hself : c.procedure ≠ spliceOf frame := by
      rw [← hnoted, spliced]
      exact hother
    obtain ⟨hbehind, hlt⟩ := h.splice_behind here.inside here.frame stage hself
    obtain ⟨span', found', hstop⟩ := hbehind _ (hnoted.symm.trans spliced)
    change p.procedures.get? name = some span at found
    rw [found] at found'
    cases found'
    exact ⟨rfl, _ :: _ :: cs, rfl, (h.placing hlt).push here.inside found hstop _ _⟩
  | @placed _ _ frame here stage =>
    obtain ⟨rfl, rfl⟩ := List.cons.inj (hstack.symm.trans here.stack)
    refine ⟨rfl, _ :: cs, rfl, h.advanced ?_⟩
    rcases h.replayed here.inside here.frame with ⟨hlt, _⟩ | ⟨_, hpos, circling, _⟩
    · exact hlt
    · rcases circling.again hpos with hstage | ⟨hstage, _⟩ <;> rw [stage] at hstage <;> cases hstage

/-! ## Moves at the top level -/

section Outer

variable {frames : Array Frame} {ps : Procedures} {b : Cursor} {frame : Frame}

/-- nothing is being performed but the whole sequence -/
theorem Outermost.alone (h : Outermost frames ps b)
    (idle : ∀ frame, frames[b.pos]? = some frame → Called ps frame b.pos b.stage) : Descends frames ps [] b where
  toOutermost := h
  named := by intro c hc; cases hc
  nested := .nil
  noted := by intro c hc; cases hc
  idle := fun _ => idle
  entered := by intro e he; cases he

/-- the frame the top level is at calls a procedure -/
theorem Outermost.enter (h : Outermost frames ps b) (here : frames[b.pos]? = some frame) {name : String} {span : Span}
    {slot : Nat} {owns : Bool} (found : ps.get? name = some span)
    (entered : Entered ps frame b (.start span slot owns (some name))) :
    Descends frames ps [.start span slot owns (some name)] b where
  toOutermost := h
  named := by
    intro c hc
    rw [List.mem_singleton] at hc
    rw [hc]
    exact ⟨name, rfl, found⟩
  nested := List.pairwise_singleton _ _
  noted := by
    intro c hc hstage
    rw [List.mem_singleton] at hc
    rw [hc] at hstage
    cases hstage
  idle := by intro hnil; cases hnil
  entered := by
    intro e he
    rw [List.getLast?_singleton] at he
    cases he
    refine ⟨⟨frame, here, entered⟩, ?_⟩
    have hstart := h.registered name span found
    by_cases hstop : span.stop ≤ b.pos
    · exact .inl hstop
    · exact .inr ⟨Nat.not_le.1 hstop, hstart, fun _ => .inl rfl⟩

/-- the directives of the frame the top level is at went through -/
theorem Outermost.directed (h : Outermost frames ps b) (here : frames[b.pos]? = some frame) {pass : Pass} {count : Nat}
    {topLevel : Bool} (declared : declare ⟨b.pos, count, topLevel⟩ ps frame = .ok pass.procedures)
    (hspliced : pass.spliced = spliceOf frame) : Outermost frames pass.procedures (b.directed pass) where
  nameless := h.nameless
  whole := h.whole
  registered := declare_start declared h.registered
  passed := by
    intro i frame' hi here'
    obtain ⟨hlayer, hsplice⟩ := h.passed i frame' hi here'
    exact ⟨fun hs => (hlayer hs).mono (declare_extends declared), fun hs => (hsplice hs).mono (declare_extends declared)⟩
  marked := by
    intro _ frame' here'
    change frames[b.pos]? = some frame' at here'
    rw [here] at here'
    cases here'
    exact hspliced

theorem Outermost.placing (h : Outermost frames ps b) : Outermost frames ps b.placing :=
  ⟨h.nameless, h.whole, h.registered, h.passed, fun hstage => by cases hstage⟩

/-- the top level passes a frame whose calls are behind it -/
theorem Outermost.advanced (h : Outermost frames ps b) (here : frames[b.pos]? = some frame)
    (called : Called ps frame b.pos .place) : Outermost frames ps b.advanced where
  nameless := h.nameless
  whole := h.whole
  registered := fun name span found => (h.registered name span found).trans (Nat.le_succ b.pos)
  passed := by
    intro i frame' hi here'
    rcases Nat.lt_succ_iff_lt_or_eq.1 hi with hlt | rfl
    · exact h.passed i frame' hlt here'
    · rw [here] at here'
      cases here'
      exact called
  marked := by intro hstage; cases hstage

end Outer

/-- **A move at the top level.** -/
theorem Descends.moves_outer {p q : Performance} {b : Cursor} (h : Descends p.frames p.procedures [] b)
    (hstack : p.stack = [b]) (m : Moves p q) :
    q.turn = .ended ∨ ∃ cs b', q.stack = cs ++ [b'] ∧ Descends p.frames q.procedures cs b' := by
  cases m with
  | left pending stack done =>
    obtain ⟨rfl, rfl⟩ := List.cons.inj (hstack.symm.trans stack)
    exact .inl (turn_ended_iff.2 ⟨pending, rfl⟩)
  | @directed _ _ frame pass here stage passed layered =>
    obtain ⟨rfl, rfl⟩ := List.cons.inj (hstack.symm.trans here.stack)
    obtain ⟨_, declared, hlayered, hspliced, _⟩ := run_order_passed passed
    refine .inr ⟨[], _, rfl, (h.toOutermost.directed here.frame declared hspliced).alone ?_⟩
    intro frame' here'
    change p.frames[b.pos]? = some frame' at here'
    rw [here.frame] at here'
    cases here'
    refine ⟨fun _ => ?_, fun hstage => by cases hstage⟩
    change Behind pass.procedures b.pos (frame.directive? Directive.layer.key)
    rw [← hlayered, layered]
    exact .none _ _
  | @layered _ _ frame pass name span here stage passed layered resolved =>
    obtain ⟨rfl, rfl⟩ := List.cons.inj (hstack.symm.trans here.stack)
    obtain ⟨_, declared, hlayered, hspliced, _⟩ := run_order_passed passed
    refine .inr ⟨[_], _, rfl, (h.toOutermost.directed here.frame declared hspliced).enter here.frame
      (resolve_ok resolved).2 (.layered rfl rfl ?_)⟩
    exact layered.symm.trans hlayered
  | @unspliced _ _ frame here stage spliced =>
    obtain ⟨rfl, rfl⟩ := List.cons.inj (hstack.symm.trans here.stack)
    refine .inr ⟨[], _, rfl, h.toOutermost.placing.alone ?_⟩
    intro frame' here'
    refine ⟨fun _ => (h.idle rfl frame' here').1 (by rw [stage]; simp), fun _ => ?_⟩
    rw [← h.marked stage frame' here', spliced]
    exact .none _ _
  | @spliced _ _ frame name span here stage spliced resolved =>
    obtain ⟨rfl, rfl⟩ := List.cons.inj (hstack.symm.trans here.stack)
    refine .inr ⟨[_], _, rfl, h.toOutermost.placing.enter here.frame (resolve_ok resolved).2 (.spliced rfl rfl ?_ ?_)⟩
    · exact spliced.symm.trans (h.marked stage frame here.frame)
    · exact (h.idle rfl frame here.frame).1 (by rw [stage]; simp)
  | @placed _ _ frame here stage =>
    obtain ⟨rfl, rfl⟩ := List.cons.inj (hstack.symm.trans here.stack)
    refine .inr ⟨[], _, rfl, (h.toOutermost.advanced here.frame ?_).alone ?_⟩
    · rw [← stage]
      exact h.idle rfl frame here.frame
    · intro frame' _
      exact ⟨fun hstage => absurd rfl hstage, fun hstage => by cases hstage⟩

/-! ## Whole runs -/

/-- nothing is left to perform, or the stack descends -/
def Descending (p : Performance) : Prop :=
  p.turn = .ended ∨ ∃ cs b, p.stack = cs ++ [b] ∧ Descends p.frames p.procedures cs b

theorem Descending.moves {p q : Performance} (h : Descending p) (m : Moves p q) : Descending q := by
  rcases h with hended | ⟨cs, b, hstack, h⟩
  · rw [m.turn] at hended
    cases hended
  · unfold Descending
    rw [m.kept.1]
    cases cs with
    | nil => exact h.moves_outer hstack m
    | cons c cs =>
      obtain ⟨hps, cs', hstack', h'⟩ := h.moves_inner hstack m
      rw [hps]
      exact .inr ⟨cs', b, hstack', h'⟩

/-- **Every state of a run descends.** -/
theorem Descending.turns {n : Nat} {p q : Performance} {given : List Event} (run : Turns n p given q)
    (h : Descending p) : Descending q := by
  induction run with
  | none p => exact h
  | moved first _ ih => exact ih (h.moves (turn_moved_iff.1 first))
  | event first _ ih =>
    refine ih ?_
    rcases h with hended | h
    · rw [hended] at first
      cases first
    · obtain ⟨rest, _, rfl⟩ := turn_event_iff.1 first
      exact .inr h

theorem descending_start (frames : Array Frame) (song : Song) (timeline : Timeline) :
    Descending (start frames song timeline) :=
  .inr ⟨[], _, rfl, .start frames⟩

end RhythmChart.Performance
