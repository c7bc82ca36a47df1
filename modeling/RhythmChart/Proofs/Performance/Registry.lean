/-
The registry mirrors the declarations that the top level has passed.

A frame declares a procedure when the top level visits it and its directives get past the declaration (`Declares`).
Every turn of a performance either makes such a declaration, of a name that is new, or leaves the registry as it is
(`Standing.registers`). So along a course a name is registered exactly when one of its turns has declared it, by one
frame only (`Recorded`), and the frames that have declared are those that the top level has seen (`Course.surveyed`).

Main result: `registry_mirrors`.
-/
import Mathlib.Tactic
import RhythmChart.Proofs.Performance.History

namespace RhythmChart

theorem Text.readNatural_le {most n : Nat} {cs : List Char} (h : readNatural most cs = some n) : n ≤ most := by
  unfold readNatural at h
  simpa using (Option.filter_eq_some_iff.1 h).2

theorem Declaration.length_le {raw : String} {d : Declaration} (h : Declaration.read raw = .ok d) :
    d.length ≤ Text.most64 := by
  unfold Declaration.read at h
  simp only at h
  split at h
  · have one : 1 ≤ Text.most64 := by decide
    cases h
    exact one
  · split at h
    · rename_i length hlength
      cases h
      exact Text.readNatural_le hlength
    · cases h

namespace Performance

/-! ## Passes and the registry -/

/-- the calls of a frame never fail and define nothing -/
theorem run_opening (site : Site) (frame : Frame) (p : Pass) :
    (Pass.run site frame Rehearsal.opening p).2 = (Pass.run site frame Directive.order p).2 := by
  have order : Directive.order = Rehearsal.opening ++ [.layer, .splice] := rfl
  rw [order, run_append]
  rcases Pass.run site frame Rehearsal.opening p with ⟨q, fault | fault⟩
  · simp only [Pass.run]
    cases frame.directive? Directive.layer.key <;> cases frame.directive? Directive.splice.key <;> rfl
  · rfl

/-- a declaration at the top level that succeeds is of a new name -/
theorem declare_defined {site : Site} {ps ps' : Procedures} {frame : Frame} {raw : String}
    (topLevel : site.topLevel = true) (declared : frame.directive? Directive.define.key = some raw)
    (h : declare site ps frame = .ok ps') :
    ∃ d, Declaration.read raw = .ok d ∧ ps.get? d.name = none ∧
      ps' = ⟨(d.name, d.body site.pos site.count) :: ps.bodies⟩ := by
  simp only [declare, declared, topLevel, if_true] at h
  split at h
  · cases h
  · rename_i d read
    unfold Procedures.define at h
    split at h
    · cases h
    · rename_i new
      cases h
      exact ⟨d, read, by simpa using new, rfl⟩

theorem Pass.number_ne_duplicate {d : Directive} {raw name : String} :
    Pass.number d raw ≠ .error (.duplicateProcedure name) := by
  unfold Pass.number
  split <;> simp

/-- only a declaration fails because of a registered name, and its name is registered -/
theorem apply_duplicate {site : Site} {p : Pass} {d : Directive} {raw name : String}
    (h : p.apply site d raw = .error (.duplicateProcedure name)) : (p.procedures.get? name).isSome := by
  cases d with
  | audioFile | title | subtitle | author | layer | splice => cases h
  | setTime | tempo | audioOffset | offset | frameOffset =>
    rcases bind_eq_error_iff.1 h with number | ⟨x, -, h⟩
    · exact absurd number Pass.number_ne_duplicate
    · cases h
  | leadIn | measure =>
    rcases bind_eq_error_iff.1 h with number | ⟨x, -, h⟩
    · exact absurd number Pass.number_ne_duplicate
    · split at h <;> cases h
  | define =>
    simp only [Pass.apply] at h
    split at h
    · rcases bind_eq_error_iff.1 h with read | ⟨d, -, h⟩
      · unfold Declaration.read at read
        simp only at read
        split at read
        · cases read
        · split at read <;> cases read
      · rcases bind_eq_error_iff.1 h with defined | ⟨_, -, h⟩
        · unfold Procedures.define at defined
          split at defined
          · rename_i registered
            cases defined
            exact registered
          · cases defined
        · cases h
    · cases h

theorem run_duplicate {site : Site} {frame : Frame} {ds : List Directive} {p q : Pass} {name : String}
    (h : Pass.run site frame ds p = (q, some (.duplicateProcedure name))) : (q.procedures.get? name).isSome := by
  induction ds generalizing p with
  | nil => cases h
  | cons d ds ih =>
    simp only [Pass.run] at h
    split at h
    · exact ih h
    · split at h
      · exact ih h
      · rename_i applied
        cases h
        exact apply_duplicate applied

/-! ## Declarations of a performance -/

/-- the turn of `q` applies the directives of frame `s` at the top level and gets past its declaration `d` -/
inductive Declares (q : Performance) (s : Nat) (d : Declaration) : Prop where
  | past {c : Cursor} {frame : Frame} {raw : String} (directs : Directs q c [] frame) (pos : c.pos = s)
      (declared : frame.directive? Directive.define.key = some raw) (read : Declaration.read raw = .ok d)
      (passed : (Pass.run ⟨c.pos, q.frames.size, true⟩ frame Rehearsal.opening
        (.start q.song (q.timelineAt c.slot) q.procedures)).2 = none)

theorem Declares.unique {q : Performance} {s s' : Nat} {d d' : Declaration} (h : Declares q s d)
    (h' : Declares q s' d') : s' = s ∧ d' = d := by
  cases h with
  | past directs pos declared read =>
    cases h' with
    | past directs' pos' declared' read' =>
      obtain ⟨rfl, -, rfl⟩ := directs.toAt.unique directs'.toAt
      rw [declared] at declared'
      cases declared'
      rw [read] at read'
      cases read'
      exact ⟨pos'.symm.trans pos, rfl⟩

theorem Declares.lt {q : Performance} {s : Nat} {d : Declaration} (h : Declares q s d) : s < q.frames.size := by
  cases h with
  | past directs pos => exact pos ▸ directs.toAt.pos_lt

theorem Declares.length_le {q : Performance} {s : Nat} {d : Declaration} (h : Declares q s d) :
    d.length ≤ Text.most64 := by
  cases h with
  | past _ _ _ read => exact Declaration.length_le read

/-- **A turn and the registry.** It makes a declaration, of a new name, or it registers nothing. -/
theorem Standing.registers {frames : Array Frame} {song : Song} {p q : Performance} (h : Standing frames song p)
    (next : p.turn.after? = some q) :
    (∃ s d, Declares p s d ∧ p.procedures.get? d.name = none ∧
        q.procedures = ⟨(d.name, ⟨s, min (s + d.length) frames.size⟩) :: p.procedures.bodies⟩) ∨
      (∀ s d, ¬Declares p s d) ∧ q.procedures = p.procedures := by
  cases h.seated.effect next with
  | other unvisited _ procedures =>
    refine .inr ⟨fun s d declares => ?_, procedures⟩
    cases declares with
    | past directs => exact visited_eq_none_iff.1 unvisited _ _ _ directs
  | @visit c below frame pass fault directs made _ procedures =>
    by_cases outer : below = []
    · subst outer
      have made' : Pass.run ⟨c.pos, p.frames.size, true⟩ frame Directive.order
        (.start p.song (p.timelineAt c.slot) p.procedures) = (pass, fault) := made
      cases fault with
      | none =>
        have declared := (run_order_passed made').2.1
        cases present : frame.directive? Directive.define.key with
        | none =>
          refine .inr ⟨fun s d declares => ?_, ?_⟩
          · cases declares with
            | past directs' _ present' =>
              obtain ⟨rfl, -, rfl⟩ := directs.toAt.unique directs'.toAt
              rw [present] at present'
              cases present'
          · rw [declare, present] at declared
            exact procedures.trans (Except.ok.inj declared).symm
        | some raw =>
          obtain ⟨d, read, new, hps⟩ := declare_defined rfl present declared
          have passed := (run_opening ⟨c.pos, p.frames.size, true⟩ frame _).trans (congrArg Prod.snd made')
          refine .inl ⟨c.pos, d, .past directs rfl present read passed, new, ?_⟩
          rw [procedures, hps, Declaration.body_of_lt d directs.toAt.pos_lt, h.frames]
      | some fault =>
        refine .inr ⟨fun s d declares => ?_, ?_⟩
        · cases declares with
          | past directs' _ _ _ passed =>
            obtain ⟨rfl, -, rfl⟩ := directs.toAt.unique directs'.toAt
            rw [run_opening, made'] at passed
            cases passed
        · rw [procedures, (run_order_refused made').1]
          rfl
    · obtain ⟨-, kept⟩ := h.rehearses.replayed directs outer
      refine .inr ⟨fun s d declares => ?_, ?_⟩
      · cases declares with
        | past directs' =>
          obtain ⟨-, rfl, -⟩ := directs.toAt.unique directs'.toAt
          exact outer rfl
      · rw [made] at kept
        exact procedures.trans kept

/-! ## Courses -/

/-- a history has declared the procedures of a registry, each by one frame -/
structure Recorded (frames : Array Frame) (history : List Performance) (ps : Procedures) : Prop where
  registered : ∀ name span, ps.get? name = some span ↔
    ∃ q ∈ history, ∃ s d, Declares q s d ∧ d.name = name ∧ span = ⟨s, min (s + d.length) frames.size⟩
  once : ∀ q ∈ history, ∀ q' ∈ history, ∀ s s' d d', Declares q s d → Declares q' s' d' → d.name = d'.name →
    s = s' ∧ d = d'

theorem Recorded.start (frames : Array Frame) : Recorded frames [] .empty where
  registered := by
    intro name span
    constructor
    · intro h
      cases h
    · rintro ⟨q, hq, -⟩
      cases hq
  once := by
    intro q hq
    cases hq

/-- a turn without a declaration -/
theorem Recorded.idle {frames : Array Frame} {history : List Performance} {ps : Procedures} {p : Performance}
    (h : Recorded frames history ps) (none : ∀ s d, ¬Declares p s d) : Recorded frames (history ++ [p]) ps where
  registered := by
    intro name span
    rw [h.registered]
    simp [or_and_right, exists_or, none]
  once := by
    intro q hq q' hq' s s' d d' declares declares'
    rcases List.mem_append.1 hq with hq | hq
    · rcases List.mem_append.1 hq' with hq' | hq'
      · exact h.once q hq q' hq' s s' d d' declares declares'
      · rw [List.mem_singleton.1 hq'] at declares'
        exact absurd declares' (none s' d')
    · rw [List.mem_singleton.1 hq] at declares
      exact absurd declares (none s d)

/-- a turn that declares a new name -/
theorem Recorded.declared {frames : Array Frame} {history : List Performance} {ps : Procedures} {p : Performance}
    {s : Nat} {d : Declaration} (h : Recorded frames history ps) (declares : Declares p s d)
    (new : ps.get? d.name = none) :
    Recorded frames (history ++ [p]) ⟨(d.name, ⟨s, min (s + d.length) frames.size⟩) :: ps.bodies⟩ where
  registered := by
    intro name span
    rw [get?_cons]
    constructor
    · intro found
      split at found
      · rename_i hname
        cases found
        exact ⟨p, List.mem_append_right _ (List.mem_singleton_self p), s, d, declares, hname.symm, rfl⟩
      · obtain ⟨q, hq, found⟩ := (h.registered name span).1 found
        exact ⟨q, List.mem_append_left _ hq, found⟩
    · rintro ⟨q, hq, s', d', declares', hname, rfl⟩
      rcases List.mem_append.1 hq with hq | hq
      · have found := (h.registered name _).2 ⟨q, hq, s', d', declares', hname, rfl⟩
        split
        · rename_i same
          rw [same, new] at found
          cases found
        · exact found
      · rw [List.mem_singleton.1 hq] at declares'
        obtain ⟨rfl, rfl⟩ := declares.unique declares'
        rw [if_pos hname.symm]
  once := by
    have fresh : ∀ q ∈ history, ∀ s' d', Declares q s' d' → d'.name ≠ d.name := by
      intro q hq s' d' declares' same
      have found := (h.registered d.name _).2 ⟨q, hq, s', d', declares', same, rfl⟩
      rw [new] at found
      cases found
    intro q hq q' hq' s₁ s₂ d₁ d₂ declares₁ declares₂ same
    rcases List.mem_append.1 hq with hq | hq <;> rcases List.mem_append.1 hq' with hq' | hq'
    · exact h.once q hq q' hq' s₁ s₂ d₁ d₂ declares₁ declares₂ same
    · rw [List.mem_singleton.1 hq'] at declares₂
      obtain ⟨-, rfl⟩ := declares.unique declares₂
      exact absurd same (fresh q hq s₁ d₁ declares₁)
    · rw [List.mem_singleton.1 hq] at declares₁
      obtain ⟨-, rfl⟩ := declares.unique declares₁
      exact absurd same.symm (fresh q' hq' s₂ d₂ declares₂)
    · rw [List.mem_singleton.1 hq] at declares₁
      rw [List.mem_singleton.1 hq'] at declares₂
      obtain ⟨rfl, rfl⟩ := declares₁.unique declares₂
      exact ⟨rfl, rfl⟩

section Courses

variable {frames : Array Frame} {song : Song} {timeline : Timeline} {history : List Performance} {p q : Performance}

/-- **A course records its declarations.** -/
theorem Course.recorded (run : Course (start frames song timeline) history p) : Recorded frames history p.procedures := by
  induction run with
  | here => exact .start frames
  | @turn history q r run next ih =>
    rcases (run.reaches.standing (Turn.going next)).registers next with
      ⟨s, d, declares, new, procedures⟩ | ⟨none, procedures⟩
    · rw [procedures]
      exact ih.declared declares new
    · rw [procedures]
      exact ih.idle none

/-- what is registered stays registered -/
theorem Course.extends {more : List Performance} (reached : Reaches (start frames song timeline) p)
    (run : Course p more q) : Procedures.Extends p.procedures q.procedures := by
  induction run with
  | here => exact fun _ _ found => found
  | @turn more q r run next ih =>
    intro name span found
    rcases ((reached.trans run.reaches).standing (Turn.going next)).registers next with
      ⟨s, d, -, new, procedures⟩ | ⟨-, procedures⟩
    · rw [procedures, get?_cons]
      split
      · rename_i same
        have found := ih name span found
        rw [same, new] at found
        cases found
      · exact ih name span found
    · rw [procedures]
      exact ih name span found

theorem Moves.nonempty (m : Moves p q) : p.stack ≠ [] := by
  cases m with
  | left _ stack => simp [stack]
  | directed here | layered here | unspliced here | spliced here | placed here => simp [here.stack]

/-- the declarations of a history are those of the frames that the top level has seen -/
structure Surveyed (frames : Array Frame) (history : List Performance) (p : Performance) : Prop where
  before : ∀ q ∈ history, ∀ s d, Declares q s d → s < p.seen
  registered : ∀ s frame name, s < p.seen → frames[s]? = some frame → declaredName frame = some name →
    (p.procedures.get? name).isSome

/-- a frame whose directives go through at the top level declares its procedure -/
theorem Directs.declares {c : Cursor} {frame : Frame} {name : String} (directs : Directs p c [] frame)
    (passed : (p.passAt c [] frame).2 = none) (named : declaredName frame = some name) :
    ∃ d, Declares p c.pos d ∧ d.name = name := by
  unfold declaredName at named
  split at named
  · cases named
  · rename_i raw declared
    split at named
    · rename_i d read
      cases named
      exact ⟨d, .past directs rfl declared read ((run_opening _ frame _).trans passed), rfl⟩
    · cases named

/-- a turn that declares nothing, and visits nothing at the top level -/
theorem Surveyed.idle (h : Surveyed frames history p) (seen : q.seen = p.seen) (none : ∀ s d, ¬Declares p s d)
    (more : Procedures.Extends p.procedures q.procedures) : Surveyed frames (history ++ [p]) q := by
  refine ⟨fun r hr s d declares => ?_, fun s frame name hs here named => ?_⟩
  · rcases List.mem_append.1 hr with hr | hr
    · rw [seen]
      exact h.before r hr s d declares
    · rw [List.mem_singleton.1 hr] at declares
      exact absurd declares (none s d)
  · obtain ⟨span, found⟩ := Option.isSome_iff_exists.1 (h.registered s frame name (seen ▸ hs) here named)
    rw [more name span found]
    rfl

/-- a visit of the next frame at the top level -/
theorem Surveyed.visit {c : Cursor} {frame : Frame} (h : Surveyed frames history p) (standing : Standing frames song p)
    (m : Moves p q) (directs : Directs p c [] frame) (before : p.seen = c.pos) (after : q.seen = c.pos + 1)
    (more : Procedures.Extends p.procedures q.procedures) : Surveyed frames (history ++ [p]) q := by
  refine ⟨fun r hr s d declares => ?_, fun s frame' name hs here named => ?_⟩
  · rcases List.mem_append.1 hr with hr | hr
    · have := h.before r hr s d declares
      omega
    · rw [List.mem_singleton.1 hr] at declares
      cases declares with
      | past directs' pos =>
        obtain ⟨rfl, -, -⟩ := directs.toAt.unique directs'.toAt
        omega
  · rcases Nat.lt_or_ge s c.pos with earlier | now
    · obtain ⟨span, found⟩ := Option.isSome_iff_exists.1 (h.registered s frame' name (by omega) here named)
      rw [more name span found]
      rfl
    · obtain rfl : s = c.pos := by omega
      obtain rfl : frame = frame' := by
        have same := directs.frame
        rw [standing.frames, here] at same
        exact (Option.some.inj same).symm
      obtain ⟨d, declares, rfl⟩ := directs.declares (m.passed directs) named
      rcases standing.registers (q := q) (by rw [m.turn]; rfl) with ⟨s', d', declares', -, procedures⟩ | ⟨none, -⟩
      · obtain ⟨-, rfl⟩ := declares.unique declares'
        rw [procedures, get?_cons, if_pos rfl]
        rfl
      · exact absurd declares (none _ _)

/-- **A course surveys the frames that it has seen**, as long as there are cursors. -/
theorem Course.surveyed (run : Course (start frames song timeline) history p) (going : p.stack ≠ []) :
    Surveyed frames history p := by
  induction run with
  | here =>
    refine ⟨?_, ?_⟩
    · intro q hq
      cases hq
    · intro s frame name hs
      exact absurd hs (Nat.not_lt_zero s)
  | @turn history q r run next ih =>
    have standing := run.reaches.standing (Turn.going next)
    have more := Course.extends run.reaches (Course.here.turn next)
    rcases Turn.after_cases next with ⟨e, pending, given, rfl⟩ | m | ⟨e, failed⟩
    · refine (ih going).idle rfl (fun s d declares => ?_) more
      cases declares with
      | past directs => exact visited_eq_none_iff.1 (unvisited_of_pending given) _ _ _ directs
    · have h := ih m.nonempty
      rcases standing.seated.seen_moves standing.working m with ⟨c, frame, directs, before, after⟩ | ⟨inner, same⟩
      · exact h.visit standing m directs before after more
      · refine h.idle same (fun s d declares => ?_) more
        cases declares with
        | past directs => exact inner _ _ directs
    · exact absurd failed.timelines.1 going

end Courses

/-! ## The mirror -/

/-- the procedures of `p` mirror the declarations in `history`, which is the way to it -/
structure Mirrors (frames : Array Frame) (history : List Performance) (p : Performance) : Prop
    extends Recorded frames history p.procedures where
  /-- a body begins at its frame and ends in the sequence -/
  inside : ∀ q ∈ history, ∀ s d, Declares q s d → s < frames.size ∧ s ≤ min (s + d.length) frames.size
  /-- a length has 64 bits, and a sum of 64 bits that stops at the largest number gives the same end -/
  exact : ∀ q ∈ history, ∀ s d, Declares q s d → d.length ≤ Text.most64 ∧
    (frames.size ≤ Text.most64 → min (min (s + d.length) Text.most64) frames.size = min (s + d.length) frames.size)
  /-- no declaration is after the place of the top level -/
  begun : ∀ b, p.stack.getLast? = some b → ∀ q ∈ history, ∀ s d, Declares q s d → s ≤ b.pos
  /-- while there is a top level, the names are those of the frames that it has seen -/
  seen : ∀ b, p.stack.getLast? = some b → ∀ name, (p.procedures.get? name).isSome ↔
    ∃ s frame, s < b.seen ∧ frames[s]? = some frame ∧ declaredName frame = some name
  /-- what is registered stays registered, with its body -/
  kept : ∀ more q, Course p more q → Procedures.Extends p.procedures q.procedures
  /-- a frame that is replayed goes through and registers nothing -/
  replayed : ∀ c below frame, Directs p c below frame → below ≠ [] → (p.passAt c below frame).2 = none ∧
    ∀ q, p.turn.after? = some q → q.procedures = p.procedures
  /-- a declaration that fails because its name is registered leaves the registry as it is -/
  refused : ∀ e q name, p.turn = .failed e q → e.fault = .duplicateProcedure name →
    q.procedures = p.procedures ∧ (p.procedures.get? name).isSome

theorem Fails.duplicate {p q : Performance} {e : Error} {name : String} (h : Fails p e q)
    (fault : e.fault = .duplicateProcedure name) : q.procedures = p.procedures ∧ (p.procedures.get? name).isSome := by
  have unresolved : ∀ {r : Performance} {called : String}, r.resolve called ≠ .error (.duplicateProcedure name) := by
    intro r called h
    rcases resolve_error h with ⟨-, h⟩ | ⟨-, h⟩ <;> cases h
  cases h with
  | directive here stage refused =>
    obtain rfl : _ = Fault.duplicateProcedure name := fault
    have kept := (run_order_refused refused).1
    have registered := run_duplicate refused
    rw [kept] at registered
    exact ⟨congrArg Pass.procedures kept, registered⟩
  | layer here stage passed layered refused =>
    obtain rfl : _ = Fault.duplicateProcedure name := fault
    exact absurd refused unresolved
  | splice here stage spliced refused =>
    obtain rfl : _ = Fault.duplicateProcedure name := fault
    exact absurd refused unresolved

theorem declaredName_of_declares {q : Performance} {s : Nat} {d : Declaration} (h : Declares q s d) :
    ∃ frame, q.frames[s]? = some frame ∧ declaredName frame = some d.name := by
  cases h with
  | @past c frame raw directs pos declared read =>
    refine ⟨frame, pos ▸ directs.frame, ?_⟩
    simp only [declaredName, declared, read]

theorem Course.frames_eq {frames : Array Frame} {song : Song} {timeline : Timeline} {history : List Performance}
    {p q : Performance} (run : Course (start frames song timeline) history p) (hq : q ∈ history) : q.frames = frames := by
  induction run with
  | here => cases hq
  | turn run _ ih =>
    rcases List.mem_append.1 hq with hq | hq
    · exact ih hq
    · rw [List.mem_singleton.1 hq]
      exact run.reaches.kept.1

/-- **The registry.** In every state that a performance comes to, a name is registered exactly when a declaration of it
has been passed, by one frame, with the body from that frame to the end of its length or of the sequence. -/
theorem registry_mirrors {frames : Array Frame} {song : Song} {timeline : Timeline} {history : List Performance}
    {p : Performance} (run : Course (start frames song timeline) history p) : Mirrors frames history p where
  toRecorded := run.recorded
  inside := by
    intro q hq s d declares
    have hlt := declares.lt
    rw [run.frames_eq hq] at hlt
    exact ⟨hlt, by omega⟩
  exact := by
    intro q _ s d declares
    exact ⟨declares.length_le, fun _ => by omega⟩
  begun := by
    intro b lowest q hq s d declares
    have going : p.stack ≠ [] := fun h => by simp [h] at lowest
    have hlt := (run.surveyed going).before q hq s d declares
    rw [seen_of_lowest lowest, Cursor.seen] at hlt
    split at hlt <;> omega
  seen := by
    intro b lowest name
    have going : p.stack ≠ [] := fun h => by simp [h] at lowest
    have surveyed := run.surveyed going
    rw [← seen_of_lowest lowest]
    constructor
    · intro found
      obtain ⟨span, found⟩ := Option.isSome_iff_exists.1 found
      obtain ⟨q, hq, s, d, declares, rfl, -⟩ := (run.recorded.registered name span).1 found
      obtain ⟨frame, here, named⟩ := declaredName_of_declares declares
      rw [run.frames_eq hq] at here
      exact ⟨s, frame, surveyed.before q hq s d declares, here, named⟩
    · rintro ⟨s, frame, hs, here, named⟩
      exact surveyed.registered s frame name hs here named
  kept := fun more q more_run => more_run.extends run.reaches
  replayed := by
    intro c below frame directs inner
    have standing := run.reaches.standing directs.going
    refine ⟨(standing.rehearses.replayed directs inner).1, fun q next => ?_⟩
    rcases standing.registers next with ⟨s, d, declares, -⟩ | ⟨-, kept⟩
    · cases declares with
      | past directs' =>
        obtain ⟨-, rfl, -⟩ := directs.toAt.unique directs'.toAt
        exact absurd rfl inner
    · exact kept
  refused := fun e q name failed fault => (turn_failed_iff.1 failed).duplicate fault

/-- the procedure `q` is performed: its body replays the frame that declares it -/
theorem layeredInSpliced_mirrors :
    ∃ history p c below frame, Course (start layeredInSpliced .blank .start) history p ∧
      Mirrors layeredInSpliced history p ∧ Directs p c below frame ∧ below ≠ [] ∧ declaredName frame = some "q" ∧
      p.procedures.get? "p" = some ⟨0, 1⟩ ∧ p.procedures.get? "q" = some ⟨1, 2⟩ := by
  have turns : Turns 12 (start layeredInSpliced .blank .start) [] _ :=
    .moved rfl (.moved rfl (.moved rfl (.moved rfl (.moved rfl (.moved rfl (.moved rfl (.moved rfl (.moved rfl
      (.moved rfl (.moved rfl (.moved rfl (.none _))))))))))))
  obtain ⟨history, run⟩ := turns.reaches.course
  exact ⟨history, _, _, _, _, run, registry_mirrors run, ⟨⟨rfl, rfl, Nat.lt_succ_self 1, rfl⟩, rfl⟩,
    List.cons_ne_nil _ _, by decide, rfl, rfl⟩

end Performance

end RhythmChart
