/-
Performances by recursion: no stack, no slots, nothing pending.

`recite` visits the frames of a span in order. At each it applies the directives, then recites the body of the
layered procedure on a copy of the timeline, then the body of the spliced procedure on the timeline itself, then
places the frame's notes and walls and advances the clock. The names of the procedures being performed come along
as a list: a name on it cannot be called, and definitions count only while it is empty. Every call takes a name that
is defined and not yet on the list, so the recursion is well founded (`spare_lt`).
-/
import Mathlib.Tactic
import RhythmChart.Proofs.Performance.Passes

namespace RhythmChart.Performance

/-- what a stretch of a performance gave, and what it left -/
structure Stretch where
  events : List Event
  error : Option Error
  song : Song
  timeline : Timeline
  procedures : Procedures

namespace Stretch

/-- nothing happened -/
def idle (song : Song) (timeline : Timeline) (ps : Procedures) : Stretch := ⟨[], none, song, timeline, ps⟩

/-- an error and nothing else happened -/
def failed (e : Error) (song : Song) (timeline : Timeline) (ps : Procedures) : Stretch :=
  ⟨[], some e, song, timeline, ps⟩

/-- a stretch and, unless it failed, what follows from where it stopped -/
def andThen (r : Stretch) (next : Song → Timeline → Stretch) : Stretch :=
  match r.error with
  | some _ => r
  | none => { next r.song r.timeline with events := r.events ++ (next r.song r.timeline).events }

/-- a stretch on a copy of a timeline, from the view of that timeline -/
def onCopyOf (timeline : Timeline) (r : Stretch) : Stretch := { r with timeline }

end Stretch

/-- the body of a procedure that may be performed inside the active ones -/
def summon (ps : Procedures) (active : List String) (name : String) : Except Fault Span :=
  if name ∈ active then .error (.recursiveProcedure name) else ps.body name

/-- how many procedures could still be called inside the active ones -/
def spare (ps : Procedures) (active : List String) : Nat := (ps.bodies.filter fun b => b.1 ∉ active).length

theorem mem_of_get? {ps : Procedures} {name : String} {span : Span} (h : ps.get? name = some span) :
    (name, span) ∈ ps.bodies := by
  obtain ⟨bodies⟩ := ps
  simp only [Procedures.get?] at h ⊢
  induction bodies with
  | nil => simp at h
  | cons b rest ih =>
    rw [List.lookup_cons] at h
    split at h
    · rename_i hname
      simp only [Option.some.injEq] at h
      rw [← h, eq_of_beq hname]
      exact List.mem_cons_self
    · exact List.mem_cons_of_mem b (ih h)

theorem summon_ok {ps : Procedures} {active : List String} {name : String} {span : Span}
    (h : summon ps active name = .ok span) : name ∉ active ∧ ps.get? name = some span := by
  unfold summon Procedures.body at h
  split at h
  · cases h
  · rename_i hname
    split at h
    · rename_i found
      cases h
      exact ⟨hname, found⟩
    · cases h

theorem spare_lt {ps : Procedures} {active : List String} {name : String} {span : Span}
    (h : summon ps active name = .ok span) : spare ps (name :: active) < spare ps active := by
  obtain ⟨hname, found⟩ := summon_ok h
  have hfilter : ps.bodies.filter (fun b => b.1 ∉ name :: active) =
      (ps.bodies.filter fun b => b.1 ∉ active).filter fun b => b.1 ≠ name := by
    simp [List.filter_filter]
  unfold spare
  rw [hfilter, List.length_filter_lt_length_iff_exists]
  exact ⟨(name, span), by simp [mem_of_get? found, hname], by simp⟩

theorem spare_le_size (ps : Procedures) (active : List String) : spare ps active ≤ ps.size :=
  List.length_filter_le _ _

/-! ## The recursion -/

section Rank

variable {active : List String} {pos stop count : Nat} {song : Song} {timeline : Timeline} {ps : Procedures}
  {frame : Frame} {pass : Pass}

theorem rank_call {name : String} {span : Span} {n m : Nat}
    (run : Pass.run ⟨pos, count, active.isEmpty⟩ frame Directive.order (.start song timeline ps) = (pass, none))
    (found : summon pass.procedures active name = .ok span) :
    Prod.Lex (· < ·) (Prod.Lex (· < ·) (· < ·))
      (if (name :: active).isEmpty then 1 else 0,
        if (name :: active).isEmpty then 0 else spare pass.procedures (name :: active), n)
      (if active.isEmpty then 1 else 0, if active.isEmpty then 0 else spare ps active, m) := by
  cases active with
  | nil => exact Prod.Lex.left _ _ (by simp)
  | cons a active =>
    have hlt := spare_lt found
    rw [run_order_inner run] at hlt ⊢
    exact Prod.Lex.right _ (Prod.Lex.left _ _ hlt)

theorem rank_next
    (run : Pass.run ⟨pos, count, active.isEmpty⟩ frame Directive.order (.start song timeline ps) = (pass, none))
    (inside : pos < stop) :
    Prod.Lex (· < ·) (Prod.Lex (· < ·) (· < ·))
      (if active.isEmpty then 1 else 0, if active.isEmpty then 0 else spare pass.procedures active, stop - (pos + 1))
      (if active.isEmpty then 1 else 0, if active.isEmpty then 0 else spare ps active, stop - pos) := by
  cases active with
  | nil => exact Prod.Lex.right _ (Prod.Lex.right _ (by omega))
  | cons a active =>
    rw [run_order_inner run]
    exact Prod.Lex.right _ (Prod.Lex.right _ (by omega))

end Rank

/-- a frame whose directives went through: the layered procedure, the spliced one, the frame's own placements -/
def visit (frame : Frame) (pass : Pass) (call : Option String → Song → Timeline → Stretch) : Stretch :=
  (((call pass.layered pass.song pass.timeline).onCopyOf pass.timeline).andThen (call pass.spliced)).andThen
    fun song timeline => ⟨stamp frame timeline pass.frameOffset, none, song, timeline.advance, pass.procedures⟩

/-- the frames from `pos` up to `stop`, performed inside the active procedures -/
def recite (frames : Array Frame) (active : List String) (pos stop : Nat) (song : Song) (timeline : Timeline)
    (ps : Procedures) : Stretch :=
  if _inside : pos < stop then
    match frames[pos]? with
    | none => .idle song timeline ps
    | some frame =>
      match _run : Pass.run ⟨pos, frames.size, active.isEmpty⟩ frame Directive.order (.start song timeline ps) with
      | (pass, some fault) => .failed ⟨frame.line, fault⟩ pass.song pass.timeline pass.procedures
      | (pass, none) =>
        let call (name : Option String) (song : Song) (timeline : Timeline) : Stretch :=
          match name with
          | none => .idle song timeline pass.procedures
          | some name =>
            match _found : summon pass.procedures active name with
            | .error fault => .failed ⟨frame.line, fault⟩ song timeline pass.procedures
            | .ok span => recite frames (name :: active) span.start span.stop song timeline pass.procedures
        (visit frame pass call).andThen fun song timeline =>
          recite frames active (pos + 1) stop song timeline pass.procedures
  else .idle song timeline ps
-- at the top level the registry grows, inside a procedure the names that can still be called get fewer
termination_by (if active.isEmpty then 1 else 0, if active.isEmpty then 0 else spare ps active, stop - pos)
decreasing_by
  · exact rank_call _run _found
  · exact rank_next _run _inside

/-- what a call does at a frame in the given line -/
def call (frames : Array Frame) (active : List String) (line : Nat) (ps : Procedures) (name : Option String)
    (song : Song) (timeline : Timeline) : Stretch :=
  match name with
  | none => .idle song timeline ps
  | some name =>
    match summon ps active name with
    | .error fault => .failed ⟨line, fault⟩ song timeline ps
    | .ok span => recite frames (name :: active) span.start span.stop song timeline ps

theorem recite_done {frames : Array Frame} {active : List String} {pos stop : Nat} {song : Song} {timeline : Timeline}
    {ps : Procedures} (h : stop ≤ pos ∨ frames[pos]? = none) :
    recite frames active pos stop song timeline ps = .idle song timeline ps := by
  rw [recite]
  split
  · rename_i inside
    rcases h with h | h
    · omega
    · rw [h]
  · rfl

theorem recite_refused {frames : Array Frame} {active : List String} {pos stop : Nat} {song : Song}
    {timeline : Timeline} {ps : Procedures} {frame : Frame} {pass : Pass} {fault : Fault} (inside : pos < stop)
    (here : frames[pos]? = some frame)
    (run : Pass.run ⟨pos, frames.size, active.isEmpty⟩ frame Directive.order (.start song timeline ps) =
      (pass, some fault)) :
    recite frames active pos stop song timeline ps =
      .failed ⟨frame.line, fault⟩ pass.song pass.timeline pass.procedures := by
  rw [recite, dif_pos inside, here]
  simp only
  split
  · rename_i run'; rw [run] at run'; cases run'; rfl
  · rename_i run'; rw [run] at run'; cases run'

theorem recite_passed {frames : Array Frame} {active : List String} {pos stop : Nat} {song : Song}
    {timeline : Timeline} {ps : Procedures} {frame : Frame} {pass : Pass} (inside : pos < stop)
    (here : frames[pos]? = some frame)
    (run : Pass.run ⟨pos, frames.size, active.isEmpty⟩ frame Directive.order (.start song timeline ps) = (pass, none)) :
    recite frames active pos stop song timeline ps =
      (visit frame pass (call frames active frame.line pass.procedures)).andThen fun song timeline =>
        recite frames active (pos + 1) stop song timeline pass.procedures := by
  rw [recite, dif_pos inside, here]
  simp only
  split
  · rename_i run'; rw [run] at run'; cases run'
  · rename_i run'
    rw [run] at run'
    cases run'
    congr 2
    funext name song timeline
    cases name with
    | none => rfl
    | some name =>
      simp only [call]
      split <;> rename_i found <;> rw [found]

/-! ## The registry inside a procedure -/

theorem Stretch.andThen_procedures {ps : Procedures} {r : Stretch} {next : Song → Timeline → Stretch}
    (h : r.procedures = ps) (h' : ∀ song timeline, (next song timeline).procedures = ps) :
    (r.andThen next).procedures = ps := by
  unfold andThen
  split
  · exact h
  · exact h' r.song r.timeline

theorem visit_procedures {frame : Frame} {pass : Pass} {call : Option String → Song → Timeline → Stretch}
    (h : ∀ name song timeline, (call name song timeline).procedures = pass.procedures) :
    (visit frame pass call).procedures = pass.procedures :=
  Stretch.andThen_procedures (Stretch.andThen_procedures (h _ _ _) (h _)) fun _ _ => rfl

/-- the body of a procedure leaves the registry as it is -/
theorem recite_procedures {frames : Array Frame} {active : List String} {pos stop : Nat} {song : Song}
    {timeline : Timeline} {ps : Procedures} (h : active.isEmpty = false) :
    (recite frames active pos stop song timeline ps).procedures = ps := by
  induction active, pos, stop, song, timeline, ps using recite.induct frames with
  | case1 active pos stop song timeline ps inside here => rw [recite_done (.inr here)]; rfl
  | case2 active pos stop song timeline ps inside frame here pass fault run =>
    rw [recite_refused inside here run]
    rw [(run_order_refused run).1]
    rfl
  | case3 active pos stop song timeline ps inside frame here pass run ihCall ihNext =>
    rw [recite_passed inside here run]
    rw [h] at run
    have hps : pass.procedures = ps := run_order_inner run
    rw [hps] at ihCall ihNext ⊢
    refine Stretch.andThen_procedures ((visit_procedures fun name song timeline => ?_).trans hps) fun _ _ => ihNext _ _ h
    rw [hps]
    cases name with
    | none => rfl
    | some name =>
      simp only [call]
      cases found : summon ps active name with
      | error fault => rfl
      | ok span => exact ihCall _ _ _ _ found rfl
  | case4 active pos stop song timeline ps inside => rw [recite_done (.inl (Nat.not_lt.1 inside))]; rfl

theorem call_procedures (frames : Array Frame) (active : List String) (line : Nat) (ps : Procedures)
    (name : Option String) (song : Song) (timeline : Timeline) :
    (call frames active line ps name song timeline).procedures = ps := by
  cases name with
  | none => rfl
  | some name =>
    simp only [call]
    cases summon ps active name with
    | error fault => rfl
    | ok span => exact recite_procedures rfl

/-- **The recursive reading of a whole performance.** -/
def recital (frames : Array Frame) (song : Song) (timeline : Timeline) : Stretch :=
  recite frames [] 0 frames.size song timeline .empty

end RhythmChart.Performance
