/-
What is put together from the operations of a host.

An attempt succeeds and fails as its operation does (`runOn_attempt_ok_iff`, `runOn_attempt_error_iff`) and changes
nothing on its own. On a machine, reading a text changes nothing (`readText_reads`), and making a directory with all
above it makes some of these directories and does nothing else (`makeDirectories_respects`).
-/
import Mathlib.Tactic
import RhythmChart.Proofs.Storage.Changes

namespace RhythmChart.Storage

/-! ## Attempts -/

namespace Host

section
variable {σ δ ε α : Type} {s t : σ} {wrap : ε → δ}

theorem runOn_ask (s : σ) (op : StateM σ α) :
    runOn s (ask op : ExceptT ε (StateM σ) α).run = (.ok (runOn s op).1, (runOn s op).2) := rfl

theorem runOn_attempt (s : σ) (wrap : ε → δ) (op : StateM σ (Except ε α)) :
    runOn s (attempt wrap op).run = ((runOn s op).1.mapError wrap, (runOn s op).2) := by
  rw [attempt, runOn_bind_run, runOn_ask]
  rcases runOn s op with ⟨e | a, t⟩ <;> rfl

theorem runOn_attempt_ok_iff {op : StateM σ (Except ε α)} {a : α} :
    runOn s (attempt wrap op).run = (.ok a, t) ↔ runOn s op = (.ok a, t) := by
  rw [runOn_attempt]
  rcases runOn s op with ⟨e | b, u⟩ <;> simp [Except.mapError]

theorem runOn_attempt_error_iff {op : StateM σ (Except ε α)} {d : δ} :
    runOn s (attempt wrap op).run = (.error d, t) ↔ ∃ e, runOn s op = (.error e, t) ∧ wrap e = d := by
  rw [runOn_attempt]
  rcases runOn s op with ⟨e | b, u⟩ <;> simp [Except.mapError, and_comm]

theorem runOn_given (s : σ) (wrap : ε → δ) (r : Except ε α) :
    runOn s (given wrap r : ExceptT δ (StateM σ) α).run = (r.mapError wrap, s) := by
  cases r <;> rfl

theorem runOn_given_ok_iff {r : Except ε α} {a : α} :
    runOn s (given wrap r : ExceptT δ (StateM σ) α).run = (.ok a, t) ↔ r = .ok a ∧ s = t := by
  rw [runOn_given]
  cases r <;> simp [Except.mapError]

theorem runOn_given_error_iff {r : Except ε α} {d : δ} :
    runOn s (given wrap r : ExceptT δ (StateM σ) α).run = (.error d, t) ↔ (∃ e, r = .error e ∧ wrap e = d) ∧ s = t := by
  rw [runOn_given]
  cases r <;> simp [Except.mapError]

variable {R : σ → σ → Prop}

theorem ask_respects {op : StateM σ α} (h : Respects R op) : Respects R (ask op : ExceptT ε (StateM σ) α).run := h

theorem attempt_respects {op : StateM σ (Except ε α)} (h : Respects R op) (wrap : ε → δ) :
    Respects R (attempt wrap op).run := by
  intro s
  rw [runOn_attempt]
  exact h s

theorem given_respects [Std.Refl R] (r : Except ε α) (wrap : ε → δ) :
    Respects R (given wrap r : ExceptT δ (StateM σ) α).run := by
  intro s
  rw [runOn_given]
  exact Std.Refl.refl s

end

end Host

/-! ## Texts and directories -/

namespace Machine

variable {dirs files : List Path}

theorem readText_reads (p : Path) : Respects Eq (Host.readText p : StateM Machine _) := by
  refine .bind (fun _ => rfl) fun r => ?_
  split
  · exact .pure _
  · split <;> exact .pure _

/-- a text that was read is in a file -/
theorem find_of_readText {w w' : Machine} {p : Path} {text : String}
    (h : runOn w (Host.readText p : StateM Machine _) = (.ok text, w')) :
    ∃ f, w.files.find w.here p = .ok (.file f) := by
  cases hread : w.files.read w.here p with
  | error fault =>
    have hr : runOn w (Host.read p : StateM Machine _) = (.error fault, w) := congrArg (·, w) hread
    rw [Host.readText, runOn_bind, hr] at h
    cases h
  | ok content =>
    obtain ⟨f, hfind, -⟩ := FileSystem.read_eq_ok.1 hread
    exact ⟨f, hfind⟩

theorem orThere_reads (p : Path) (r : Except Fault Unit) : Respects Eq (Host.orThere p r : StateM Machine _) := by
  cases r with
  | ok u => exact .pure _
  | error f => exact .bind (fun _ => rfl) fun _ => .pure _

theorem makeChain_respects {ps : List Path} (h : ps ⊆ dirs) :
    Respects (Changes dirs files) (Host.makeChain ps : StateM Machine _) := by
  induction ps with
  | nil => exact .pure _
  | cons p above ih =>
    obtain ⟨hp, habove⟩ := List.cons_subset.1 h
    rw [Host.makeChain]
    split_ifs
    · exact .pure _
    · refine .bind (makeDirectory_respects hp) fun made => ?_
      split
      · refine .bind (ih habove) fun made => ?_
        split
        · exact .pure _
        · exact .bind (makeDirectory_respects hp) fun made => .of_eq (orThere_reads p made)
      · exact .of_eq (orThere_reads p made)

theorem makeDirectories_respects {p : Path} (h : Path.ancestors (p.length + 1) p ⊆ dirs) :
    Respects (Changes dirs files) (Host.makeDirectories p : StateM Machine _) := makeChain_respects h

end Machine

end RhythmChart.Storage
