/-
Operations on a state, which may fail.

A sequence succeeds when each of its operations does, the later ones on what the earlier ones left behind, and fails
with the error of the first that does not (`runOn_bind_ok_iff`, `runOn_bind_error_iff`). What each operation may do to
the state is a relation between the states before and after it (`Respects`); a reflexive and transitive one carries over
to sequences.
-/
import Mathlib.Tactic.Common
import Mathlib.Order.Defs.Unbundled

namespace RhythmChart

variable {σ ε α β : Type}

theorem bind_eq_ok_iff {x : Except ε α} {f : α → Except ε β} {b : β} :
    x >>= f = .ok b ↔ ∃ a, x = .ok a ∧ f a = .ok b := by
  cases x with
  | error e =>
    constructor
    · intro h
      cases h
    · rintro ⟨_, h, _⟩
      cases h
  | ok a =>
    constructor
    · intro h
      exact ⟨a, rfl, h⟩
    · rintro ⟨_, ha, h⟩
      cases ha
      exact h

theorem bind_eq_error_iff {x : Except ε α} {f : α → Except ε β} {e : ε} :
    x >>= f = .error e ↔ x = .error e ∨ ∃ a, x = .ok a ∧ f a = .error e := by
  cases x with
  | error e' =>
    constructor
    · intro h
      cases h
      exact .inl rfl
    · rintro (h | ⟨_, ha, _⟩)
      · cases h
        rfl
      · cases ha
  | ok a =>
    constructor
    · intro h
      exact .inr ⟨a, rfl, h⟩
    · rintro (h | ⟨_, ha, h⟩)
      · cases h
      · cases ha
        exact h

/-! ## Outcomes -/

/-- what an operation answers, and the state it leaves behind -/
def runOn (s : σ) (x : StateM σ α) : α × σ := x s

theorem runOn_bind (s : σ) (x : StateM σ α) (f : α → StateM σ β) :
    runOn s (x >>= f) = runOn (runOn s x).2 (f (runOn s x).1) := rfl

/-- a sequence goes on when its first operation succeeds -/
theorem runOn_bind_run (s : σ) (x : ExceptT ε (StateM σ) α) (f : α → ExceptT ε (StateM σ) β) :
    runOn s (x >>= f).run =
      match runOn s x.run with
      | (.ok a, t) => runOn t (f a).run
      | (.error e, t) => (.error e, t) := by
  change runOn s (x.run >>= ExceptT.bindCont f) = _
  rw [runOn_bind]
  rcases runOn s x.run with ⟨e | a, t⟩ <;> rfl

section
variable {x : ExceptT ε (StateM σ) α} {f : α → ExceptT ε (StateM σ) β} {s t : σ}

theorem runOn_bind_ok_iff {b : β} :
    runOn s (x >>= f).run = (.ok b, t) ↔
      ∃ a between, runOn s x.run = (.ok a, between) ∧ runOn between (f a).run = (.ok b, t) := by
  rw [runOn_bind_run]
  rcases runOn s x.run with ⟨e | a, between⟩ <;> simp

theorem runOn_bind_error_iff {e : ε} :
    runOn s (x >>= f).run = (.error e, t) ↔
      runOn s x.run = (.error e, t) ∨
        ∃ a between, runOn s x.run = (.ok a, between) ∧ runOn between (f a).run = (.error e, t) := by
  rw [runOn_bind_run]
  rcases runOn s x.run with ⟨e | a, between⟩ <;> simp

theorem runOn_pure_iff {a b : α} : runOn s (pure a : ExceptT ε (StateM σ) α).run = (.ok b, t) ↔ a = b ∧ s = t := by
  change (Except.ok a, s) = (Except.ok b, t) ↔ _
  simp

end

/-! ## What operations may do -/

/-- whatever an operation answers, the states before and after it are related -/
def Respects (R : σ → σ → Prop) (x : StateM σ α) : Prop := ∀ s, R s (runOn s x).2

namespace Respects

variable {R : σ → σ → Prop}

theorem after {x : StateM σ α} (h : Respects R x) {s t : σ} {a : α} (hx : runOn s x = (a, t)) : R s t := by
  have := h s
  rwa [hx] at this

/-- what leaves the state as it is -/
theorem of_eq [Std.Refl R] {x : StateM σ α} (h : Respects Eq x) : Respects R x := fun s => h s ▸ Std.Refl.refl s

theorem pure [Std.Refl R] (a : α) : Respects R (pure a : StateM σ α) := fun s => Std.Refl.refl s

theorem bind [IsTrans σ R] {x : StateM σ α} {f : α → StateM σ β} (hx : Respects R x) (hf : ∀ a, Respects R (f a)) :
    Respects R (x >>= f) := fun s => IsTrans.trans _ _ _ (hx s) (hf _ _)

theorem bind_run [IsTrans σ R] {x : ExceptT ε (StateM σ) α} {f : α → ExceptT ε (StateM σ) β}
    (hx : Respects R x.run) (hf : ∀ a, Respects R (f a).run) : Respects R (x >>= f).run := by
  intro s
  have h := hx s
  rw [runOn_bind_run]
  rcases hrun : runOn s x.run with ⟨e | a, between⟩ <;> rw [hrun] at h
  · exact h
  · exact IsTrans.trans _ _ _ h (hf a between)

end Respects

end RhythmChart
