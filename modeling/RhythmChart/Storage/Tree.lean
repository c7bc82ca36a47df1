/-
Trees of values.

Each place, a list of names that leads to it from the root, holds one value or none. `subtree` is the part of a tree that
lies below a place, so a long path can be followed step by step. `get?_put`: putting a value at a place changes
that place and no other.
-/
namespace RhythmChart.Storage

abbrev Name := List Char

/-- the names that lead somewhere from the root -/
abbrev Place := List Name

inductive Tree (α : Type) where
  | node (value : Option α) (branches : List (Name × Tree α))

namespace Tree

variable {α : Type}

/-- no values -/
def empty : Tree α := node none []

/-- the value at the root -/
def value : Tree α → Option α
  | node v _ => v

def branches : Tree α → List (Name × Tree α)
  | node _ bs => bs

/-- what lies behind a name -/
def branch (t : Tree α) (n : Name) : Tree α := (t.branches.lookup n).getD empty

/-- what lies below a place -/
def subtree : Tree α → Place → Tree α
  | t, [] => t
  | t, n :: rest => (t.branch n).subtree rest

/-- the value at a place -/
def get? (t : Tree α) (p : Place) : Option α := (t.subtree p).value

/-- the tree with a value at a place -/
def put (a : α) : Tree α → Place → Tree α
  | t, [] => node (some a) t.branches
  | t, n :: rest => node t.value ((n, put a (t.branch n) rest) :: t.branches.filter (·.1 ≠ n))

mutual

/-- the values with their places, behind the names of `trail`, the last of which comes first -/
def list (trail : List Name) : Tree α → List (Place × α)
  | node v bs => (v.map fun a => (trail.reverse, a)).toList ++ listBranches trail bs

/-- the same for branches -/
def listBranches (trail : List Name) : List (Name × Tree α) → List (Place × α)
  | [] => []
  | (n, t) :: rest => list (n :: trail) t ++ listBranches trail rest

end

/-- the values with their places -/
def toList (t : Tree α) : List (Place × α) := t.list []

theorem lookup_filter_ne {bs : List (Name × Tree α)} {m n : Name} (h : m ≠ n) :
    (bs.filter (·.1 ≠ n)).lookup m = bs.lookup m := by
  induction bs with
  | nil => rfl
  | cons b rest ih =>
    obtain ⟨k, t⟩ := b
    by_cases hk : k = n
    · subst hk
      simpa [List.lookup_cons, beq_eq_false_iff_ne.2 h] using ih
    · by_cases hm : m = k <;> simp_all [List.lookup_cons]

theorem branch_put (a : α) (t : Tree α) (m n : Name) (rest : Place) :
    (t.put a (n :: rest)).branch m = if m = n then (t.branch n).put a rest else t.branch m := by
  by_cases h : m = n
  · subst h
    simp [put, branch, branches]
  · simp only [put, branch, branches, List.lookup_cons, beq_eq_false_iff_ne.2 h, if_neg h]
    rw [lookup_filter_ne h]

/-- `put` changes its place and no other -/
theorem get?_put (a : α) (t : Tree α) (p q : Place) :
    (t.put a p).get? q = if q = p then some a else t.get? q := by
  induction p generalizing t q with
  | nil =>
    cases q with
    | nil => simp [get?, subtree, put, value]
    | cons m rest => simp [get?, subtree, put, branch, branches]
  | cons n rest ih =>
    cases q with
    | nil => simp [get?, subtree, put, value]
    | cons m more =>
      have h := ih (t.branch n) more
      by_cases hm : m = n
      · subst hm
        simpa [get?, subtree, branch_put] using h
      · simp [get?, subtree, branch_put, hm]

end Tree

end RhythmChart.Storage
