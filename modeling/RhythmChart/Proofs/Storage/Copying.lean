/-
What becomes of a file that is copied.

The copy is emptied before anything is taken from the source. So when source and destination are two places the source
stays and the copy holds what it holds (`FileSystem.copy_ok`), and when they are one the file is empty afterwards. What
a copy comes to is kept by all that writes elsewhere, before it and after it (`Machine.Copied.later`,
`Machine.Copied.earlier`).
-/
import Mathlib.Tactic
import RhythmChart.Proofs.Storage.Changes

namespace RhythmChart.Storage

namespace FileSystem

variable {fs fs' : FileSystem} {here : Place} {source dest : Path}

/-- what the copy of a file holds -/
def copied (here : Place) (source dest : Path) (f : File) : ByteArray :=
  if target here source = target here dest then .empty else f.content

theorem copy_ok (h : fs.copy here source dest = .ok fs') : ∃ f, fs.find here source = .ok (.file f) ∧
    fs.Follows here dest ∧ Path.wantsDirectory dest = false ∧ fs.get? (target here dest) ≠ some .directory ∧
    ∀ q, fs'.get? q = if q = target here dest then some (.file ⟨copied here source dest f, f.program⟩) else fs.get? q := by
  obtain ⟨e, hfind, h⟩ := bind_eq_ok_iff.1 h
  cases e with
  | directory => cases h
  | file f =>
    obtain ⟨emptied, hempty, h⟩ := bind_eq_ok_iff.1 h
    obtain ⟨content, hread, hwrite⟩ := bind_eq_ok_iff.1 h
    obtain ⟨hfollows, hfile, hfree, rfl⟩ := write_eq_ok.1 hempty
    obtain ⟨-, -, -, rfl⟩ := write_eq_ok.1 hwrite
    have hdest := ne_root hfree
    obtain ⟨taken, htaken, rfl⟩ := read_eq_ok.1 hread
    obtain ⟨-, -, hget⟩ := find_eq_file.1 htaken
    obtain ⟨-, -, hsource⟩ := find_eq_file.1 hfind
    have hcontent : taken.content = copied here source dest f := by
      rw [get?_put _ _ _ hdest] at hget
      unfold copied
      split_ifs at hget ⊢ with hsame
      · cases hget
        rfl
      · rw [hsource] at hget
        cases hget
        rfl
    refine ⟨f, hfind, hfollows, hfile, hfree, fun q => ?_⟩
    rw [get?_put _ _ _ hdest, get?_put _ _ _ hdest, hcontent]
    split_ifs <;> rfl

end FileSystem

namespace Machine

variable {w w' w'' : Machine} {source dest : Path} {f : File} {dirs files : List Path}

/-- a file was copied: the copy holds what the file held, and so does the file still, unless the two are one place -/
structure Copied (w w' : Machine) (source dest : Path) (f : File) : Prop where
  here : w'.here = w.here
  before : w.files.get? (target w.here source) = some (.file f)
  copy : w'.files.read w'.here dest = .ok (FileSystem.copied w.here source dest f)
  original : w'.files.read w'.here source = .ok (FileSystem.copied w.here source dest f)

theorem copied_of_copy (h : runOn w (Host.copy source dest : StateM Machine _) = (.ok (), w')) :
    ∃ f, Copied w w' source dest f := by
  change change (fun fs here => fs.copy here source dest) w = _ at h
  unfold change at h
  split at h
  · rename_i fs hcopy
    cases h
    have changes : w.files.Changes w.here [] [dest] fs := FileSystem.copy_changes hcopy List.mem_cons_self
    obtain ⟨f, hfind, hfollows, hfile, -, hget⟩ := FileSystem.copy_ok hcopy
    obtain ⟨hsource, hplain, hbefore⟩ := FileSystem.find_eq_file.1 hfind
    have atDest : ∀ p, w.files.Follows w.here p → Path.wantsDirectory p = false → target w.here p = target w.here dest →
        fs.read w.here p = .ok (FileSystem.copied w.here source dest f) := by
      intro p hp hpfile hplace
      refine FileSystem.read_eq_ok.2 ⟨⟨FileSystem.copied w.here source dest f, f.program⟩, ?_, rfl⟩
      exact FileSystem.find_eq_file.2 ⟨hp.mono changes.keeps, hpfile, by rw [hget, if_pos hplace]⟩
    refine ⟨f, rfl, hbefore, atDest dest hfollows hfile rfl, ?_⟩
    by_cases hsame : target w.here source = target w.here dest
    · exact atDest source hsource hplain hsame
    · refine FileSystem.read_eq_ok.2 ⟨f, ?_, by rw [FileSystem.copied, if_neg hsame]⟩
      refine FileSystem.find_eq_file.2 ⟨hsource.mono changes.keeps, hplain, ?_⟩
      rw [hget, if_neg hsame]
      exact hbefore
  · cases h

namespace Copied

theorem isFilePath (h : Copied w w' source dest f) : Path.wantsDirectory source = false := by
  obtain ⟨g, hfind, -⟩ := FileSystem.read_eq_ok.1 h.original
  exact (FileSystem.find_eq_file.1 hfind).2.1

/-- it stays so while neither place is written -/
theorem later (h : Copied w w' source dest f) (changes : w'.Changes dirs files w'')
    (apart : ∀ p ∈ files, target w.here p ≠ target w.here source ∧ target w.here p ≠ target w.here dest) :
    Copied w w'' source dest f := by
  have kept : ∀ p content, w'.files.read w'.here p = .ok content →
      (∀ p' ∈ files, target w.here p' ≠ target w.here p) → w''.files.read w''.here p = .ok content := by
    intro p content hread hp
    obtain ⟨g, hfind, hcontent⟩ := FileSystem.read_eq_ok.1 hread
    rw [← h.here] at hp
    exact FileSystem.read_eq_ok.2 ⟨g, changes.find hfind hp, hcontent⟩
  exact ⟨changes.here.trans h.here, h.before, kept _ _ h.copy fun p hp => (apart p hp).2, kept _ _ h.original fun p hp => (apart p hp).1⟩

/-- the file was there before, if its place was not written until then -/
theorem earlier (h : Copied w' w'' source dest f) (changes : w.Changes dirs files w')
    (apart : ∀ p ∈ files, target w.here p ≠ target w.here source) : Copied w w'' source dest f := by
  obtain ⟨here, before, copy, original⟩ := h
  rw [changes.here] at here before copy original
  exact ⟨here, (changes.file_iff apart f).1 before, copy, original⟩

end Copied

/-- a file and a copy of it hold what the file held before -/
def Intact (w w' : Machine) (source dest : Path) : Prop :=
  ∃ f, w.files.get? (target w.here source) = some (.file f) ∧ w'.files.read w'.here dest = .ok f.content ∧
    w'.files.read w'.here source = .ok f.content

/-- only a file copied onto itself suffers, and an empty one does not -/
theorem Copied.intact_iff (h : Copied w w' source dest f) :
    Intact w w' source dest ↔ target w.here source ≠ target w.here dest ∨ f.content = .empty := by
  constructor
  · rintro ⟨g, hbefore, hcopy, -⟩
    rw [h.before] at hbefore
    cases hbefore
    have heq := Except.ok.inj (h.copy.symm.trans hcopy)
    unfold FileSystem.copied at heq
    split_ifs at heq with hsame
    · exact .inr heq.symm
    · exact .inl hsame
  · intro hwhole
    have heq : FileSystem.copied w.here source dest f = f.content := by
      unfold FileSystem.copied
      split_ifs with hsame
      · exact ((hwhole.resolve_left (not_not_intro hsame))).symm
      · rfl
    exact ⟨f, h.before, heq ▸ h.copy, heq ▸ h.original⟩

end Machine

end RhythmChart.Storage
