/-
What operations change.

A change of a tree is bounded by two lists of paths: directories that may be made where nothing stood, and files that
may be written where no directory stands (`Change`). Each operation that changes a machine keeps to such bounds
(`Respects`), hence all that is put together from them does, whether it succeeds or not. Every directory stays in place
(`Changes.keeps`), and every file stays as it is whose path is not listed to be written (`Changes.file_iff`).
-/
import Mathlib.Tactic
import RhythmChart.Proofs.Effects
import RhythmChart.Proofs.Storage.Following
import RhythmChart.Storage.Machine

namespace RhythmChart.Storage

/-- what stands at a place before and after directories were made and files written -/
inductive Change (here : Place) (dirs files : List Path) (q : Place) : Option Entry → Option Entry → Prop where
  | kept (e : Option Entry) : Change here dirs files q e e
  | made {p : Path} (listed : p ∈ dirs) (there : target here p = q) : Change here dirs files q none (some .directory)
  | written {p : Path} {e : Option Entry} {f : File} (listed : p ∈ files) (there : target here p = q)
      (free : e ≠ some .directory) : Change here dirs files q e (some (.file f))

section
variable {here q : Place} {dirs files : List Path} {a b c : Option Entry}

theorem Change.trans (h : Change here dirs files q a b) (h' : Change here dirs files q b c) :
    Change here dirs files q a c := by
  cases h with
  | kept => exact h'
  | made listed there =>
    cases h' with
    | kept => exact .made listed there
    | written _ _ free => exact absurd rfl free
  | written listed there free =>
    cases h' with
    | kept => exact .written listed there free
    | written _ _ _ => exact .written listed there free

theorem Change.directory (h : Change here dirs files q (some .directory) b) : b = some .directory := by
  cases h with
  | kept => rfl
  | written _ _ free => exact absurd rfl free

/-- where no file is to be written, none appears, changes or goes -/
theorem Change.file_iff (h : Change here dirs files q a b) (hq : ∀ p ∈ files, target here p ≠ q) (f : File) :
    b = some (.file f) ↔ a = some (.file f) := by
  cases h with
  | kept => rfl
  | made => simp
  | written listed there _ => exact absurd there (hq _ listed)

end

namespace FileSystem

variable {fs fs' : FileSystem} {here : Place} {dirs files : List Path} {p source : Path}

/-- one tree is another after directories were made and files written -/
def Changes (here : Place) (dirs files : List Path) (fs fs' : FileSystem) : Prop :=
  ∀ q, Change here dirs files q (fs.get? q) (fs'.get? q)

theorem Changes.refl (here : Place) (dirs files : List Path) (fs : FileSystem) : fs.Changes here dirs files fs :=
  fun _ => .kept _

/-- every directory stays in place -/
theorem Changes.keeps (h : Changes here dirs files fs fs') : fs.Keeps fs' := by
  intro q hq
  have := h q
  rw [hq] at this
  exact this.directory

/-- the root is a directory -/
theorem ne_root {q : Place} (h : fs.get? q ≠ some .directory) : q ≠ [] := by
  rintro rfl
  exact h rfl

theorem write_changes {f : File} (h : fs.write here p f = .ok fs') (hp : p ∈ files) :
    Changes here dirs files fs fs' := by
  obtain ⟨-, -, free, rfl⟩ := write_eq_ok.1 h
  intro q
  rw [get?_put fs q _ (ne_root free)]
  split_ifs with hq
  · subst hq
    exact .written hp rfl free
  · exact .kept _

theorem makeDirectory_changes (h : fs.makeDirectory here p = .ok fs') (hp : p ∈ dirs) :
    Changes here dirs files fs fs' := by
  obtain ⟨hnone, rfl⟩ := makeDirectory_ok h
  have free : fs.get? (target here p) ≠ some .directory := by simp [hnone]
  intro q
  rw [get?_put fs q _ (ne_root free)]
  split_ifs with hq
  · subst hq
    rw [hnone]
    exact .made hp rfl
  · exact .kept _

theorem copy_changes (h : fs.copy here source p = .ok fs') (hp : p ∈ files) : Changes here dirs files fs fs' := by
  obtain ⟨e, -, h⟩ := bind_eq_ok_iff.1 h
  cases e with
  | directory => cases h
  | file f =>
    obtain ⟨emptied, hempty, h⟩ := bind_eq_ok_iff.1 h
    obtain ⟨content, -, hwrite⟩ := bind_eq_ok_iff.1 h
    exact fun q => (write_changes hempty hp q).trans (write_changes hwrite hp q)

theorem afterRun_changes (fs : FileSystem) (here : Place) (dirs : List Path) (program : Program)
    {arguments : List String} (hlast : ∀ dest, arguments.getLast? = some dest → dest ∈ files) :
    Changes here dirs files fs (fs.afterRun here program arguments) := by
  unfold afterRun
  split
  · rename_i dest content hdest _
    split
    · rename_i written hwrite
      exact write_changes hwrite (hlast dest hdest)
    · exact .refl _ _ _ _
  · exact .refl _ _ _ _

end FileSystem

namespace Machine

/-- one machine is another after directories were made and files written -/
structure Changes (dirs files : List Path) (w w' : Machine) : Prop where
  here : w'.here = w.here
  home : w'.home = w.home
  searchPath : w'.searchPath = w.searchPath
  entries : w.files.Changes w.here dirs files w'.files

variable {w w' : Machine} {dirs files : List Path} {p : Path}

namespace Changes

instance : Std.Refl (Changes dirs files) := ⟨fun _ => ⟨rfl, rfl, rfl, .refl _ _ _ _⟩⟩

theorem trans {w'' : Machine} (h : Changes dirs files w w') (h' : Changes dirs files w' w'') :
    Changes dirs files w w'' := by
  refine ⟨h'.here.trans h.here, h'.home.trans h.home, h'.searchPath.trans h.searchPath, fun q => ?_⟩
  have := h'.entries q
  rw [h.here] at this
  exact (h.entries q).trans this

instance : IsTrans Machine (Changes dirs files) := ⟨fun _ _ _ => trans⟩

theorem keeps (h : Changes dirs files w w') : w.files.Keeps w'.files := h.entries.keeps

/-- files away from the listed paths stay as they are, and none are added -/
theorem file_iff (h : Changes dirs files w w') {q : Place} (hq : ∀ p ∈ files, target w.here p ≠ q) (f : File) :
    w'.files.get? q = some (.file f) ↔ w.files.get? q = some (.file f) :=
  (h.entries q).file_iff hq f

/-- the same file is found later -/
theorem find (h : Changes dirs files w w') {f : File} (hfind : w.files.find w.here p = .ok (.file f))
    (hp : ∀ p' ∈ files, target w.here p' ≠ target w.here p) : w'.files.find w'.here p = .ok (.file f) := by
  obtain ⟨hfollows, hfile, hget⟩ := FileSystem.find_eq_file.1 hfind
  rw [h.here]
  exact FileSystem.find_eq_file.2 ⟨hfollows.mono h.keeps, hfile, (h.file_iff hp f).2 hget⟩

end Changes

/-! ## Single operations -/

theorem change_respects {op : FileSystem → Place → Except Fault FileSystem}
    (hop : ∀ {fs here fs'}, op fs here = .ok fs' → fs.Changes here dirs files fs') :
    Respects (Changes dirs files) (change op) := by
  intro w
  unfold runOn change
  split
  · rename_i fs' h
    exact ⟨rfl, rfl, rfl, hop h⟩
  · exact Std.Refl.refl w

theorem makeDirectory_respects (hp : p ∈ dirs) :
    Respects (Changes dirs files) (Host.makeDirectory p : StateM Machine _) :=
  change_respects fun h => FileSystem.makeDirectory_changes h hp

theorem write_respects (hp : p ∈ files) (content : ByteArray) :
    Respects (Changes dirs files) (Host.write p content : StateM Machine _) :=
  change_respects fun h => FileSystem.write_changes h hp

theorem copy_respects (hp : p ∈ files) (source : Path) :
    Respects (Changes dirs files) (Host.copy source p : StateM Machine _) :=
  change_respects fun h => FileSystem.copy_changes h hp

theorem run_respects (program : Path) {arguments : List String}
    (hlast : ∀ dest, arguments.getLast? = some dest → dest ∈ files) :
    Respects (Changes dirs files) (Host.run program arguments : StateM Machine _) := by
  intro w
  change Changes dirs files w (Machine.run program arguments w).2
  unfold Machine.run
  split
  · exact Std.Refl.refl w
  · exact ⟨rfl, rfl, rfl, FileSystem.afterRun_changes _ _ _ _ hlast⟩

end Machine

end RhythmChart.Storage
