/-
Where paths lead.

There are no links, so the place a path leads to follows from its names alone (`target`); what stands on the way only
decides whether the path can be followed (`FileSystem.Follows`). Each operation on a tree is described by the two:
`find_eq_file`, `write_eq_ok`, `makeDirectory_ok`. A path that can be followed still can be after changes that leave
every directory in place (`Follows.mono`).
-/
import Mathlib.Tactic
import RhythmChart.Proofs.Effects
import RhythmChart.Proofs.Storage.Names
import RhythmChart.Storage.FileSystem

namespace RhythmChart.Storage

/-! ## The place of a path -/

/-- the place one name further; `..` leads up -/
def Place.next (q : Place) (name : Name) : Place := if name = ['.', '.'] then q.dropLast else q ++ [name]

/-- the place where a path starts -/
def start (here : Place) (p : Path) : Place := if Path.isAbsolute p then [] else here

/-- the place a path leads to, whatever stands there -/
def target (here : Place) (p : Path) : Place := (Path.names p).foldl Place.next (start here p)

theorem target_of_names {here : Place} {p : Path} {above : List Name} {n : Name} (h : Path.names p = above ++ [n])
    (hn : Path.Plain n) : target here p = above.foldl Place.next (start here p) ++ [n] := by
  rw [target, h, List.foldl_concat]
  exact if_neg hn.ne_above

theorem target_join (here : Place) (dir : Path) {n : String} (hn : Path.Plain n.toList) :
    target here (Path.join dir n) = target here dir ++ [n.toList] := by
  rw [target_of_names (Path.names_join dir hn) hn, target, start, start, Path.isAbsolute_join dir hn]

/-- different names in one directory are different places -/
theorem target_join_inj {here : Place} {dir : Path} {m n : String} (hm : Path.Plain m.toList)
    (hn : Path.Plain n.toList) : target here (Path.join dir m) = target here (Path.join dir n) ↔ m = n := by
  rw [target_join here dir hm, target_join here dir hn, List.append_cancel_left_eq, List.singleton_inj,
    String.toList_inj]

namespace FileSystem

variable {fs fs' : FileSystem} {here q : Place} {p : Path}

/-! ## Following -/

/-- a name that can be passed -/
def Fits (name : Name) : Prop := name = ['.', '.'] ∨ (String.ofList name).utf8ByteSize ≤ 255

/-- names lead from a place on through directories -/
def Leads (fs : FileSystem) : Place → List Name → Prop
  | _, [] => True
  | q, name :: rest => Fits name ∧ fs.get? (q.next name) = some .directory ∧ fs.Leads (q.next name) rest

/-- a path can be followed, whether or not something stands at its end -/
structure Follows (fs : FileSystem) (here : Place) (p : Path) : Prop where
  path : checkPath p = .ok ()
  through : fs.Leads (start here p) (Path.names p).dropLast
  last : ∀ name, (Path.names p).getLast? = some name → Fits name

theorem step_eq_ok {name : Name} {w : Walk} :
    fs.step (fs.walkTo q) name = .ok w ↔ Fits name ∧ w = fs.walkTo (q.next name) := by
  unfold step Fits Place.next
  split_ifs with hup hlong
  · rw [tail_walkTo]
    simp [hup, eq_comm]
  · simp [hup, hlong]
  · rw [walkTo_append]
    simp [Nat.le_of_not_lt hlong, eq_comm]

theorem enter_eq_ok {names : List Name} {w : Walk} :
    fs.enter (fs.walkTo q) names = .ok w ↔ fs.Leads q names ∧ w = fs.walkTo (names.foldl Place.next q) := by
  induction names generalizing q with
  | nil => simp [enter, Leads, eq_comm]
  | cons name rest ih =>
    rw [enter, Leads]
    cases hstep : fs.step (fs.walkTo q) name with
    | error f =>
      have hlong : ¬ Fits name := fun h => by
        rw [step_eq_ok.2 ⟨h, rfl⟩] at hstep
        cases hstep
      simp [hlong]
    | ok next =>
      obtain ⟨hfits, rfl⟩ := step_eq_ok.1 hstep
      simp only [found?_walkTo]
      cases hfound : fs.get? (q.next name) with
      | none => simp
      | some e =>
        cases e with
        | file f => simp
        | directory => simpa [hfits] using ih

theorem follow_eq_ok {w : Walk} :
    fs.follow here p = .ok w ↔ fs.Follows here p ∧ w = fs.walkTo (target here p) := by
  have horigin : fs.origin here p = fs.walkTo (start here p) := rfl
  have hfollows : fs.Follows here p ↔ checkPath p = .ok () ∧ fs.Leads (start here p) (Path.names p).dropLast ∧
      ∀ name, (Path.names p).getLast? = some name → Fits name :=
    ⟨fun ⟨path, through, last⟩ => ⟨path, through, last⟩, fun ⟨path, through, last⟩ => ⟨path, through, last⟩⟩
  rw [follow, bind_eq_ok_iff, hfollows, target, horigin]
  rcases List.eq_nil_or_concat' (Path.names p) with hnil | ⟨above, name, hnames⟩
  · rw [hnil]
    constructor
    · rintro ⟨⟨⟩, hcheck, hw⟩
      exact ⟨⟨hcheck, trivial, fun _ h => by cases h⟩, (Except.ok.inj hw).symm⟩
    · rintro ⟨⟨hcheck, -, -⟩, rfl⟩
      exact ⟨(), hcheck, rfl⟩
  · simp only [hnames, List.dropLast_concat, List.getLast?_concat, List.foldl_concat, bind_eq_ok_iff, enter_eq_ok]
    constructor
    · rintro ⟨⟨⟩, hcheck, _, ⟨hleads, rfl⟩, hstep⟩
      obtain ⟨hfits, rfl⟩ := step_eq_ok.1 hstep
      exact ⟨⟨hcheck, hleads, fun _ h => Option.some.inj h ▸ hfits⟩, rfl⟩
    · rintro ⟨⟨hcheck, hleads, hlast⟩, rfl⟩
      exact ⟨(), hcheck, _, ⟨hleads, rfl⟩, step_eq_ok.2 ⟨hlast name rfl, rfl⟩⟩

theorem locate_eq_ok : fs.locate here p = .ok q ↔ fs.Follows here p ∧ q = target here p := by
  simp only [locate, bind_eq_ok_iff, follow_eq_ok, and_assoc]
  constructor
  · rintro ⟨_, hfollows, rfl, hplace⟩
    rw [place_walkTo] at hplace
    exact ⟨hfollows, (Except.ok.inj hplace).symm⟩
  · rintro ⟨hfollows, rfl⟩
    refine ⟨_, hfollows, rfl, ?_⟩
    rw [place_walkTo]
    rfl

/-! ## What is found -/

theorem find_eq_file {f : File} :
    fs.find here p = .ok (.file f) ↔
      fs.Follows here p ∧ Path.wantsDirectory p = false ∧ fs.get? (target here p) = some (.file f) := by
  simp only [find, bind_eq_ok_iff, follow_eq_ok]
  constructor
  · rintro ⟨_, ⟨hfollows, rfl⟩, hfound⟩
    rw [found?_walkTo] at hfound
    split at hfound
    · cases hfound
    · rename_i hget
      split_ifs at hfound with hfile
      cases hfound
      exact ⟨hfollows, by simpa using hfile, hget⟩
    · cases hfound
  · rintro ⟨hfollows, hfile, hget⟩
    refine ⟨_, ⟨hfollows, rfl⟩, ?_⟩
    rw [found?_walkTo, hget, hfile]
    rfl

theorem read_eq_ok {content : ByteArray} :
    fs.read here p = .ok content ↔ ∃ f, fs.find here p = .ok (.file f) ∧ f.content = content := by
  rw [read, bind_eq_ok_iff]
  constructor
  · rintro ⟨_ | _, hfind, hcontent⟩
    · exact ⟨_, hfind, Except.ok.inj hcontent⟩
    · cases hcontent
  · rintro ⟨f, hfind, rfl⟩
    exact ⟨_, hfind, rfl⟩

theorem write_eq_ok {f : File} :
    fs.write here p f = .ok fs' ↔
      fs.Follows here p ∧ Path.wantsDirectory p = false ∧ fs.get? (target here p) ≠ some .directory ∧
        fs' = fs.put (target here p) (.file f) := by
  simp only [write, bind_eq_ok_iff, locate_eq_ok]
  constructor
  · rintro ⟨_, ⟨hfollows, rfl⟩, hput⟩
    split_ifs at hput with hfile
    · obtain ⟨_, hthrow, _⟩ := bind_eq_ok_iff.1 hput
      cases hthrow
    · split at hput
      · cases hput
      · rename_i hentry
        exact ⟨hfollows, by simpa using hfile, hentry, (Except.ok.inj hput).symm⟩
  · rintro ⟨hfollows, hfile, hentry, rfl⟩
    refine ⟨_, ⟨hfollows, rfl⟩, ?_⟩
    rw [hfile, if_neg (by simp)]
    split
    · rename_i hdirectory
      exact absurd hdirectory hentry
    · rfl

/-- a new directory stands where nothing stood -/
theorem makeDirectory_ok (h : fs.makeDirectory here p = .ok fs') :
    fs.get? (target here p) = none ∧ fs' = fs.put (target here p) .directory := by
  unfold makeDirectory at h
  split_ifs at h with hdots
  · simp only [bind_eq_ok_iff] at h
    obtain ⟨_, _, _, _, _, hthrow, _⟩ := h
    cases hthrow
  · obtain ⟨_, hlocate, hput⟩ := bind_eq_ok_iff.1 h
    obtain ⟨-, rfl⟩ := locate_eq_ok.1 hlocate
    split at hput
    · cases hput
    · rename_i hnone
      exact ⟨hnone, (Except.ok.inj hput).symm⟩

/-! ## Later -/

/-- every directory of one tree is one of another -/
def Keeps (fs fs' : FileSystem) : Prop := ∀ q, fs.get? q = some .directory → fs'.get? q = some .directory

theorem Leads.mono (hkeeps : fs.Keeps fs') {names : List Name} (h : fs.Leads q names) : fs'.Leads q names := by
  induction names generalizing q with
  | nil => trivial
  | cons name rest ih => exact ⟨h.1, hkeeps _ h.2.1, ih h.2.2⟩

/-- a path can still be followed when all directories are in place -/
theorem Follows.mono (hkeeps : fs.Keeps fs') (h : fs.Follows here p) : fs'.Follows here p :=
  ⟨h.path, h.through.mono hkeeps, h.last⟩

end FileSystem

end RhythmChart.Storage
