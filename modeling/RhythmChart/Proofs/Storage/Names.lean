/-
What a path says by its text: the names it goes through, and whether it starts at the root.

A text is read as a directory with a plain name behind it (`Path.exists_plain`). `join` puts one more name behind the
names of a directory (`Path.names_join`), and `withExtension` changes the last name only (`Path.names_withExtension`).
-/
import Mathlib.Data.List.TakeWhile
import Mathlib.Tactic
import RhythmChart.Storage.Path

namespace RhythmChart.Storage.Path

/-- a name that stands for something below a directory -/
structure Plain (n : List Char) : Prop where
  unslashed : '/' ∉ n
  nonempty : n ≠ []
  ne_here : n ≠ ['.']
  ne_above : n ≠ ['.', '.']

/-- a text behind which a name can be put: there is nothing, or a slash at the end -/
def Open (dir : List Char) : Prop := dir = [] ∨ ∃ above, dir = above ++ ['/']

instance (n : List Char) : Decidable (Plain n) :=
  decidable_of_iff ('/' ∉ n ∧ n ≠ [] ∧ n ≠ ['.'] ∧ n ≠ ['.', '.'])
    ⟨fun ⟨h₁, h₂, h₃, h₄⟩ => ⟨h₁, h₂, h₃, h₄⟩, fun ⟨h₁, h₂, h₃, h₄⟩ => ⟨h₁, h₂, h₃, h₄⟩⟩

/-! ## Pieces and names -/

theorem pieces_append_slash (a b : List Char) :
    pieces (.ofList (a ++ '/' :: b)) = pieces (.ofList a) ++ pieces (.ofList b) := by
  simp only [pieces, String.toList_ofList]
  induction a with
  | nil => rfl
  | cons c a ih =>
    simp only [List.cons_append, Text.pieces, List.cons.injEq] at ih ⊢
    by_cases hc : c = '/'
    · simp [hc, ih]
    · simp [hc, ih]

theorem pieces_of_unslashed {n : List Char} (h : '/' ∉ n) : pieces (.ofList n) = [n] := by
  simp only [pieces, String.toList_ofList, Text.pieces_of_not_mem h]

theorem names_append_slash (a b : List Char) :
    names (.ofList (a ++ '/' :: b)) = names (.ofList a) ++ names (.ofList b) := by
  simp only [names, pieces_append_slash, List.filter_append]

theorem Plain.names {n : List Char} (h : Plain n) : names (.ofList n) = [n] := by
  rw [Path.names, pieces_of_unslashed h.unslashed]
  simp [h.nonempty, h.ne_here]

section
variable {dir n : List Char}

/-- the last piece of a path is the one behind its directory -/
theorem getLast?_pieces (hdir : Open dir) (hn : '/' ∉ n) : (pieces (.ofList (dir ++ n))).getLast? = some n := by
  obtain rfl | ⟨above, rfl⟩ := hdir
  · rw [List.nil_append, pieces_of_unslashed hn]
    rfl
  · rw [List.append_assoc, List.singleton_append, pieces_append_slash, pieces_of_unslashed hn]
    simp

theorem names_behind (hdir : Open dir) (hn : Plain n) : names (.ofList (dir ++ n)) = names (.ofList dir) ++ [n] := by
  obtain rfl | ⟨above, rfl⟩ := hdir
  · exact hn.names
  · rw [List.append_assoc, List.singleton_append, names_append_slash, names_append_slash, hn.names]
    have : names (.ofList []) = [] := rfl
    rw [this, List.append_nil]

theorem isAbsolute_behind (hdir : Open dir) (hn : '/' ∉ n) :
    isAbsolute (.ofList (dir ++ n)) = isAbsolute (.ofList dir) := by
  simp only [isAbsolute, String.toList_ofList]
  obtain rfl | ⟨above, rfl⟩ := hdir
  · cases n with
    | nil => rfl
    | cons c n =>
      have : c ≠ '/' := fun h => hn (by simp [h])
      simp [this]
  · cases above <;> simp

end

/-! ## Joining -/

theorem open_of_last {cs : List Char} (h : cs.getLast?.all (· = '/') = true) : Open cs := by
  rcases List.eq_nil_or_concat cs with hnil | ⟨above, c, hc⟩
  · exact .inl hnil
  · rw [hc] at h
    refine .inr ⟨above, ?_⟩
    simpa [hc] using h

theorem join_behind (dir p : Path) : ∃ front, Open front ∧ join dir p = .ofList (front ++ p.toList) := by
  unfold join
  split_ifs with habsolute hlast
  · exact ⟨[], .inl rfl, by simp⟩
  · exact ⟨dir.toList, open_of_last hlast, String.toList_inj.1 (by simp)⟩
  · exact ⟨dir.toList ++ ['/'], .inr ⟨_, rfl⟩, String.toList_inj.1 (by simp)⟩

/-- what `join` puts a plain name behind -/
theorem join_plain (dir : Path) {n : String} (hn : Plain n.toList) :
    ∃ front, Open front ∧ join dir n = .ofList (front ++ n.toList) ∧ names (.ofList front) = names dir ∧
      isAbsolute (.ofList front) = isAbsolute dir := by
  have hrelative : isAbsolute n = false := by
    have h := isAbsolute_behind (.inl rfl) hn.unslashed
    rw [List.nil_append, String.ofList_toList] at h
    simpa [isAbsolute] using h
  unfold join
  simp only [hrelative, Bool.false_eq_true, if_false]
  by_cases hlast : dir.toList.getLast?.all (· = '/') = true
  · rw [if_pos hlast]
    exact ⟨dir.toList, open_of_last hlast, String.toList_inj.1 (by simp), by simp, by simp⟩
  · rw [if_neg hlast]
    refine ⟨dir.toList ++ ['/'], .inr ⟨_, rfl⟩, String.toList_inj.1 (by simp), ?_, ?_⟩
    · rw [names_append_slash]
      simp [names, pieces]
    · simp only [isAbsolute, String.toList_ofList]
      cases hcs : dir.toList with
      | nil => simp [hcs] at hlast
      | cons c cs => simp

/-- a joined path goes through one more name -/
theorem names_join (dir : Path) {n : String} (hn : Plain n.toList) : names (join dir n) = names dir ++ [n.toList] := by
  obtain ⟨front, hfront, heq, hnames, _⟩ := join_plain dir hn
  rw [heq, names_behind hfront hn, hnames]

theorem isAbsolute_join (dir : Path) {n : String} (hn : Plain n.toList) :
    isAbsolute (join dir n) = isAbsolute dir := by
  obtain ⟨front, hfront, heq, _, habsolute⟩ := join_plain dir hn
  rw [heq, isAbsolute_behind hfront hn.unslashed, habsolute]

theorem join_ne (dir : Path) {n : String} (hn : Plain n.toList) : join dir n ≠ dir := by
  intro h
  have := names_join dir hn
  rw [h] at this
  simp at this

/-! ## Extensions -/

/-- a text is a directory, or nothing, and the name behind it -/
theorem exists_behind (cs : List Char) : ∃ dir n, cs = dir ++ n ∧ Open dir ∧ '/' ∉ n := by
  refine ⟨(cs.reverse.dropWhile (· ≠ '/')).reverse, (cs.reverse.takeWhile (· ≠ '/')).reverse, ?_, ?_, ?_⟩
  · rw [← List.reverse_append, List.takeWhile_append_dropWhile, List.reverse_reverse]
  · cases hdrop : cs.reverse.dropWhile (· ≠ '/') with
    | nil => exact .inl rfl
    | cons c rest =>
      have hc := List.head?_dropWhile_not (· ≠ '/') cs.reverse
      rw [hdrop] at hc
      refine .inr ⟨rest.reverse, ?_⟩
      simpa using hc
  · intro hmem
    simpa using List.mem_takeWhile_imp (p := fun c => decide (c ≠ '/')) (List.mem_reverse.1 hmem)

/-- a path that can be one of a file ends in a plain name -/
theorem exists_plain {p : Path} (h : wantsDirectory p = false) :
    ∃ dir n, p = .ofList (dir ++ n) ∧ Open dir ∧ Plain n := by
  obtain ⟨dir, n, hcs, hdir, hn⟩ := exists_behind p.toList
  have hp : p = .ofList (dir ++ n) := by rw [← hcs, String.ofList_toList]
  rw [hp, wantsDirectory, getLast?_pieces hdir hn] at h
  obtain ⟨⟨hempty, hhere⟩, habove⟩ := by simpa using h
  exact ⟨dir, n, hp, hdir, hn, hempty, hhere, habove⟩

theorem lead_behind {dir n : List Char} (hdir : Open dir) (hn : Plain n) :
    ∃ rest, dir = lead (dir ++ n) ++ rest ∧ Open rest := by
  obtain rfl | ⟨above, rfl⟩ := hdir
  · refine ⟨[], ?_, .inl rfl⟩
    rw [List.nil_append, List.append_nil]
    unfold lead
    split
    · exact absurd hn.unslashed (by simp)
    · exact absurd rfl hn.ne_here
    · exact absurd hn.unslashed (by simp)
    · rfl
  · rw [List.append_assoc, List.singleton_append]
    unfold lead
    split
    · rename_i heq
      cases above with
      | nil => exact ⟨[], rfl, .inl rfl⟩
      | cons c above =>
        cases heq
        exact ⟨above ++ ['/'], rfl, .inr ⟨_, rfl⟩⟩
    · rename_i heq
      cases above <;> simp at heq
    · rename_i heq
      obtain _ | ⟨c, above⟩ := above
      · simp at heq
      · obtain ⟨rfl, -⟩ := by simpa using heq
        exact ⟨above ++ ['/'], rfl, .inr ⟨above, rfl⟩⟩
    · exact ⟨above ++ ['/'], rfl, .inr ⟨_, rfl⟩⟩

theorem takeWhile_behind {dir n : List Char} (hdir : Open dir) (hn : '/' ∉ n) :
    (dir ++ n).reverse.takeWhile (· ≠ '/') = n.reverse := by
  have hall : ∀ c ∈ n.reverse, decide (c ≠ '/') = true := fun c hc =>
    decide_eq_true fun h => hn (h ▸ List.mem_reverse.1 hc)
  rw [List.reverse_append, List.takeWhile_append_of_pos hall]
  obtain rfl | ⟨above, rfl⟩ := hdir <;> simp

theorem settle_behind {dir n : List Char} (hdir : Open dir) (hn : Plain n) (fuel : Nat) :
    settle (fuel + 1) (dir ++ n).reverse = (dir ++ n).reverse := by
  have hne : ((dir ++ n).reverse).isEmpty = false := by simp [hn.nonempty]
  rw [settle]
  simp only [takeWhile_behind hdir hn.unslashed, hne]
  have hnil : n.reverse ≠ [] := by simpa using hn.nonempty
  have hdot : n.reverse ≠ ['.'] := fun h => hn.ne_here (by simpa using congrArg List.reverse h)
  simp [hnil, hdot]

/-- the name that takes the place of another when its extension is changed -/
def renamed (n : List Char) (extension : String) : List Char :=
  ((cutExtension? n).map (·.1)).getD n ++ '.' :: extension.toList

theorem cutExtension?_some {n stem old : List Char} (h : cutExtension? n = some (stem, old)) :
    stem = n.take (n.length - (old.length + 1)) ∧ old.length + 1 ≤ n.length ∧ stem ≠ [] := by
  simp only [cutExtension?, Option.ite_none_left_eq_some, not_or, Option.some.injEq, Prod.mk.injEq] at h
  obtain ⟨⟨hlength, hne⟩, hstem, hold⟩ := h
  have hle := (List.takeWhile_sublist (· ≠ '.') (l := n.reverse)).length_le
  rw [← List.length_reverse, hold, List.length_reverse] at hle
  rw [hold] at hlength hne hstem
  exact ⟨hstem.symm, by omega, hstem ▸ hne⟩

theorem reversedNames_behind {dir n : List Char} (hdir : Open dir) (hn : Plain n) :
    ∃ rest, dir = lead (dir ++ n) ++ rest ∧ Open rest ∧ reversedNames (dir ++ n) = (rest ++ n).reverse := by
  obtain ⟨rest, hlead, hrest⟩ := lead_behind hdir hn
  refine ⟨rest, hlead, hrest, ?_⟩
  have hdrop : (dir ++ n).drop (lead (dir ++ n)).length = rest ++ n := by
    generalize lead (dir ++ n) = first at hlead
    subst hlead
    simp
  obtain ⟨fuel, hfuel⟩ : ∃ fuel, (dir ++ n).length = fuel + 1 :=
    Nat.exists_eq_add_one.2 (List.length_pos_iff.2 (by simp [hn.nonempty]))
  rw [reversedNames, hdrop, hfuel, settle_behind hrest hn]

theorem fileName?_behind {dir n : List Char} (hdir : Open dir) (hn : Plain n) :
    fileName? (.ofList (dir ++ n)) = some n := by
  obtain ⟨rest, -, hrest, hreversed⟩ := reversedNames_behind hdir hn
  simp only [fileName?, String.toList_ofList, hreversed, takeWhile_behind hrest hn.unslashed]
  simp [hn.nonempty, hn.ne_above]

theorem withExtension_behind {dir n : List Char} (hdir : Open dir) (hn : Plain n) (extension : String) :
    withExtension (.ofList (dir ++ n)) extension = .ofList (dir ++ renamed n extension) := by
  obtain ⟨rest, hlead, hrest, hreversed⟩ := reversedNames_behind hdir hn
  unfold withExtension renamed
  rw [fileName?_behind hdir hn]
  simp only [String.toList_ofList, hreversed]
  cases hcut : cutExtension? n with
  | none =>
    rw [List.drop_zero, List.reverse_reverse, ← List.append_assoc, ← hlead]
    exact String.toList_inj.1 (by simp)
  | some cut =>
    obtain ⟨stem, old⟩ := cut
    obtain ⟨hstem, hlength, -⟩ := cutExtension?_some hcut
    have hdrop : ((rest ++ n).reverse.drop (old.length + 1)).reverse = rest ++ stem := by
      rw [List.drop_reverse, List.reverse_reverse, hstem, List.length_append, Nat.add_sub_assoc hlength,
        List.take_length_add_append]
    rw [hdrop, ← List.append_assoc, ← hlead]
    exact String.toList_inj.1 (by simp)

theorem Plain.renamed {n : List Char} (hn : Plain n) {extension : String} (hslash : '/' ∉ extension.toList)
    (hne : extension.toList ≠ []) : Plain (renamed n extension) := by
  obtain ⟨stem, hstem, hsub⟩ : ∃ stem, ((cutExtension? n).map (·.1)).getD n = stem ∧ stem ≠ [] ∧ stem ⊆ n := by
    refine ⟨_, rfl, ?_⟩
    cases hcut : cutExtension? n with
    | none => exact ⟨hn.nonempty, fun _ hc => hc⟩
    | some cut =>
      obtain ⟨htake, -, hne⟩ := cutExtension?_some hcut
      refine ⟨hne, fun c (hc : c ∈ cut.1) => ?_⟩
      rw [htake] at hc
      exact List.mem_of_mem_take hc
  have hlength : 3 ≤ (Path.renamed n extension).length := by
    have h₁ := List.length_pos_iff.2 hsub.1
    have h₂ := List.length_pos_iff.2 hne
    simp only [Path.renamed, hstem, List.length_append, List.length_cons]
    omega
  refine ⟨?_, ?_, ?_, ?_⟩
  · simp only [Path.renamed, hstem, List.mem_append, List.mem_cons, not_or]
    exact ⟨fun hmem => hn.unslashed (hsub.2 hmem), by decide, hslash⟩
  all_goals
    intro h
    rw [h] at hlength
    simp at hlength

/-- another extension changes the last name of a file's path -/
theorem names_withExtension {p : Path} (hp : wantsDirectory p = false) (extension : String)
    (hslash : '/' ∉ extension.toList) (hne : extension.toList ≠ []) :
    ∃ above n, Plain n ∧ names p = above ++ [n] ∧ names (withExtension p extension) = above ++ [renamed n extension] ∧
      isAbsolute (withExtension p extension) = isAbsolute p := by
  obtain ⟨dir, n, rfl, hdir, hn⟩ := exists_plain hp
  have hrenamed := hn.renamed hslash hne
  rw [withExtension_behind hdir hn]
  refine ⟨names (.ofList dir), n, hn, names_behind hdir hn, names_behind hdir hrenamed, ?_⟩
  rw [isAbsolute_behind hdir hrenamed.unslashed, isAbsolute_behind hdir hn.unslashed]

theorem suffix_renamed (n : List Char) (extension : String) : '.' :: extension.toList <:+ renamed n extension :=
  List.suffix_append _ _

/-- a path seen from a directory, or from nowhere, that can be one of a file ends in the same name -/
theorem names_of_extension {p source : Path} {front extension : List Char} (hfront : Open front)
    (hsource : source = .ofList (front ++ p.toList)) (hextension : extension? p = some extension)
    (hfile : wantsDirectory source = false) :
    ∃ above n, Plain n ∧ names source = above ++ [n] ∧ (cutExtension? n).map (·.2) = some extension := by
  obtain ⟨dir, n, hp, hdir, hslash⟩ := exists_behind p.toList
  have hopen : Open (front ++ dir) := by
    obtain rfl | ⟨above, rfl⟩ := hdir
    · rwa [List.append_nil]
    · exact .inr ⟨front ++ above, (List.append_assoc _ _ _).symm⟩
  rw [hp, ← List.append_assoc] at hsource
  have hn : Plain n := by
    rw [hsource, wantsDirectory, getLast?_pieces hopen hslash] at hfile
    obtain ⟨⟨hempty, hhere⟩, habove⟩ := by simpa using hfile
    exact ⟨hslash, hempty, hhere, habove⟩
  refine ⟨names (.ofList (front ++ dir)), n, hn, ?_, ?_⟩
  · rw [hsource, names_behind hopen hn]
  · have hname : fileName? p = some n := by
      rw [← String.ofList_toList (s := p), hp]
      exact fileName?_behind hdir hn
    rwa [extension?, hname] at hextension

end RhythmChart.Storage.Path
