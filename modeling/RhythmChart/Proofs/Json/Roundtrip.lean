/-
JSON values, written and read.

A value is writable when its strings and keys have a text and its numbers are regular (`Value.Writable`). Reading the
text of a writable value gives that value and leaves what follows it, if that cannot continue a number. The proof goes
along the value: a quoted text is read piece by piece, where each character was escaped to exactly one piece
(`readPieces?_escape`), and lists of elements and members are read one by one (`readElements?_render`,
`readMembers?_render`). Two steps for each character that was written are more than any part takes.

In an object whose keys are distinct every key is found (`fields?_record`).

Main result: `read?_render`.
-/
import Mathlib.Tactic
import RhythmChart.Proofs.Json.Number

namespace RhythmChart.Json

/-! ## Strings -/

/-- a piece that stands for one character, whatever comes after it -/
def Piece.Spells (p : Piece) (c : Char) : Prop := ∀ ps, joinPieces (p :: ps) = (joinPieces ps).map (c :: ·)

theorem spells_char (c : Char) : (Piece.char c).Spells c := fun _ => rfl

/-- a control is no surrogate, so it needs no partner -/
theorem spells_unit {c : Char} (h : c.toNat < 32) : (Piece.unit c.toNat).Spells c := by
  have hhigh : isHigh c.toNat = false := by
    simp [isHigh]
    omega
  have hlow : isLow c.toNat = false := by
    simp [isLow]
    omega
  intro ps
  cases ps with
  | nil => simp [joinPieces, hhigh, hlow]
  | cons p ps =>
    cases p with
    | char d => simp [joinPieces, hhigh, hlow]
    | unit n => simp [joinPieces, hhigh, hlow]

theorem hexValue?_hexChar : ∀ n < 16, hexValue? (hexChar n) = some n := by decide

/-- an escaped character is read as one piece, which spells it -/
theorem readPieces?_escape (c : Char) : ∃ p : Piece, p.Spells c ∧ ∀ fuel more,
    readPieces? (fuel + 1) (escape c ++ more) = (readPieces? fuel more).map fun (ps, rest) => (p :: ps, rest) := by
  by_cases hshort : c ∈ ['"', '\\', '\x08', '\x0c', '\n', '\r', '\t']
  · refine ⟨.char c, spells_char c, ?_⟩
    intro fuel more
    simp only [List.mem_cons, List.not_mem_nil, or_false] at hshort
    rcases hshort with rfl | rfl | rfl | rfl | rfl | rfl | rfl <;>
      simp [escape, readPieces?, shortEscape?, Option.map_eq_bind]
  simp only [List.mem_cons, List.not_mem_nil, or_false, not_or] at hshort
  obtain ⟨hquote, hslash, hb, hf, hn, hr, ht⟩ := hshort
  by_cases hcontrol : c.toNat < 32
  · refine ⟨.unit c.toNat, spells_unit hcontrol, ?_⟩
    intro fuel more
    have hfirst := hexValue?_hexChar (c.toNat / 16) (by omega)
    have hsecond := hexValue?_hexChar (c.toNat % 16) (by omega)
    have hzero : hexValue? '0' = some 0 := by decide
    have hvalue : c.toNat / 16 * 16 + c.toNat % 16 = c.toNat := by omega
    simp [escape, hquote, hslash, hb, hf, hn, hr, ht, hcontrol, readPieces?, readUnit?, hzero, hfirst, hsecond, hvalue,
      Option.map_eq_bind]
  · refine ⟨.char c, spells_char c, ?_⟩
    intro fuel more
    simp [escape, hquote, hslash, hb, hf, hn, hr, ht, hcontrol, readPieces?, Option.map_eq_bind]

/-- the pieces of a quoted text join to it -/
theorem readPieces?_quoted (s rest : List Char) : ∀ fuel, s.length < fuel →
    ∃ ps, readPieces? fuel (s.flatMap escape ++ '"' :: rest) = some (ps, rest) ∧ joinPieces ps = some s := by
  induction s with
  | nil =>
    intro fuel hfuel
    obtain ⟨fuel, rfl⟩ := Nat.exists_eq_add_one_of_ne_zero (Nat.ne_of_gt hfuel)
    exact ⟨[], rfl, rfl⟩
  | cons c s ih =>
    intro fuel hfuel
    obtain ⟨fuel, rfl⟩ := Nat.exists_eq_add_one_of_ne_zero (by omega : fuel ≠ 0)
    obtain ⟨p, hspells, hread⟩ := readPieces?_escape c
    obtain ⟨ps, hps, hjoin⟩ := ih fuel (by simpa using hfuel)
    refine ⟨p :: ps, ?_, ?_⟩
    · rw [List.flatMap_cons, List.append_assoc, hread, hps, Option.map_some]
    · rw [hspells, hjoin, Option.map_some]

/-- **Strings.** A text is read off its quoted form. -/
theorem readString?_quoted {s : List Char} {fuel : Nat} (h : s.length < fuel) (rest : List Char) :
    readString? fuel (s.flatMap escape ++ '"' :: rest) = some (some s, rest) := by
  obtain ⟨ps, hread, hjoin⟩ := readPieces?_quoted s rest fuel h
  simp [readString?, hread, hjoin]

theorem length_le_quoted (s : List Char) : s.length ≤ (s.flatMap escape).length := by
  have hescape : ∀ c, 1 ≤ (escape c).length := by
    intro c
    unfold escape
    repeat' split
    all_goals simp
  induction s with
  | nil => rfl
  | cons c s ih =>
    have hc := hescape c
    simp only [List.flatMap_cons, List.length_append, List.length_cons]
    omega

/-! ## Values -/

namespace Value

/-- a value whose strings and keys have a text and whose numbers are regular -/
inductive Writable : Value → Prop where
  | null : Writable null
  | bool (b : Bool) : Writable (bool b)
  | number {n : Numeral} (regular : n.Regular) : Writable (number n)
  | string (s : List Char) : Writable (string (some s))
  | array {vs : List Value} (all : ∀ v ∈ vs, Writable v) : Writable (array vs)
  | object {ms : List (Option (List Char) × Value)} (keys : ∀ m ∈ ms, m.1.isSome) (all : ∀ m ∈ ms, Writable m.2) :
    Writable (object ms)

/-- its text is read as the value, and what follows is left -/
def Reads (v : Value) : Prop :=
  ∀ fuel rest, 2 * v.render.length ≤ fuel → Ends rest → readValue? fuel (v.render ++ rest) = some (v, rest)

end Value

theorem skipGap_cons {c : Char} (h : isGap c = false) (rest : List Char) : skipGap (c :: rest) = c :: rest := by
  simp [skipGap, h]

/-- nothing but a number begins with a sign or a digit -/
theorem begins_numeral {c : Char} (h : c = '-' ∨ Text.isDigit c = true) :
    isGap c = false ∧ c ∉ ['n', 't', 'f', '"', '[', ']', '\x7b'] := by
  refine ⟨?_, ?_⟩
  · by_contra hgap
    simp only [isGap, Bool.not_eq_false, Bool.or_eq_true, decide_eq_true_eq] at hgap
    rcases hgap with ((rfl | rfl) | rfl) | rfl <;> exact absurd h (by decide)
  · intro hother
    simp only [List.mem_cons, List.not_mem_nil, or_false] at hother
    rcases hother with rfl | rfl | rfl | rfl | rfl | rfl | rfl <;> exact absurd h (by decide)

/-- the text of a writable value begins with neither a blank nor a bracket that closes -/
theorem Value.Writable.render_eq_cons {v : Value} (h : v.Writable) :
    ∃ c cs, v.render = c :: cs ∧ isGap c = false ∧ c ≠ ']' := by
  cases h with
  | null => exact ⟨'n', _, rfl, by decide, by decide⟩
  | bool b =>
    cases b with
    | false => exact ⟨'f', _, rfl, by decide, by decide⟩
    | true => exact ⟨'t', _, rfl, by decide, by decide⟩
  | number regular =>
    obtain ⟨c, cs, htext, hc⟩ := regular.text_eq_cons
    obtain ⟨hgap, hother⟩ := begins_numeral hc
    refine ⟨c, cs, by rw [Value.render, htext], hgap, ?_⟩
    rintro rfl
    simp at hother
  | string s => exact ⟨'"', _, rfl, by decide, by decide⟩
  | array => exact ⟨'[', _, by rw [Value.render, List.cons_append], by decide, by decide⟩
  | object => exact ⟨'\x7b', _, by rw [Value.render, List.cons_append], by decide, by decide⟩

theorem ends_cons {c : Char} (h : c = ',' ∨ c = ']' ∨ c = '\x7d') (rest : List Char) : Ends (c :: rest) := by
  intro d hd
  cases hd
  exact h

/-- elements are read one by one up to the bracket -/
theorem readElements?_render {vs : List Value} (reads : ∀ v ∈ vs, v.Reads) (hne : vs ≠ []) (rest : List Char) :
    ∀ fuel, 2 * (renderElements vs).length + 1 ≤ fuel →
      readElements? fuel (renderElements vs ++ ']' :: rest) = some (vs, rest) := by
  induction vs with
  | nil => exact absurd rfl hne
  | cons v vs ih =>
    intro fuel hfuel
    obtain ⟨fuel, rfl⟩ := Nat.exists_eq_add_one_of_ne_zero (by omega : fuel ≠ 0)
    have first := reads v List.mem_cons_self
    cases vs with
    | nil =>
      rw [renderElements] at hfuel ⊢
      rw [readElements?, first fuel _ (by omega) (ends_cons (by simp) _)]
      simp (disch := decide) [skipGap_cons]
    | cons w vs =>
      rw [renderElements, List.length_append, List.length_cons] at hfuel
      have others := ih (fun u hu => reads u (List.mem_cons_of_mem v hu)) (by simp) fuel (by omega)
      rw [renderElements, List.append_assoc, List.cons_append, readElements?,
        first fuel _ (by omega) (ends_cons (by simp) _)]
      simp (disch := decide) [skipGap_cons, others]

/-- a key and its value are read, up to the mark after them -/
theorem readMember {k : List Char} {v : Value} (reads : v.Reads) {fuel : Nat}
    (enough : 2 * ((quote k).length + v.render.length) ≤ fuel) {c : Char} (hc : c = ',' ∨ c = ']' ∨ c = '\x7d')
    (rest : List Char) :
    readString? fuel (k.flatMap escape ++ '"' :: ':' :: (v.render ++ c :: rest)) =
        some (some k, ':' :: (v.render ++ c :: rest)) ∧
      readValue? fuel (v.render ++ c :: rest) = some (v, c :: rest) := by
  have hk := length_le_quoted k
  simp only [quote, List.length_append, List.length_cons] at enough
  exact ⟨readString?_quoted (by omega) _, reads fuel _ (by omega) (ends_cons hc rest)⟩

/-- members are read one by one up to the brace -/
theorem readMembers?_render {ms : List (Option (List Char) × Value)} (keys : ∀ m ∈ ms, m.1.isSome)
    (reads : ∀ m ∈ ms, m.2.Reads) (hne : ms ≠ []) (rest : List Char) :
    ∀ fuel, 2 * (renderMembers ms).length + 1 ≤ fuel →
      readMembers? fuel (renderMembers ms ++ '\x7d' :: rest) = some (ms, rest) := by
  induction ms with
  | nil => exact absurd rfl hne
  | cons m ms ih =>
    intro fuel hfuel
    obtain ⟨fuel, rfl⟩ := Nat.exists_eq_add_one_of_ne_zero (by omega : fuel ≠ 0)
    obtain ⟨key, v⟩ := m
    obtain ⟨k, rfl⟩ := Option.isSome_iff_exists.1 (keys _ List.mem_cons_self)
    have first : v.Reads := reads _ List.mem_cons_self
    cases ms with
    | nil =>
      simp only [renderMembers, Option.getD_some, List.length_append, List.length_cons] at hfuel
      obtain ⟨hname, hvalue⟩ := readMember first (show 2 * ((quote k).length + _) ≤ fuel by omega)
        (.inr (.inr rfl)) rest
      simp (disch := decide) [renderMembers, quote, readMembers?, skipGap_cons, hname, hvalue]
    | cons m ms =>
      simp only [renderMembers, Option.getD_some, List.length_append, List.length_cons] at hfuel
      have others := ih (fun u hu => keys u (List.mem_cons_of_mem _ hu))
        (fun u hu => reads u (List.mem_cons_of_mem _ hu)) (by simp) fuel (by omega)
      obtain ⟨hname, hvalue⟩ := readMember first (show 2 * ((quote k).length + _) ≤ fuel by omega)
        (.inl rfl) (renderMembers (m :: ms) ++ '\x7d' :: rest)
      simp (disch := decide) [renderMembers, quote, readMembers?, skipGap_cons, hname, hvalue, others]

theorem readValue?_numeral {n : Numeral} (h : n.Regular) (fuel : Nat) {rest : List Char} (hrest : Ends rest) :
    readValue? (fuel + 1) (n.text ++ rest) = some (.number n, rest) := by
  obtain ⟨c, cs, htext, hc⟩ := h.text_eq_cons
  have hread := readNumeral?_text h hrest
  obtain ⟨hgap, hother⟩ := begins_numeral hc
  simp only [List.mem_cons, List.not_mem_nil, or_false, not_or] at hother
  rw [htext, List.cons_append] at hread ⊢
  rw [readValue?, skipGap_cons hgap]
  simp [hread, hother]

/-- **Values.** Every writable value is read off its text. -/
theorem Value.Writable.reads {v : Value} (h : v.Writable) : v.Reads := by
  induction h with
  | null =>
    intro fuel rest hfuel _
    obtain ⟨fuel, rfl⟩ := Nat.exists_eq_add_one_of_ne_zero (by simp [render] at hfuel; omega : fuel ≠ 0)
    rfl
  | bool b =>
    intro fuel rest hfuel _
    obtain ⟨fuel, rfl⟩ := Nat.exists_eq_add_one_of_ne_zero (by cases b <;> simp [render] at hfuel <;> omega : fuel ≠ 0)
    cases b <;> rfl
  | number regular =>
    intro fuel rest hfuel hrest
    obtain ⟨c, cs, htext, _⟩ := regular.text_eq_cons
    rw [render, htext, List.length_cons] at hfuel
    obtain ⟨fuel, rfl⟩ := Nat.exists_eq_add_one_of_ne_zero (by omega : fuel ≠ 0)
    exact readValue?_numeral regular fuel hrest
  | string s =>
    intro fuel rest hfuel _
    have hs := length_le_quoted s
    simp only [render, quote, Option.getD_some, List.length_append, List.length_cons] at hfuel
    obtain ⟨fuel, rfl⟩ := Nat.exists_eq_add_one_of_ne_zero (by omega : fuel ≠ 0)
    have hread := readString?_quoted (show s.length < fuel by omega) rest
    simp (disch := decide) [render, quote, readValue?, skipGap_cons, hread]
  | @array vs all ih =>
    intro fuel rest hfuel _
    simp only [render, List.length_append, List.length_cons, List.length_nil] at hfuel
    obtain ⟨fuel, rfl⟩ := Nat.exists_eq_add_one_of_ne_zero (by omega : fuel ≠ 0)
    rw [render, List.append_assoc, List.cons_append, readValue?, skipGap_cons (by decide)]
    cases vs with
    | nil => rfl
    | cons v vs =>
      have hread := readElements?_render ih (by simp) rest fuel (by omega)
      obtain ⟨c, cs, hrender, hgap, hclose⟩ := (all v List.mem_cons_self).render_eq_cons
      have helements : ∃ cs, renderElements (v :: vs) = c :: cs := by
        cases vs with
        | nil => exact ⟨cs, by rw [renderElements, hrender]⟩
        | cons w vs => exact ⟨_, by rw [renderElements, hrender, List.cons_append]⟩
      obtain ⟨cs', hcs'⟩ := helements
      rw [hcs'] at hread
      simp only [hcs', List.cons_append, List.nil_append, skipGap_cons hgap] at hread ⊢
      simp [hread, hclose]
  | @object ms keys all ih =>
    intro fuel rest hfuel _
    simp only [render, List.length_append, List.length_cons, List.length_nil] at hfuel
    obtain ⟨fuel, rfl⟩ := Nat.exists_eq_add_one_of_ne_zero (by omega : fuel ≠ 0)
    rw [render, List.append_assoc, List.cons_append, readValue?, skipGap_cons (by decide)]
    cases ms with
    | nil => rfl
    | cons m ms =>
      have hread := readMembers?_render keys ih (by simp) rest fuel (by omega)
      have hmembers : ∃ cs, renderMembers (m :: ms) = '"' :: cs := by
        cases ms with
        | nil => exact ⟨_, by rw [renderMembers, quote, List.cons_append, List.cons_append]⟩
        | cons u ms => exact ⟨_, by rw [renderMembers, quote, List.cons_append, List.cons_append, List.cons_append]⟩
      obtain ⟨cs, hcs⟩ := hmembers
      rw [hcs] at hread
      simp only [hcs, List.cons_append, List.nil_append, skipGap_cons (show isGap '"' = false by decide)] at hread ⊢
      simp [hread]

/-- **JSON texts read back.** The text of a writable value is read as that value. -/
theorem Value.read?_render {v : Value} (h : v.Writable) : Value.read? v.render = some v := by
  have hread := h.reads (2 * v.render.length + 2) [] (by omega) (by simp [Ends])
  rw [List.append_nil] at hread
  simp [Value.read?, hread, skipGap]

/-! ## Taking values apart -/

namespace Value

theorem text_writable (s : String) : (text s).Writable := .string s.toList

theorem float_writable (x : Float) : (float x).Writable := by
  have hplaces : ∀ c ∈ layout.wholePlaces, Text.isDigit c = true := by
    intro c hc
    rw [List.mem_singleton.1 hc]
    decide
  unfold float
  split
  · rename_i hn
    exact .number (Layout.numeral?_regular hplaces hn)
  · exact .null

theorem integer_writable (i : Int) : (integer i).Writable := .number (integer_regular i)

theorem array_writable {α : Type} {value : α → Value} (h : ∀ a, (value a).Writable) (as : List α) :
    (array (as.map value)).Writable := by
  apply Writable.array
  intro v hv
  obtain ⟨a, _, rfl⟩ := List.mem_map.1 hv
  exact h a

theorem record_writable {members : List (String × Value)} (h : ∀ m ∈ members, m.2.Writable) :
    (record members).Writable := by
  apply Writable.object
  · intro m hm
    obtain ⟨_, _, rfl⟩ := List.mem_map.1 hm
    rfl
  · intro m hm
    obtain ⟨m, hmem, rfl⟩ := List.mem_map.1 hm
    exact h m hmem

theorem text?_text (s : String) : (text s).text? = some s := by
  simp [text, text?]

theorem choice?_text {α : Type} (ofName? : String → Option α) (s : String) : (text s).choice? ofName? = ofName? s := by
  simp [text, choice?]

/-- a finite float reads back when its text does -/
theorem float?_float {x : Float} (finite : x.isFinite = true) (h : ReadsBack x) : (float x).float? = some x := by
  obtain ⟨b, hb⟩ := Magnitude.ofFloat_of_isFinite finite
  have hnumeral : layout.numeral? x = some (layout.numeral (signBit x) (b.shortest layout.tie)) := by
    rw [Layout.numeral?, hb]
  rw [float, hnumeral]
  exact h _ hnumeral

theorem list?_map {α : Type} {value : α → Value} {element? : Value → Option α} {as : List α}
    (h : ∀ a ∈ as, element? (value a) = some a) : (array (as.map value)).list? element? = some as := by
  rw [list?]
  induction as with
  | nil => rfl
  | cons a as ih =>
    have hrest := ih fun b hb => h b (List.mem_cons_of_mem a hb)
    simp [List.mapM_cons, h a List.mem_cons_self, hrest]

/-- **Records.** Where the keys of a record are distinct, each key is found. -/
theorem fields?_record {members : List (String × Value)} (distinct : (members.map (·.1)).Nodup) (keys : List String) :
    (record members).fields? keys = some (keys.map fun key => members.lookup key) := by
  have once : ∀ key, occurrences key (members.map fun m => (some m.1.toList, m.2)) ≤ 1 := by
    intro key
    have hcount : occurrences key (members.map fun m => (some m.1.toList, m.2)) = (members.map (·.1)).count key := by
      simp only [occurrences, List.countP_map, List.count]
      apply List.countP_congr
      intro m _
      simp [String.toList_inj]
    rw [hcount]
    exact List.nodup_iff_count_le_one.1 distinct key
  have found : ∀ key, (members.map fun m => (some m.1.toList, m.2)).lookup (some key.toList) = members.lookup key := by
    intro key
    clear distinct once
    induction members with
    | nil => rfl
    | cons m members ih =>
      obtain ⟨name, v⟩ := m
      by_cases hkey : key = name
      · simp [hkey]
      · have hchars : (some key.toList == some name.toList) = false := by simpa [String.toList_inj] using hkey
        have hnames : (key == name) = false := by simpa using hkey
        simp only [List.map_cons, List.lookup_cons, hchars, hnames]
        exact ih
  simp [record, fields?, once, found]

/-- a record that is read by its own keys gives its values in order -/
theorem fields?_record_self {members : List (String × Value)} {keys : List String} (names : members.map (·.1) = keys)
    (distinct : keys.Nodup) : (record members).fields? keys = some (members.map fun m => some m.2) := by
  subst names
  rw [fields?_record distinct, List.map_map]
  congr 1
  apply List.map_congr_left
  intro m hm
  obtain ⟨before, after, rfl⟩ := List.append_of_mem hm
  apply List.lookup_eq_some_iff.2
  refine ⟨before, after, rfl, ?_⟩
  intro other hother
  rw [List.map_append, List.map_cons, List.nodup_append] at distinct
  have hne : other.1 ≠ m.1 := distinct.2.2 _ (List.mem_map_of_mem hother) _ List.mem_cons_self
  simpa using hne.symm

end Value

end RhythmChart.Json
