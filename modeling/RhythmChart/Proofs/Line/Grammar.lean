/-
The grammar of a line and what its parts mean, without reading it from left to right.

A line is split at `;`. The first part, its blanks left out, is a sequence of items (`Spells`); each later part holds
an `=`. What a position means depends on the items before it: the nearest marker says whether it is a note or a bomb
(`noteOf`). In a strict dialect it must be licensed by a marker (`Licensed`). A line outside the grammar has a first
fault (`Refused`): the first malformed directive, or else the first flaw of the placing part after items that are in
order (`Flaw`).

The symbols of an alphabet are distinct, so each character starts at most one item (`classify_direction`,
`classify_position`, `symbol_cases`).
-/
import Mathlib.Tactic
import RhythmChart.Line

namespace RhythmChart.Line

/-! ## Items -/

/-- one item of the placing part of a line -/
inductive Item where
  | direction (d : Direction)
  | bomb
  | position (p : Position)
  /-- a wall between two corners, with the length that is written -/
  | wall (corner₁ corner₂ : Position) (length : Int)
  deriving DecidableEq, Repr

namespace Item

/-- whether an item says what the positions after it mean -/
def isMarker : Item → Bool
  | direction _ | bomb => true
  | position _ | wall _ _ _ => false

def isPosition : Item → Bool
  | position _ => true
  | direction _ | bomb | wall _ _ _ => false

end Item

/-- an optional sign and at least one digit -/
inductive Numeral : List Char → Int → Prop where
  | unsigned {digits : List Char} (some : digits ≠ []) (all : ∀ c ∈ digits, Text.isDigit c = true) :
      Numeral digits (Text.digitsValue digits)
  | plus {digits : List Char} (some : digits ≠ []) (all : ∀ c ∈ digits, Text.isDigit c = true) :
      Numeral ('+' :: digits) (Text.digitsValue digits)
  | minus {digits : List Char} (some : digits ≠ []) (all : ∀ c ∈ digits, Text.isDigit c = true) :
      Numeral ('-' :: digits) (-Text.digitsValue digits)

/-- a numeral of 32 bits -/
structure Length (text : List Char) (n : Int) : Prop where
  numeral : Numeral text n
  least : leastLength ≤ n
  most : n ≤ mostLength

/-- neither bracket is in the text -/
def Unbracketed (a : Alphabet) (text : List Char) : Prop := a.opening ∉ text ∧ a.closing ∉ text

/-- how items are written -/
inductive Spells (a : Alphabet) : List Item → List Char → Prop where
  | done : Spells a [] []
  | direction {c : Char} {d : Direction} {items : List Item} {cs : List Char} (symbol : a.decodeDirection? c = some d)
      (rest : Spells a items cs) : Spells a (.direction d :: items) (c :: cs)
  | bomb {items : List Item} {cs : List Char} (rest : Spells a items cs) : Spells a (.bomb :: items) (a.bomb :: cs)
  | position {c : Char} {p : Position} {items : List Item} {cs : List Char} (symbol : a.decodePosition? c = some p)
      (rest : Spells a items cs) : Spells a (.position p :: items) (c :: cs)
  | wall {c₁ c₂ : Char} {digits : List Char} {p₁ p₂ : Position} {n : Int} {items : List Item} {cs : List Char}
      (inside : Unbracketed a (c₁ :: c₂ :: digits)) (corner₁ : a.decodePosition? c₁ = some p₁)
      (corner₂ : a.decodePosition? c₂ = some p₂) (length : Length digits n) (rest : Spells a items cs) :
      Spells a (.wall p₁ p₂ n :: items) (a.opening :: (c₁ :: c₂ :: digits) ++ a.closing :: cs)

/-! ## Meaning -/

/-- the last marker among the items before a place -/
def nearestMarker (before : List Item) : Option Item := before.reverse.find? Item.isMarker

/-- what a position after the given items places -/
def noteOf (before : List Item) (p : Position) : Note :=
  match nearestMarker before with
  | some (.direction d) => .cut p d
  | _ => .bomb p

/-- the note that an item places, given the items before it -/
def noteAt : List Item × Item → Option Note
  | (before, .position p) => some (noteOf before p)
  | (_, .direction _) | (_, .bomb) | (_, .wall _ _ _) => none

/-- the notes in order, each item with those before it -/
def notes (items : List Item) : List Note := (items.inits.zip items).filterMap noteAt

/-- the wall that an item places -/
def wallAt : Item → Option Wall
  | .wall corner₁ corner₂ n => some (.between corner₁ corner₂ (Float.ofInt n))
  | .direction _ | .bomb | .position _ => none

/-- the walls in order -/
def walls (items : List Item) : List Wall := items.filterMap wallAt

/-- a marker stands before, and when it is a bomb marker no other position has used it -/
def Licensed (before : List Item) : Prop :=
  ∃ earlier marker between, before = earlier ++ marker :: between ∧ marker.isMarker = true ∧
    (∀ i ∈ between, i.isMarker = false) ∧ (marker = .bomb → ∀ i ∈ between, i.isPosition = false)

/-- in a strict dialect every position is licensed by the items before it -/
def Allowed (d : Dialect) (items : List Item) : Prop :=
  d.strict = true → ∀ before p after, items = before ++ .position p :: after → Licensed before

/-! ## Parts of a line -/

/-- the part before the first `;` -/
def placingPart (text : List Char) : List Char := (text.splitOn ';').headD []

/-- the parts after each `;` -/
def directiveParts (text : List Char) : List (List Char) := (text.splitOn ';').tail

/-- the trimmed text before the first `=` -/
def keyOf (part : List Char) : String := .ofList (Text.trim (part.takeWhile (· ≠ '=')))

/-- the trimmed text after the first `=` -/
def valueOf (part : List Char) : String := .ofList (Text.trim (part.dropWhile (· ≠ '=')).tail)

/-- the value of the last part with a key -/
def lastValue (parts : List (List Char)) (key : String) : Option String :=
  (parts.reverse.find? (keyOf · = key)).map valueOf

/-- the line is in the grammar, and these are the items of its placing part -/
structure Reads (d : Dialect) (text : List Char) (items : List Item) : Prop where
  directives : ∀ part ∈ directiveParts text, '=' ∈ part
  placing : Spells d.alphabet items (Text.unblanked (placingPart text))
  allowed : Allowed d items

/-! ## Faults -/

/-- what is wrong with a text after the given items -/
inductive Flaw (d : Dialect) (before : List Item) : List Char → Fault → Prop where
  | stray {c : Char} {rest : List Char} (symbol : c = d.alphabet.closing ∨ c ∉ d.alphabet.symbols) :
      Flaw d before (c :: rest) (.unrecognizedSymbol c)
  | unlicensed {c : Char} {p : Position} {rest : List Char} (strict : d.strict = true)
      (symbol : d.alphabet.decodePosition? c = some p) (license : ¬ Licensed before) :
      Flaw d before (c :: rest) (.positionBeforeDirection c)
  | nested {body rest : List Char} (inside : Unbracketed d.alphabet body) :
      Flaw d before (d.alphabet.opening :: body ++ d.alphabet.opening :: rest) .nestedWall
  | unclosed {body : List Char} (inside : Unbracketed d.alphabet body) :
      Flaw d before (d.alphabet.opening :: body) (.unclosedWall (.ofList body))
  | incomplete {body rest : List Char} (inside : Unbracketed d.alphabet body) (short : body.length < 2) :
      Flaw d before (d.alphabet.opening :: body ++ d.alphabet.closing :: rest) (.incompleteWall (.ofList body))
  | corner₁ {c₁ c₂ : Char} {digits rest : List Char} (inside : Unbracketed d.alphabet (c₁ :: c₂ :: digits))
      (symbol : d.alphabet.decodePosition? c₁ = none) :
      Flaw d before (d.alphabet.opening :: (c₁ :: c₂ :: digits) ++ d.alphabet.closing :: rest) (.unrecognizedSymbol c₁)
  | corner₂ {c₁ c₂ : Char} {p₁ : Position} {digits rest : List Char}
      (inside : Unbracketed d.alphabet (c₁ :: c₂ :: digits)) (corner₁ : d.alphabet.decodePosition? c₁ = some p₁)
      (symbol : d.alphabet.decodePosition? c₂ = none) :
      Flaw d before (d.alphabet.opening :: (c₁ :: c₂ :: digits) ++ d.alphabet.closing :: rest) (.unrecognizedSymbol c₂)
  | length {c₁ c₂ : Char} {p₁ p₂ : Position} {digits rest : List Char}
      (inside : Unbracketed d.alphabet (c₁ :: c₂ :: digits)) (corner₁ : d.alphabet.decodePosition? c₁ = some p₁)
      (corner₂ : d.alphabet.decodePosition? c₂ = some p₂) (numeral : ∀ n, ¬ Length digits n) :
      Flaw d before (d.alphabet.opening :: (c₁ :: c₂ :: digits) ++ d.alphabet.closing :: rest)
        (.invalidLength (.ofList digits))

/-- why a line is outside the grammar: its first fault, with directives before placements -/
inductive Refused (d : Dialect) (text : List Char) : Fault → Prop where
  | directive {before after : List (List Char)} {part : List Char}
      (parts : directiveParts text = before ++ part :: after) (earlier : ∀ part ∈ before, '=' ∈ part) (bare : '=' ∉ part) :
      Refused d text (.malformedDirective (.ofList (Text.trim part)))
  | placing {items : List Item} {cs rest : List Char} {fault : Fault}
      (directives : ∀ part ∈ directiveParts text, '=' ∈ part)
      (placing : Text.unblanked (placingPart text) = cs ++ rest) (spelled : Spells d.alphabet items cs)
      (allowed : Allowed d items) (flaw : Flaw d items rest fault) : Refused d text fault

/-! ## Symbols -/

section Symbols

variable {a : Alphabet} {c : Char}

theorem mem_directions {d : Direction} (h : a.decodeDirection? c = some d) : c ∈ a.directions := by
  obtain ⟨i, hi, _⟩ := Option.bind_eq_some_iff.1 h
  rw [← List.isSome_idxOf?, hi]
  rfl

theorem mem_positions {p : Position} (h : a.decodePosition? c = some p) : c ∈ a.positions := by
  obtain ⟨i, hi, _⟩ := Option.map_eq_some_iff.1 h
  rw [← List.isSome_idxOf?, hi]
  rfl

theorem decodePosition_of_mem (h : c ∈ a.positions) : ∃ p, a.decodePosition? c = some p := by
  obtain ⟨i, hi⟩ := Option.isSome_iff_exists.1 (List.isSome_idxOf?.2 h)
  exact ⟨_, by rw [Alphabet.decodePosition?, hi]; rfl⟩

theorem decodeDirection_of_mem (h : c ∈ a.directions) : ∃ d, a.decodeDirection? c = some d := by
  obtain ⟨i, hi⟩ := Option.isSome_iff_exists.1 (List.isSome_idxOf?.2 h)
  obtain ⟨hlt, _⟩ := List.idxOf?_eq_some_iff.1 hi
  rw [a.directions_length] at hlt
  have hplace : i < Direction.all.length := hlt
  refine ⟨Direction.all[i], ?_⟩
  rw [Alphabet.decodeDirection?, hi]
  exact List.getElem?_eq_getElem hplace

theorem ne_marks_of_mem (h : c ∈ a.positions ++ a.directions) : c ≠ a.bomb ∧ c ≠ a.opening ∧ c ≠ a.closing := by
  have hother := (List.nodup_append.1 a.distinct).2.2 c h
  exact ⟨hother _ (by simp), hother _ (by simp), hother _ (by simp)⟩

theorem not_mem_directions (h : c ∈ a.positions) : c ∉ a.directions := by
  intro hd
  have hnodup := (List.nodup_append.1 a.distinct).1
  exact (List.nodup_append.1 hnodup).2.2 c h c hd rfl

theorem marks_distinct (a : Alphabet) : a.opening ≠ a.bomb ∧ a.closing ≠ a.bomb ∧ a.closing ≠ a.opening := by
  have hmarks := (List.nodup_append.1 a.distinct).2.1
  simp only [List.nodup_cons, List.mem_cons, List.not_mem_nil, or_false, not_or] at hmarks
  obtain ⟨⟨hopening, hclosing⟩, hbrackets, _⟩ := hmarks
  exact ⟨Ne.symm hopening, Ne.symm hclosing, Ne.symm hbrackets⟩

theorem classify_direction {d : Direction} (h : a.decodeDirection? c = some d) :
    a.classify c = some (.direction d) := by
  obtain ⟨hbomb, hopening, hclosing⟩ := ne_marks_of_mem (List.mem_append_right a.positions (mem_directions h))
  rw [Alphabet.classify, if_neg hbomb, if_neg hopening, if_neg hclosing, h]

theorem classify_position {p : Position} (h : a.decodePosition? c = some p) : a.classify c = some (.position p) := by
  have hmem := mem_positions h
  obtain ⟨hbomb, hopening, hclosing⟩ := ne_marks_of_mem (List.mem_append_left a.directions hmem)
  have hdirection : a.decodeDirection? c = none := by
    rw [Alphabet.decodeDirection?, List.idxOf?_eq_none_iff.2 (not_mem_directions hmem)]
    rfl
  rw [Alphabet.classify, if_neg hbomb, if_neg hopening, if_neg hclosing, hdirection, h]
  rfl

theorem classify_bomb (a : Alphabet) : a.classify a.bomb = some .bomb := if_pos rfl

theorem classify_opening (a : Alphabet) : a.classify a.opening = some .opening := by
  rw [Alphabet.classify, if_neg (marks_distinct a).1, if_pos rfl]

theorem classify_closing (a : Alphabet) : a.classify a.closing = some .closing := by
  obtain ⟨_, hbomb, hopening⟩ := marks_distinct a
  rw [Alphabet.classify, if_neg hbomb, if_neg hopening, if_pos rfl]

theorem classify_other (h : c ∉ a.symbols) : a.classify c = none := by
  simp only [Alphabet.symbols, List.mem_append, List.mem_cons, List.not_mem_nil, or_false, not_or] at h
  obtain ⟨⟨hpositions, hdirections⟩, hbomb, hopening, hclosing⟩ := h
  have hdirection : a.decodeDirection? c = none := by
    rw [Alphabet.decodeDirection?, List.idxOf?_eq_none_iff.2 hdirections]
    rfl
  have hposition : a.decodePosition? c = none := by
    rw [Alphabet.decodePosition?, List.idxOf?_eq_none_iff.2 hpositions]
    rfl
  rw [Alphabet.classify, if_neg hbomb, if_neg hopening, if_neg hclosing, hdirection, hposition]
  rfl

/-- what a character can be at the start of an item -/
theorem symbol_cases (a : Alphabet) (c : Char) :
    (∃ d, a.decodeDirection? c = some d) ∨ c = a.bomb ∨ (∃ p, a.decodePosition? c = some p) ∨ c = a.opening ∨
      (c = a.closing ∨ c ∉ a.symbols) := by
  by_cases hc : c ∈ a.symbols
  · simp only [Alphabet.symbols, List.mem_append, List.mem_cons, List.not_mem_nil, or_false] at hc
    rcases hc with (hposition | hdirection) | hbomb | hopening | hclosing
    · exact .inr (.inr (.inl (decodePosition_of_mem hposition)))
    · exact .inl (decodeDirection_of_mem hdirection)
    · exact .inr (.inl hbomb)
    · exact .inr (.inr (.inr (.inl hopening)))
    · exact .inr (.inr (.inr (.inr (.inl hclosing))))
  · exact .inr (.inr (.inr (.inr (.inr hc))))

end Symbols

/-! ## Numerals -/

theorem not_all_digits {sign : Char} {digits : List Char} (hsign : Text.isDigit sign = false) :
    ¬ ∀ c ∈ sign :: digits, Text.isDigit c = true := by
  intro hall
  rw [hall sign List.mem_cons_self] at hsign
  cases hsign

theorem numeral_plus {digits : List Char} {n : Int} :
    Numeral ('+' :: digits) n ↔ (Text.readDigits digits).map Int.ofNat = some n := by
  rw [Option.map_eq_some_iff]
  constructor
  · intro h
    cases h with
    | unsigned _ all => exact absurd all (not_all_digits (by decide))
    | plus some all => exact ⟨_, Text.readDigits_eq_some.2 ⟨some, all, rfl⟩, rfl⟩
  · rintro ⟨m, hm, rfl⟩
    obtain ⟨hsome, hall, rfl⟩ := Text.readDigits_eq_some.1 hm
    exact .plus hsome hall

theorem numeral_minus {digits : List Char} {n : Int} :
    Numeral ('-' :: digits) n ↔ ((Text.readDigits digits).map fun m => -Int.ofNat m) = some n := by
  rw [Option.map_eq_some_iff]
  constructor
  · intro h
    cases h with
    | unsigned _ all => exact absurd all (not_all_digits (by decide))
    | minus some all => exact ⟨_, Text.readDigits_eq_some.2 ⟨some, all, rfl⟩, rfl⟩
  · rintro ⟨m, hm, rfl⟩
    obtain ⟨hsome, hall, rfl⟩ := Text.readDigits_eq_some.1 hm
    exact .minus hsome hall

theorem numeral_unsigned {digits : List Char} {n : Int} (hplus : ∀ rest, digits ≠ '+' :: rest)
    (hminus : ∀ rest, digits ≠ '-' :: rest) : Numeral digits n ↔ (Text.readDigits digits).map Int.ofNat = some n := by
  rw [Option.map_eq_some_iff]
  constructor
  · intro h
    cases h with
    | unsigned some all => exact ⟨_, Text.readDigits_eq_some.2 ⟨some, all, rfl⟩, rfl⟩
    | plus => exact absurd rfl (hplus _)
    | minus => exact absurd rfl (hminus _)
  · rintro ⟨m, hm, rfl⟩
    obtain ⟨hsome, hall, rfl⟩ := Text.readDigits_eq_some.1 hm
    exact .unsigned hsome hall

/-- **Lengths.** Reading a length finds the value of a numeral in the range, and nothing in any other text. -/
theorem readInteger_eq_some_iff {digits : List Char} {n : Int} :
    Text.readInteger leastLength mostLength digits = some n ↔ Length digits n := by
  have hlength : Length digits n ↔ Numeral digits n ∧ (leastLength ≤ n && n ≤ mostLength) = true := by
    rw [Bool.and_eq_true, decide_eq_true_eq, decide_eq_true_eq]
    exact ⟨fun h => ⟨h.numeral, h.least, h.most⟩, fun h => ⟨h.1, h.2.1, h.2.2⟩⟩
  unfold Text.readInteger
  rw [hlength, Option.filter_eq_some_iff]
  refine and_congr_left fun _ => ?_
  split
  · exact numeral_plus.symm
  · exact numeral_minus.symm
  · rename_i hplus hminus
    exact (numeral_unsigned (fun rest h => hplus rest h) (fun rest h => hminus rest h)).symm

/-! ## Splitting -/

theorem pieces_eq_splitOn (text : List Char) : Text.pieces ';' text = (placingPart text, directiveParts text) := by
  unfold placingPart directiveParts
  induction text with
  | nil => simp
  | cons c cs ih =>
    rw [Text.pieces, ih, List.splitOn_cons_eq_if_modifyHead]
    obtain ⟨first, rest, hsplit⟩ := List.exists_cons_of_ne_nil (List.splitOn_ne_nil ';' cs)
    by_cases hc : c = ';'
    · simp [hc, hsplit]
    · simp [hc, hsplit]

theorem parts_of_not_mem {text : List Char} (h : ';' ∉ text) : placingPart text = text ∧ directiveParts text = [] :=
  Prod.mk.inj ((pieces_eq_splitOn text).symm.trans (Text.pieces_of_not_mem h))

/-- the first `;` ends the placing part, and the rest is split on -/
theorem parts_append_mark {before : List Char} (h : ';' ∉ before) (after : List Char) :
    placingPart (before ++ ';' :: after) = before ∧
      directiveParts (before ++ ';' :: after) = placingPart after :: directiveParts after := by
  have hpieces := (pieces_eq_splitOn (before ++ ';' :: after)).symm.trans (Text.pieces_append_mark h after)
  rw [pieces_eq_splitOn] at hpieces
  exact Prod.mk.inj hpieces

end RhythmChart.Line
