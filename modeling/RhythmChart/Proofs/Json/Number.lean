/-
Numbers in JSON, written and read.

A numeral is regular when its text follows the grammar of JSON numbers (`Numeral.Regular`). Reading takes exactly the
text of a regular numeral, as long as what follows cannot continue a number (`readNumeral?_text`). Everything that is
written as a number is regular: integers (`integer_regular`) and the floats that have digits (`numeral?_regular`),
because the shortest digits of a float that is not zero do not begin with a zero (`shortest_ne_zero`).

Integers read back as they are (`integer?_integer`). Floats are read quickly rather than exactly, so that one reads
back is a property of the float (`ReadsBack`).
-/
import Mathlib
import RhythmChart.Json.Decode

namespace RhythmChart

/-! ## Digits -/

namespace Text

/-- the first digit is zero only in zero itself -/
theorem head?_digitsOf {n : Nat} (h : n ≠ 0) : (digitsOf n).head? ≠ some '0' := by
  have last : ∀ fuel n, n ≠ 0 → n < 10 ^ fuel → (digitsFrom fuel n).getLast? ≠ some '0' := by
    intro fuel
    induction fuel with
    | zero =>
      intro n hn hlt
      omega
    | succ fuel ih =>
      intro n hn hlt
      unfold digitsFrom
      split
      · rename_i hsmall
        have hdigit : ∀ d < 10, d ≠ 0 → digitChar d ≠ '0' := by decide
        rw [Nat.mod_eq_of_lt hsmall]
        simpa using hdigit n hsmall hn
      · have htail : digitsFrom fuel (n / 10) ≠ [] := by
          cases fuel with
          | zero => omega
          | succ fuel => simp [digitsFrom]
        rw [List.getLast?_cons_of_ne_nil htail]
        exact ih (n / 10) (by omega) (by omega)
  rw [digitsOf, List.head?_reverse]
  apply last _ n h
  calc n < 2 ^ (n.log2 + 1) := Nat.lt_log2_self
    _ ≤ 10 ^ (n.log2 + 1) := Nat.pow_le_pow_left (by decide) _

/-- digits end where the rest begins, unless that is a digit too -/
theorem takeWhile_digits {ds rest : List Char} (hds : ∀ c ∈ ds, isDigit c = true)
    (hrest : ∀ c, rest.head? = some c → isDigit c = false) :
    (ds ++ rest).takeWhile isDigit = ds ∧ (ds ++ rest).dropWhile isDigit = rest := by
  have hstop : rest.takeWhile isDigit = [] ∧ rest.dropWhile isDigit = rest := by
    cases rest with
    | nil => exact ⟨rfl, rfl⟩
    | cons c rest => simp [hrest c rfl]
  rw [List.takeWhile_append_of_pos hds, List.dropWhile_append_of_pos hds, hstop.1, hstop.2, List.append_nil]
  exact ⟨rfl, rfl⟩

end Text

/-! ## Regular numerals -/

namespace Numeral

/-- no exponent, or a letter, a sign and at least one digit -/
inductive ExponentText : List Char → Prop where
  | none : ExponentText []
  | signed {sign : Char} {digits : List Char} (isSign : sign = '+' ∨ sign = '-') (some : digits ≠ [])
      (all : ∀ c ∈ digits, Text.isDigit c = true) : ExponentText ('e' :: sign :: digits)

/-- the text of the numeral is one JSON number -/
structure Regular (n : Numeral) : Prop where
  whole_ne_nil : n.whole ≠ []
  whole_digits : ∀ c ∈ n.whole, Text.isDigit c = true
  /-- a whole part of several digits does not begin with zero -/
  leading : 1 < n.whole.length → n.whole.head? ≠ some '0'
  places_digits : ∀ c ∈ n.places, Text.isDigit c = true
  exponent : ExponentText n.exponent

/-- a regular numeral begins with its sign or with a digit -/
theorem Regular.text_eq_cons {n : Numeral} (h : n.Regular) :
    ∃ c cs, n.text = c :: cs ∧ (c = '-' ∨ Text.isDigit c = true) := by
  obtain ⟨c, cs, hwhole⟩ := List.exists_cons_of_ne_nil h.whole_ne_nil
  have hdigit : Text.isDigit c = true := h.whole_digits c (by rw [hwhole]; exact List.mem_cons_self)
  unfold text
  rw [hwhole]
  cases n.negative with
  | true => exact ⟨'-', _, rfl, .inl rfl⟩
  | false => exact ⟨c, _, rfl, .inr hdigit⟩

end Numeral

namespace Json

/-- what follows begins with a comma or a closing bracket, or there is nothing more -/
def Ends (rest : List Char) : Prop := ∀ c, rest.head? = some c → c = ',' ∨ c = ']' ∨ c = '\x7d'

/-- it cannot go on with digits, a point or an exponent -/
theorem Ends.head {rest : List Char} (h : Ends rest) {c : Char} (hc : rest.head? = some c) :
    Text.isDigit c = false ∧ c ≠ '.' ∧ c ≠ 'e' ∧ c ≠ 'E' := by
  rcases h c hc with rfl | rfl | rfl <;> decide

theorem readExponent?_append {exponent rest : List Char} (h : Numeral.ExponentText exponent) (hrest : Ends rest) :
    readExponent? (exponent ++ rest) = some (exponent, rest) := by
  cases h with
  | none =>
    cases rest with
    | nil => rfl
    | cons c rest =>
      obtain ⟨_, _, he, hE⟩ := hrest.head rfl
      simp [readExponent?, he, hE]
  | @signed sign digits isSign some all =>
    obtain ⟨htake, hdrop⟩ := Text.takeWhile_digits all fun c hc => (hrest.head hc).1
    have hcount : digits.isEmpty = false := by simpa using some
    rcases isSign with rfl | rfl
    · simp [readExponent?, htake, hdrop, hcount]
    · simp [readExponent?, htake, hdrop, hcount]

theorem readPlaces?_append {places rest : List Char} (hplaces : ∀ c ∈ places, Text.isDigit c = true)
    (hrest : ∀ c, rest.head? = some c → Text.isDigit c = false ∧ c ≠ '.') :
    readPlaces? ((if places.isEmpty then [] else '.' :: places) ++ rest) = some (places, rest) := by
  cases places with
  | nil =>
    cases rest with
    | nil => rfl
    | cons c rest => simp [readPlaces?, (hrest c rfl).2]
  | cons p places =>
    obtain ⟨htake, hdrop⟩ := Text.takeWhile_digits hplaces fun c hc => (hrest c hc).1
    rw [List.cons_append] at htake hdrop
    simp [readPlaces?, htake, hdrop]

/-- a number is read part by part -/
theorem readNumeral?_parts {n : Numeral} (h : n.Regular) {unsigned fraction tail rest : List Char}
    (whole : unsigned.takeWhile Text.isDigit = n.whole) (after : unsigned.dropWhile Text.isDigit = fraction)
    (places : readPlaces? fraction = some (n.places, tail)) (exponent : readExponent? tail = some (n.exponent, rest)) :
    readNumeral? ((if n.negative then ['-'] else []) ++ unsigned) = some (n, rest) := by
  have unsignedHead : ∀ cs, unsigned ≠ '-' :: cs := by
    rintro cs rfl
    exact h.whole_ne_nil whole.symm
  have wholeOk : (n.whole.isEmpty || (decide (n.whole.length > 1) && decide (n.whole.head? = some '0'))) = false := by
    simpa [h.whole_ne_nil] using h.leading
  unfold readNumeral?
  split
  rename_i negative cs hsign
  have hparts : negative = n.negative ∧ cs = unsigned := by
    cases hnegative : n.negative with
    | true => simpa [hnegative, eq_comm] using hsign
    | false => simpa [hnegative, unsignedHead, eq_comm] using hsign
  obtain ⟨rfl, rfl⟩ := hparts
  simp only [whole, after, wholeOk, places]
  simp [exponent]

/-- **Numerals.** Reading takes the text of a regular numeral and leaves what follows. -/
theorem readNumeral?_text {n : Numeral} (h : n.Regular) {rest : List Char} (hrest : Ends rest) :
    readNumeral? (n.text ++ rest) = some (n, rest) := by
  have tailHead : ∀ c, (n.exponent ++ rest).head? = some c → Text.isDigit c = false ∧ c ≠ '.' := by
    intro c hc
    have exponent := h.exponent
    generalize n.exponent = e at exponent hc
    cases exponent with
    | none => exact ⟨(hrest.head hc).1, (hrest.head hc).2.1⟩
    | signed =>
      cases hc
      decide
  have fractionHead : ∀ c, ((if n.places.isEmpty then [] else '.' :: n.places) ++ (n.exponent ++ rest)).head? = some c →
      Text.isDigit c = false := by
    intro c hc
    split at hc
    · exact (tailHead c hc).1
    · cases hc
      decide
  obtain ⟨whole, after⟩ := Text.takeWhile_digits h.whole_digits fractionHead
  have parts := readNumeral?_parts h whole after (readPlaces?_append h.places_digits tailHead)
    (readExponent?_append h.exponent hrest)
  simpa only [Numeral.text, List.append_assoc] using parts

/-! ## Integers -/

namespace Value

theorem integer_regular (i : Int) : (Numeral.mk (i < 0) (Text.digitsOf i.natAbs) [] []).Regular where
  whole_ne_nil := Text.digitsOf_ne_nil _
  whole_digits := fun _ => Text.isDigit_of_mem_digitsOf
  leading := by
    intro hlength
    apply Text.head?_digitsOf
    intro hzero
    have hdigits : Text.digitsOf 0 = ['0'] := rfl
    simp [hzero, hdigits] at hlength
  places_digits := by
    intro c hc
    cases hc
  exponent := .none

/-- an integer reads back as it is -/
theorem integer?_integer (i : Int) : (integer i).integer? = some i := by
  simp only [integer, integer?, Numeral.integer?, Numeral.isWhole, List.isEmpty_nil, Bool.and_self, if_true,
    Text.digitsValue_digitsOf]
  by_cases hneg : i < 0
  · have hne : i.natAbs ≠ 0 := by omega
    have habs : -(i.natAbs : Int) = i := by omega
    simp only [hneg, decide_true, if_true, habs, hne, if_false]
  · have habs : (i.natAbs : Int) = i := by omega
    simp [hneg, habs]

theorem below?_natural {bound n : Nat} (h : n < bound) : (natural n).below? bound = some n := by
  unfold below? natural
  rw [integer?_integer]
  simp [h]

theorem byte?_natural (b : UInt8) : (natural b.toNat).byte? = some b := by
  unfold byte?
  rw [below?_natural b.toNat_lt]
  simp

theorem word?_natural (w : UInt32) : (natural w.toNat).word? = some w := by
  unfold word?
  rw [below?_natural w.toNat_lt]
  simp

theorem int?_integer (i : Int32) : (integer i.toInt).int? = some i := by
  unfold int?
  rw [integer?_integer]
  have hleast := i.le_toInt
  have hmost := i.toInt_lt
  have hrange : -2147483648 ≤ i.toInt ∧ i.toInt ≤ 2147483647 := by omega
  simp only [hrange, and_self, if_true, Int32.ofInt_toInt]

end Value

/-! ## Floats -/

end Json

namespace Magnitude

/-- the exponent field of a float is full when all its bits are -/
theorem unpackExponent_eq_ones_iff {x : Float} :
    @Float.Model.UnpackedFloat.unpackExponent .binary64 x.toModel.toBits.toBitVec = -1#_ ↔
      x.toBits.toNat / leastNormal % 2048 = 2047 := by
  have hlsb : @Float.Model.UnpackedFloat.unpackExponent .binary64 x.toModel.toBits.toBitVec =
      BitVec.extractLsb' 52 11 x.toBits.toBitVec := rfl
  have hleast : leastNormal = 4503599627370496 := rfl
  rw [hlsb, ← BitVec.toNat_inj, BitVec.extractLsb'_toNat]
  simp [Nat.shiftRight_eq_div_pow, hleast]

/-- a finite float is a binary number -/
theorem ofFloat_of_isFinite {x : Float} (h : x.isFinite = true) : ∃ b, ofFloat x = finite b := by
  unfold ofFloat
  simp only
  split
  · rename_i hfield
    exfalso
    simp only [Float.isFinite, Float.Model.isFinite, Float.Model.unpack, Float.Model.UnpackedFloat.unpack] at h
    rw [if_pos (unpackExponent_eq_ones_iff.2 hfield)] at h
    split at h <;> cases h
  · split
    · exact ⟨_, rfl⟩
    · exact ⟨_, rfl⟩

/-- only a finite float is one -/
theorem isFinite_of_ofFloat {x : Float} {b : Binary} (h : ofFloat x = finite b) : x.isFinite = true := by
  have hfield : x.toBits.toNat / leastNormal % 2048 ≠ 2047 := by
    intro hfield
    unfold ofFloat at h
    simp only [hfield, if_true] at h
    split at h <;> cases h
  simp only [Float.isFinite, Float.Model.isFinite, Float.Model.unpack, Float.Model.UnpackedFloat.unpack]
  rw [if_neg (mt unpackExponent_eq_ones_iff.1 hfield)]
  split
  · split <;> rfl
  · rfl

end Magnitude

namespace Binary

variable {tie : Tie} {b : Binary} {grid : Int} {n : Nat}

/-- a neighbour that is taken rounds to the number -/
theorem covers_of_onGrid (h : b.onGrid tie grid = some n) : b.covers grid n = true := by
  unfold onGrid at h
  simp only at h
  split at h
  · cases h
  · rename_i hbelow _
    cases h
    exact hbelow
  · rename_i habove
    cases h
    exact habove
  · rename_i hbelow habove
    split at h
    · cases h
      exact hbelow
    · split at h
      · cases h
        exact habove
      · split at h
        · cases h
          split
          · exact hbelow
          · exact habove
        · cases h
          exact habove

/-- only zero is covered by zero -/
theorem ne_zero_of_covers (hb : b.mantissa ≠ 0) (h : b.covers grid n = true) : n ≠ 0 := by
  rintro rfl
  have hunit : 0 < (b.quarter grid).1 := by
    unfold quarter
    exact Nat.mul_pos (Nat.pow_pos (by decide)) (Nat.pow_pos (by decide))
  have hreach : b.reachDown ≤ 2 := by
    unfold reachDown
    split <;> omega
  have hlow : 0 < (4 * b.mantissa - b.reachDown) * (b.quarter grid).1 := Nat.mul_pos (by omega) hunit
  simp only [covers, Nat.zero_mul] at h
  split at h
  · simp at h
    omega
  · simp at h

/-- **The shortest digits** of a number that is not zero do not write zero. -/
theorem shortest_ne_zero (hb : b.mantissa ≠ 0) : (b.shortest tie).digits ≠ 0 := by
  have search : ∀ fuel grid, (b.shortestFrom tie fuel grid).digits ≠ 0 := by
    intro fuel
    induction fuel with
    | zero =>
      intro grid
      exact hb
    | succ fuel ih =>
      intro grid
      unfold shortestFrom
      split
      · rename_i n hn
        have hne := ne_zero_of_covers hb (covers_of_onGrid hn)
        simp only [Decimal.trimZeros]
        split
        · change n / 10 ≠ 0
          omega
        · exact hne
      · exact ih (grid - 1)
  rw [shortest, if_neg hb]
  exact search 17 b.leading

end Binary

namespace Layout

/-- digits that may be written: no leading zero unless they are zero itself, which is not scaled -/
structure Writes (d : Decimal) : Prop where
  zero : d.digits = 0 → d.exponent = 0

theorem head?_digits {n : Nat} {extra : List Char} (h : n ≠ 0) : (Text.digitsOf n ++ extra).head? ≠ some '0' := by
  rw [List.head?_append_of_ne_nil _ (Text.digitsOf_ne_nil n)]
  exact Text.head?_digitsOf h

theorem positionalNumeral_regular {l : Layout} (hplaces : ∀ c ∈ l.wholePlaces, Text.isDigit c = true) (negative : Bool)
    {d : Decimal} (h : Writes d) : (l.positionalNumeral negative (Text.digitsOf d.digits) d.exponent).Regular := by
  have hdigits : ∀ c ∈ Text.digitsOf d.digits, Text.isDigit c = true := fun _ => Text.isDigit_of_mem_digitsOf
  have hzeros : ∀ count, ∀ c ∈ List.replicate count '0', Text.isDigit c = true := by
    intro count c hc
    rw [List.eq_of_mem_replicate hc]
    decide
  have hlong : 1 < (Text.digitsOf d.digits).length → d.digits ≠ 0 := by
    intro hlength hzero
    have hone : Text.digitsOf 0 = ['0'] := rfl
    simp [hzero, hone] at hlength
  unfold positionalNumeral
  split
  · rename_i hexponent
    refine ⟨by simp [Text.digitsOf_ne_nil], ?_, ?_, hplaces, .none⟩
    · intro c hc
      rcases List.mem_append.1 hc with hc | hc
      · exact hdigits c hc
      · exact hzeros _ c hc
    · intro hlength
      apply head?_digits
      intro hzero
      have hone : Text.digitsOf 0 = ['0'] := rfl
      simp [hzero, h.zero hzero, hone] at hlength
  · rename_i hexponent
    simp only
    have hne : d.digits ≠ 0 := fun hzero => hexponent (h.zero hzero).ge
    split
    · rename_i hshort
      refine ⟨?_, fun c hc => hdigits c (List.mem_of_mem_take hc), ?_, fun c hc => hdigits c (List.mem_of_mem_drop hc), .none⟩
      · simp [Text.digitsOf_ne_nil]
        omega
      · intro _
        rw [List.head?_take, if_neg (by omega)]
        exact Text.head?_digitsOf hne
    · refine ⟨by simp, fun c hc => hzeros 1 c hc, by simp, ?_, .none⟩
      intro c hc
      rcases List.mem_append.1 hc with hc | hc
      · exact hzeros _ c hc
      · exact hdigits c hc

theorem exponentNumeral_regular (negative : Bool) (n : Nat) (leading : Int) :
    (exponentNumeral negative (Text.digitsOf n) leading).Regular := by
  have hdigits : ∀ n, ∀ c ∈ Text.digitsOf n, Text.isDigit c = true := fun _ _ => Text.isDigit_of_mem_digitsOf
  unfold exponentNumeral
  refine ⟨by simp [Text.digitsOf_ne_nil], fun c hc => hdigits n c (List.mem_of_mem_take hc), ?_,
    fun c hc => hdigits n c (List.mem_of_mem_drop hc), .signed ?_ (Text.digitsOf_ne_nil _) (hdigits _)⟩
  · intro hlength
    simp at hlength
  · split
    · exact .inr rfl
    · exact .inl rfl

/-- **Floats are written as JSON numbers**, when the places of whole numbers are digits. -/
theorem numeral?_regular {l : Layout} (hplaces : ∀ c ∈ l.wholePlaces, Text.isDigit c = true) {x : Float} {n : Numeral}
    (h : l.numeral? x = some n) : n.Regular := by
  unfold numeral? at h
  split at h
  · rename_i b _
    cases h
    have hwrites : Writes (b.shortest l.tie) := by
      constructor
      intro hzero
      by_cases hb : b.mantissa = 0
      · simp [Binary.shortest, hb]
      · exact absurd hzero (Binary.shortest_ne_zero hb)
    unfold numeral
    simp only
    split
    · exact positionalNumeral_regular hplaces _ hwrites
    · exact exponentNumeral_regular _ _ _
  · cases h

end Layout

namespace Json

/-- the text of the float, if it has one, is read as that float -/
def ReadsBack (x : Float) : Prop := ∀ n ∈ layout.numeral? x, n.float? = some x

instance (x : Float) : Decidable (ReadsBack x) := inferInstanceAs (Decidable (∀ n ∈ layout.numeral? x, n.float? = some x))

example : ReadsBack (-0.1) := by decide +kernel

end Json

end RhythmChart
