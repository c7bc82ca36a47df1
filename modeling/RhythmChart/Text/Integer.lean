/-
Integers in decimal: digits of ASCII only, a sign where the type has one, and a range.

`readNatural` takes an optional `+`, `readInteger` an optional `+` or `-`; both refuse a text without a digit, a
text with anything but digits after the sign, and a value outside the given range. `digitsOf` writes a natural
number without leading zeros, and its digits have that number's value (`digitsValue_digitsOf`).
-/
namespace RhythmChart.Text

/-- whether a character is one of the ten ASCII digits -/
def isDigit (c : Char) : Bool := 48 ≤ c.toNat && c.toNat ≤ 57

/-- the value of a digit -/
def digitValue (c : Char) : Nat := c.toNat - 48

/-- the digit of a value below ten -/
def digitChar (d : Nat) : Char := Char.ofNat (48 + d)

/-- the number that digits write, most significant first -/
def digitsValue (ds : List Char) : Nat := ds.foldl (fun n c => 10 * n + digitValue c) 0

/-- the value of a text of at least one digit and nothing else -/
def readDigits (cs : List Char) : Option Nat :=
  if cs.isEmpty then none else if cs.all isDigit then some (digitsValue cs) else none

/-- a natural number up to `most`, with an optional `+` -/
def readNatural (most : Nat) (cs : List Char) : Option Nat :=
  let digits := match cs with
    | '+' :: rest => rest
    | _ => cs
  (readDigits digits).filter (· ≤ most)

/-- an integer from `least` to `most`, with an optional sign -/
def readInteger (least most : Int) (cs : List Char) : Option Int :=
  let value := match cs with
    | '+' :: rest => (readDigits rest).map Int.ofNat
    | '-' :: rest => (readDigits rest).map fun n => -Int.ofNat n
    | _ => (readDigits cs).map Int.ofNat
  value.filter fun i => least ≤ i && i ≤ most

/-- the digits of a number, least significant first; `fuel` bounds their count -/
def digitsFrom : Nat → Nat → List Char
  | 0, _ => []
  | fuel + 1, n => digitChar (n % 10) :: (if n < 10 then [] else digitsFrom fuel (n / 10))

/-- the digits of a number, without leading zeros -/
def digitsOf (n : Nat) : List Char := (digitsFrom (n.log2 + 1) n).reverse

/-- an integer in decimal, with `-` in front of a negative one -/
def integerText (i : Int) : List Char :=
  if i < 0 then '-' :: digitsOf i.natAbs else digitsOf i.natAbs

/-- the largest number of 64 bits -/
def most64 : Nat := Nat.pow 2 64 - 1

/-! ## Small facts -/

theorem isDigit_iff {c : Char} : isDigit c = true ↔ 48 ≤ c.toNat ∧ c.toNat ≤ 57 := by simp [isDigit]

theorem readDigits_eq_some {cs : List Char} {n : Nat} :
    readDigits cs = some n ↔ cs ≠ [] ∧ (∀ c ∈ cs, isDigit c = true) ∧ digitsValue cs = n := by
  unfold readDigits
  cases cs with
  | nil => simp
  | cons c cs => by_cases h : (c :: cs).all isDigit = true <;> simp_all

theorem isDigit_digitChar {d : Nat} (h : d < 10) : isDigit (digitChar d) = true := by
  have : ∀ d < 10, isDigit (digitChar d) = true := by decide
  exact this d h

theorem digitValue_digitChar {d : Nat} (h : d < 10) : digitValue (digitChar d) = d := by
  have : ∀ d < 10, digitValue (digitChar d) = d := by decide
  exact this d h

theorem isDigit_of_mem_digitsFrom {fuel n : Nat} {c : Char} (h : c ∈ digitsFrom fuel n) : isDigit c = true := by
  induction fuel generalizing n with
  | zero => cases h
  | succ fuel ih =>
    rcases List.mem_cons.1 h with rfl | hrest
    · exact isDigit_digitChar (Nat.mod_lt n (by decide))
    · split at hrest
      · cases hrest
      · exact ih hrest

/-- enough fuel writes every digit -/
theorem digitsValue_digitsFrom {fuel n : Nat} (h : n < Nat.pow 10 fuel) :
    digitsValue (digitsFrom fuel n).reverse = n := by
  induction fuel generalizing n with
  | zero =>
    have : n = 0 := Nat.lt_one_iff.1 h
    rw [this]
    rfl
  | succ fuel ih =>
    have hstep : n < Nat.pow 10 fuel * 10 := h
    have hdigit := digitValue_digitChar (Nat.mod_lt n (show 10 > 0 by decide))
    rw [digitsValue, digitsFrom, List.reverse_cons, List.foldl_append, ← digitsValue, List.foldl_cons, List.foldl_nil,
      hdigit]
    split
    · have : digitsValue [].reverse = 0 := rfl
      omega
    · rw [ih (by omega)]
      omega

theorem digitsOf_ne_nil (n : Nat) : digitsOf n ≠ [] := by simp [digitsOf, digitsFrom]

theorem isDigit_of_mem_digitsOf {n : Nat} {c : Char} (h : c ∈ digitsOf n) : isDigit c = true :=
  isDigit_of_mem_digitsFrom (List.mem_reverse.1 h)

/-- the digits of a number have its value -/
@[simp] theorem digitsValue_digitsOf (n : Nat) : digitsValue (digitsOf n) = n := by
  apply digitsValue_digitsFrom
  exact Nat.lt_of_lt_of_le Nat.lt_log2_self (Nat.pow_le_pow_left (by decide) _)

theorem mem_integerText {i : Int} {c : Char} (h : c ∈ integerText i) : isDigit c = true ∨ c = '-' := by
  unfold integerText at h
  split at h
  · rcases List.mem_cons.1 h with rfl | hdigit
    · exact .inr rfl
    · exact .inl (isDigit_of_mem_digitsOf hdigit)
  · exact .inl (isDigit_of_mem_digitsOf h)

end RhythmChart.Text
