/-
Zeros and positive numbers among the floats.

An operation on floats unpacks its operands, works on the unpacked ones and packs the result. What is needed here of
addition, multiplication and division is only what they do when an operand is a zero, and that is read off the cases of
the unpacked operands; no rounding takes place. Packing undoes unpacking (`pack_unpack`).

- `not_positive_iff`: what a number is that is not finite and above zero;
- `zero_div`: zero in parts of a positive number is zero;
- `zero_mul_div`: so is a multiple of a zero, up to the sign;
- `zero_add_add_zero`: a sum does not tell zeros apart once zero is added to it.
-/
import Mathlib

namespace RhythmChart.Decimal

open Float.Model (UnpackedFloat)
open Float.Model.UnpackedFloat (zero finite)

/-- a finite number above zero -/
def Positive (x : Float) : Prop := 0 < x ∧ x.isFinite = true

/-! ## Unpacked numbers -/

theorem unpack_zero : (0 : Float).toModel.unpack = .zero .positive := by
  have bits : (0 : Float).toModel.toBits.toBitVec = UnpackedFloat.packedZero .binary64 .positive := by decide +kernel
  rw [Float.Model.unpack, bits, UnpackedFloat.unpack_packedZero]

theorem pack_unpack (x : Float.Model) : Float.Model.pack x.unpack = x := by
  obtain ⟨bits, valid⟩ := x
  simp only [Float.Model.pack, Float.Model.unpack, Float.Model.mk.injEq]
  exact congrArg UInt64.ofBitVec (UnpackedFloat.pack_unpack_of_valid valid)

theorem unpack_pack_zero (s : UnpackedFloat.Sign) : (Float.Model.pack (.zero s)).unpack = .zero s :=
  UnpackedFloat.unpack_packedZero

theorem lt_iff {x y : Float} : x < y ↔ x.toModel.unpack.compare y.toModel.unpack = some .lt := by
  change Float.lt x y = true ↔ _
  simp only [Float.lt, decide_eq_true_iff]
  change Float.Model.lt _ _ = true ↔ _
  simp [Float.Model.lt, UnpackedFloat.lt]

theorem beq_iff {x y : Float} : (x == y) = true ↔ x.toModel.unpack.compare y.toModel.unpack = some .eq := by
  change (x.toModel.unpack.beq y.toModel.unpack) = true ↔ _
  simp [UnpackedFloat.beq]

/-- only zeros are equal to zero, and there are two of them -/
theorem beq_zero_iff {x : Float} : (x == 0) = true ↔ ∃ s, x.toModel.unpack = .zero s := by
  rw [beq_iff, unpack_zero]
  rcases x.toModel.unpack with s | _ | s | ⟨s, m, e, hm⟩
  · cases s <;> simp [UnpackedFloat.compare]
  · simp [UnpackedFloat.compare]
  · simp [UnpackedFloat.compare]
  · cases s <;> simp [UnpackedFloat.compare]

theorem positive_iff {x : Float} : Positive x ↔ ∃ m e hm, x.toModel.unpack = .finite .positive m e hm := by
  rw [Positive, lt_iff, unpack_zero]
  change _ ∧ x.toModel.unpack.isFinite = true ↔ _
  rcases x.toModel.unpack with s | _ | s | ⟨s, m, e, hm⟩
  · simp [UnpackedFloat.isFinite]
  · simp [UnpackedFloat.isFinite]
  · simp [UnpackedFloat.isFinite, UnpackedFloat.compare]
  · cases s <;> simp [UnpackedFloat.isFinite, UnpackedFloat.compare, hm]

/-- **Numbers that are not positive.** They are zeros, negative, infinite or no numbers. -/
theorem not_positive_iff {x : Float} :
    ¬Positive x ↔ (x == 0) = true ∨ x < 0 ∨ x.isInf = true ∨ x.isNaN = true := by
  rw [positive_iff, lt_iff, beq_iff, unpack_zero]
  change _ ↔ _ ∨ _ ∨ x.toModel.unpack.isInf = true ∨ x.toModel.unpack.isNaN = true
  rcases x.toModel.unpack with s | _ | s | ⟨s, m, e, hm⟩
  · simp [UnpackedFloat.isInf]
  · simp [UnpackedFloat.isNaN]
  · simp [UnpackedFloat.compare]
  · cases s <;> simp [UnpackedFloat.isInf, UnpackedFloat.isNaN, UnpackedFloat.compare, hm]

/-! ## Operations on zeros -/

theorem add_eq (x y : Float) :
    x + y = .ofModel (.pack (UnpackedFloat.add .binary64 x.toModel.unpack y.toModel.unpack)) := rfl

theorem mul_eq (x y : Float) :
    x * y = .ofModel (.pack (UnpackedFloat.mul .binary64 x.toModel.unpack y.toModel.unpack)) := rfl

theorem div_eq (x y : Float) :
    x / y = .ofModel (.pack (UnpackedFloat.div .binary64 x.toModel.unpack y.toModel.unpack)) := rfl

theorem zero_div {x : Float} (h : Positive x) : 0 / x = 0 := by
  obtain ⟨m, e, hm, hx⟩ := positive_iff.1 h
  rw [div_eq, hx, unpack_zero]
  change Float.ofModel (.pack (.zero .positive)) = 0
  rw [← unpack_zero, pack_unpack]

theorem zero_mul_div {x y z : Float} (hx : x.isFinite = true) (hy : (y == 0) = true) (hz : Positive z) :
    (x * y / z == 0) = true := by
  obtain ⟨s, hy⟩ := beq_zero_iff.1 hy
  obtain ⟨m, e, hm, hz⟩ := positive_iff.1 hz
  obtain ⟨t, product⟩ : ∃ t, (x * y).toModel.unpack = .zero t := by
    rw [mul_eq, hy]
    change x.toModel.unpack.isFinite = true at hx
    revert hx
    rcases x.toModel.unpack with s' | _ | s' | ⟨s', m', e', hm'⟩ <;> intro hx
    · cases hx
    · cases hx
    · exact ⟨_, unpack_pack_zero _⟩
    · exact ⟨_, unpack_pack_zero _⟩
  rw [beq_zero_iff, div_eq, product, hz]
  exact ⟨_, unpack_pack_zero _⟩

/-- a sum with a zero is the other number, or a zero itself -/
theorem zero_add_cases {x y : Float} (hx : (x == 0) = true) :
    x + y = y ∨ (y == 0) = true ∧ (x + y == 0) = true := by
  obtain ⟨s, hx⟩ := beq_zero_iff.1 hx
  rw [beq_zero_iff, beq_zero_iff, add_eq, hx]
  have plain : UnpackedFloat.add .binary64 (.zero s) y.toModel.unpack = y.toModel.unpack →
      Float.ofModel (.pack (UnpackedFloat.add .binary64 (.zero s) y.toModel.unpack)) = y := by
    intro same
    rw [same, pack_unpack]
  cases hy : y.toModel.unpack with
  | zero t =>
    refine .inr ⟨⟨t, rfl⟩, ?_⟩
    rw [UnpackedFloat.add]
    split
    · exact ⟨_, unpack_pack_zero _⟩
    · exact ⟨_, unpack_pack_zero _⟩
  | infinity | notANumber | finite =>
    rw [hy] at plain
    exact .inl (plain rfl)

theorem add_zero_of_zero {x : Float} (hx : (x == 0) = true) : x + 0 = 0 := by
  obtain ⟨s, hx⟩ := beq_zero_iff.1 hx
  rw [add_eq, hx, unpack_zero]
  cases s with
  | positive =>
    change Float.ofModel (.pack (.zero .positive)) = 0
    rw [← unpack_zero, pack_unpack]
  | negative =>
    change Float.ofModel (.pack (.zero .positive)) = 0
    rw [← unpack_zero, pack_unpack]

theorem zero_add_add_zero {x y z : Float} (hx : (x == 0) = true) (hy : (y == 0) = true) : x + z + 0 = y + z + 0 := by
  have plain : ∀ {w : Float}, (w == 0) = true → w + z + 0 = z + 0 := by
    intro w hw
    rcases zero_add_cases (y := z) hw with same | ⟨hz, sum⟩
    · rw [same]
    · rw [add_zero_of_zero sum, add_zero_of_zero hz]
  rw [plain hx, plain hy]

end RhythmChart.Decimal
