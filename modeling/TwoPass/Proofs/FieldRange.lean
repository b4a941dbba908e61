import Mathlib.Algebra.Order.Ring.Int
import TwoPass.Word.Field

/-! # Ranges of fields

A field accepts the numbers of its range and no others. A signed field holds exactly the
numbers of its width in two's complement: the bits that stand for one of them read back
as it. -/

namespace TwoPass.Field

variable {field : Field} {value : Int}

theorem lowest_of_signed (signed : field.signedness = .signed) :
    field.lowest = -2 ^ (field.width - 1) := by
  rw [lowest, if_pos (.inr signed), BitVec.toInt_intMin_of_pos field.width_pos]

theorem highest_of_signed (signed : field.signedness = .signed) (narrow : field.width ≠ 16) :
    field.highest = 2 ^ (field.width - 1) - 1 := by
  have neither : ¬ (field.isWhole = true ∨ field.signedness = .unsigned) := by
    simp [isWhole, narrow, signed]
  rw [highest, if_neg neither, BitVec.toInt_intMax]

theorem toInt_of_encode {bits : BitVec field.width} (signed : field.signedness = .signed)
    (narrow : field.width ≠ 16) (encoded : field.encode value = .ok bits) :
    bits.toInt = value := by
  rw [encode, lowest_of_signed signed, highest_of_signed signed narrow] at encoded
  split at encoded
  · cases encoded
  · split at encoded
    · cases encoded
    · cases encoded
      apply BitVec.toInt_ofInt_eq_self field.width_pos
      · omega
      · omega

theorem encode_of_outside (signed : field.signedness = .signed) (narrow : field.width ≠ 16)
    (outside : value < -2 ^ (field.width - 1) ∨ 2 ^ (field.width - 1) - 1 < value) :
    ∃ problem, field.encode value = .error problem := by
  rw [encode, lowest_of_signed signed, highest_of_signed signed narrow]
  by_cases small : value < -2 ^ (field.width - 1)
  · exact ⟨.tooSmall, if_pos small⟩
  · have large : 2 ^ (field.width - 1) - 1 < value := outside.resolve_left small
    rw [if_neg small, if_pos large]
    exact ⟨.tooLarge, rfl⟩

/-! ## Fields of either kind -/

def Admits (field : Field) (value : Int) : Prop :=
  field.lowest ≤ value ∧ value ≤ field.highest

instance (field : Field) (value : Int) : Decidable (field.Admits value) :=
  inferInstanceAs (Decidable (_ ∧ _))

theorem encode_of_admits (admitted : field.Admits value) :
    field.encode value = .ok (BitVec.ofInt field.width value) := by
  rw [encode, if_neg (by have := admitted.1; omega), if_neg (by have := admitted.2; omega)]

theorem encode_of_not_admits (refused : ¬field.Admits value) :
    ∃ problem, field.encode value = .error problem := by
  unfold encode
  split
  · exact ⟨_, rfl⟩
  · split
    · exact ⟨_, rfl⟩
    · exact absurd ⟨by omega, by omega⟩ refused

theorem natAbs_lt_of_admits (admitted : field.Admits value) : value.natAbs < 2 ^ 16 := by
  have half : (2 : Int) ^ (field.width - 1) ≤ 2 ^ 15 :=
    pow_le_pow_right₀ (by decide) (Nat.sub_le_sub_right field.width_le 1)
  have whole : 2 ^ field.width ≤ 2 ^ 16 := Nat.pow_le_pow_right (by decide) field.width_le
  have low : -2 ^ 16 < field.lowest := by
    unfold lowest
    split
    · rw [BitVec.toInt_intMin_of_pos field.width_pos]
      omega
    · decide
  have high : field.highest < 2 ^ 16 := by
    unfold highest
    split
    · have bound := (BitVec.allOnes field.width).isLt
      exact_mod_cast bound.trans_le whole
    · rw [BitVec.toInt_intMax]
      omega
  obtain ⟨least, most⟩ := admitted
  omega

end TwoPass.Field
