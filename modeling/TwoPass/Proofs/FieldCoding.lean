import Mathlib.Data.Int.ModEq
import Mathlib.Tactic.NormNum
import Mathlib.Tactic.Positivity
import TwoPass.Proofs.FieldRange

/-! # Coding in a field

The bits of a field hold its values, and reading them back undoes the writing. A whole word
is the exception: it is written from signed and unsigned numbers alike and always read as
unsigned, so a negative number comes back as the number that has the same bits. -/

namespace TwoPass.Field

variable {field : Field} {value : Int}

/-! ## The range in numbers -/

theorem isWhole_iff : field.isWhole = true ↔ field.width = 16 :=
  beq_iff_eq

theorem lowest_eq :
    field.lowest =
      if field.width = 16 ∨ field.signedness = .signed then -2 ^ (field.width - 1) else 0 := by
  simp only [lowest, isWhole_iff, BitVec.toInt_intMin_of_pos field.width_pos]

theorem highest_eq :
    field.highest =
      if field.width = 16 ∨ field.signedness = .unsigned then 2 ^ field.width - 1
      else 2 ^ (field.width - 1) - 1 := by
  have ones : ((BitVec.allOnes field.width).toNat : Int) = 2 ^ field.width - 1 := by
    rw [BitVec.toNat_allOnes, Nat.cast_sub Nat.one_le_two_pow]
    norm_num
  simp only [highest, isWhole_iff, ones, BitVec.toInt_intMax]

theorem toNat_mask : field.mask.toNat + 1 = 2 ^ field.width := by
  have bound : 2 ^ field.width ≤ 2 ^ 16 := Nat.pow_le_pow_right (by decide) field.width_le
  have positive : 1 ≤ 2 ^ field.width := Nat.one_le_two_pow
  rw [mask, BitVec.toNat_setWidth, BitVec.toNat_allOnes, Nat.mod_eq_of_lt (by omega)]
  omega

/-! ## What encoding says of a value -/

theorem encode_eq_tooSmall_iff : field.encode value = .error .tooSmall ↔ value < field.lowest := by
  unfold encode
  split
  · simp [*]
  · split <;> simp [*]

theorem lowest_le_highest : field.lowest ≤ field.highest := by
  have half : (1 : Int) ≤ 2 ^ (field.width - 1) := one_le_pow₀ (by decide)
  have whole : (1 : Int) ≤ 2 ^ field.width := one_le_pow₀ (by decide)
  rw [lowest_eq, highest_eq]
  split <;> split <;> omega

theorem encode_eq_tooLarge_iff : field.encode value = .error .tooLarge ↔ field.highest < value := by
  have ordered := field.lowest_le_highest
  unfold encode
  split
  · have small : ¬ field.highest < value := by omega
    simp [small]
  · split <;> simp [*]

theorem encode_eq_ok_iff {bits : BitVec field.width} :
    field.encode value = .ok bits ↔ field.Admits value ∧ bits = BitVec.ofInt field.width value := by
  constructor
  · intro encoded
    by_cases admitted : field.Admits value
    · rw [encode_of_admits admitted] at encoded
      cases encoded
      exact ⟨admitted, rfl⟩
    · rcases encode_of_not_admits admitted with ⟨problem, refused⟩
      rw [refused] at encoded
      cases encoded
  · intro fits
    rw [encode_of_admits fits.1, fits.2]

/-! ## Bits of a field in a word -/

theorem setWidth_setWidth_eq_and_mask (word : Word) :
    (word.setWidth field.width).setWidth 16 = word &&& field.mask := by
  apply BitVec.eq_of_getLsbD_eq
  intro index inside
  by_cases covered : index < field.width
  · simp [mask, covered, inside]
  · simp [mask, covered, inside]

theorem setWidth_of_bits (bits : BitVec field.width) :
    (bits.setWidth 16).setWidth field.width = bits := by
  rw [BitVec.setWidth_setWidth_of_le _ field.width_le, BitVec.setWidth_eq]

theorem toNat_of_bits (bits : BitVec field.width) : (bits.setWidth 16).toNat = bits.toNat := by
  have bound : 2 ^ field.width ≤ 2 ^ 16 := Nat.pow_le_pow_right (by decide) field.width_le
  have small := bits.isLt
  rw [BitVec.toNat_setWidth, Nat.mod_eq_of_lt (by omega)]

theorem bits_and_mask (bits : BitVec field.width) :
    bits.setWidth 16 &&& field.mask = bits.setWidth 16 := by
  rw [← setWidth_setWidth_eq_and_mask, setWidth_of_bits]

theorem toNat_ofInt_modEq (field : Field) (value : Int) :
    ((BitVec.ofInt field.width value).toNat : Int) ≡ value [ZMOD 2 ^ field.width] := by
  have positive : (0 : Int) < 2 ^ field.width := by positivity
  rw [BitVec.toNat_ofInt]
  push_cast
  rw [Int.toNat_of_nonneg (Int.emod_nonneg _ positive.ne')]
  exact Int.mod_modEq _ _

/-! ## Reading back -/

theorem decode_of_unsigned (unsigned : field.width = 16 ∨ field.signedness = .unsigned)
    (word : Word) : field.decode word = (word.setWidth field.width).toNat := by
  apply if_neg
  rw [isWhole_iff]
  intro signed
  rcases unsigned with whole | kind
  · exact signed.2 whole
  · rw [kind] at signed
    cases signed.1

theorem decode_of_signed (signed : field.signedness = .signed) (narrow : field.width ≠ 16)
    (word : Word) : field.decode word = (word.setWidth field.width).toInt := by
  apply if_pos
  rw [isWhole_iff]
  exact ⟨signed, narrow⟩

theorem unsigned_or_signed (field : Field) :
    (field.width = 16 ∨ field.signedness = .unsigned) ∨
      field.signedness = .signed ∧ field.width ≠ 16 := by
  by_cases whole : field.width = 16
  · exact .inl (.inl whole)
  · cases kind : field.signedness with
    | unsigned => exact .inl (.inr rfl)
    | signed => exact .inr ⟨rfl, whole⟩

theorem ofInt_decode (word : Word) :
    BitVec.ofInt field.width (field.decode word) = word.setWidth field.width := by
  rcases field.unsigned_or_signed with unsigned | ⟨signed, narrow⟩
  · rw [decode_of_unsigned unsigned, BitVec.ofInt_natCast, BitVec.ofNat_toNat, BitVec.setWidth_eq]
  · rw [decode_of_signed signed narrow, BitVec.ofInt_toInt]

theorem admits_decode (word : Word) : field.Admits (field.decode word) := by
  rcases field.unsigned_or_signed with unsigned | ⟨signed, narrow⟩
  · have half : (1 : Int) ≤ 2 ^ (field.width - 1) := one_le_pow₀ (by decide)
    have most : ((word.setWidth field.width).toNat : Int) < 2 ^ field.width := by
      exact_mod_cast (word.setWidth field.width).isLt
    rw [Admits, lowest_eq, highest_eq, decode_of_unsigned unsigned, if_pos unsigned]
    split <;> omega
  · have least := BitVec.le_toInt (word.setWidth field.width)
    have most := BitVec.toInt_lt (x := word.setWidth field.width)
    rw [Admits, lowest_of_signed signed, highest_of_signed signed narrow,
      decode_of_signed signed narrow]
    omega

/-- The range of a field that is no whole word has one number for each pattern of bits. -/
theorem eq_of_ofInt_eq {other : Int} (narrow : field.width ≠ 16) (admitted : field.Admits value)
    (otherAdmitted : field.Admits other)
    (same : BitVec.ofInt field.width value = BitVec.ofInt field.width other) : value = other := by
  have double : (2 : Int) ^ field.width = 2 * 2 ^ (field.width - 1) := by
    rw [← pow_succ', Nat.sub_add_cancel field.width_pos]
  have congruent : value ≡ other [ZMOD 2 ^ field.width] := by
    have first := toNat_ofInt_modEq field value
    rw [same] at first
    exact first.symm.trans (toNat_ofInt_modEq field other)
  -- The range of a whole word is too wide for this.
  have near : |other - value| < 2 ^ field.width := by
    rw [Admits, lowest_eq, highest_eq] at admitted otherAdmitted
    rw [abs_lt]
    cases kind : field.signedness <;> simp [kind, narrow] at admitted otherAdmitted <;> omega
  have zero := Int.eq_zero_of_abs_lt_dvd congruent.dvd near
  omega

/-- Encoding then decoding. Only a negative number in a whole word is not read back as it
was, but as the number above zero with the same bits. -/
theorem decode_of_encode {bits : BitVec field.width} (encoded : field.encode value = .ok bits) :
    field.decode (bits.setWidth 16) =
      if field.width < 16 ∨ 0 ≤ value then value else value + 65536 := by
  rcases encode_eq_ok_iff.mp encoded with ⟨admitted, rfl⟩
  by_cases whole : field.width = 16
  · rw [decode_of_unsigned (.inl whole), setWidth_of_bits, BitVec.toNat_ofInt]
    have least := admitted.1
    have most := admitted.2
    rw [lowest_eq, if_pos (.inl whole)] at least
    rw [highest_eq, if_pos (.inl whole)] at most
    simp only [whole] at least most ⊢
    split <;> omega
  · have narrow : field.width < 16 := Nat.lt_of_le_of_ne field.width_le whole
    rw [if_pos (.inl narrow)]
    apply eq_of_ofInt_eq whole (admits_decode _) admitted
    rw [ofInt_decode, setWidth_of_bits]

theorem encode_decode (word : Word) :
    (field.encode (field.decode word)).map (·.setWidth 16) = .ok (word &&& field.mask) := by
  rw [encode_of_admits (admits_decode word), ofInt_decode]
  exact congrArg Except.ok (setWidth_setWidth_eq_and_mask word)

/-- A field has bits for exactly the numbers of its range, and what is out of range is told
from either side. The bits of a number are congruent to it and lie within the mask. They are
read back as that number, save that a whole word is read as unsigned; and the bits that are
read from a word are written again as they were. -/
theorem coding_is_inverse (field : Field) :
    field.mask.toNat + 1 = 2 ^ field.width ∧
    field.lowest =
      (if field.width = 16 ∨ field.signedness = .signed then -2 ^ (field.width - 1) else 0) ∧
    field.highest =
      (if field.width = 16 ∨ field.signedness = .unsigned then 2 ^ field.width - 1
        else 2 ^ (field.width - 1) - 1) ∧
    (∀ value : Int,
      (field.encode value = .error .tooSmall ↔ value < field.lowest) ∧
      (field.encode value = .error .tooLarge ↔ field.highest < value) ∧
      ((∃ bits, field.encode value = .ok bits) ↔ field.lowest ≤ value ∧ value ≤ field.highest) ∧
      ∀ bits, field.encode value = .ok bits →
        let word : Word := bits.setWidth 16
        (word.toNat : Int) ≡ value [ZMOD 2 ^ field.width] ∧
        word &&& field.mask = word ∧
        (field.width < 16 → field.decode word = value) ∧
        (field.width = 16 → 0 ≤ value → field.decode word = value) ∧
        (field.width = 16 → value < 0 → field.decode word = value + 65536)) ∧
    ∀ word : Word,
      (field.encode (field.decode word)).map (·.setWidth 16) = .ok (word &&& field.mask) := by
  refine ⟨toNat_mask, lowest_eq, highest_eq, fun value => ?_, encode_decode⟩
  refine ⟨encode_eq_tooSmall_iff, encode_eq_tooLarge_iff, ⟨?_, ?_⟩, fun bits encoded => ?_⟩
  · intro encodes
    rcases encodes with ⟨bits, encoded⟩
    exact (encode_eq_ok_iff.mp encoded).1
  · intro admitted
    exact ⟨_, encode_of_admits admitted⟩
  · intro word
    have back : field.decode word = if field.width < 16 ∨ 0 ≤ value then value else value + 65536 :=
      decode_of_encode encoded
    refine ⟨?_, bits_and_mask bits, fun narrow => ?_, fun _ positive => ?_,
      fun whole negative => ?_⟩
    · rw [toNat_of_bits, (encode_eq_ok_iff.mp encoded).2]
      exact toNat_ofInt_modEq field value
    · rw [back, if_pos (.inl narrow)]
    · rw [back, if_pos (.inr positive)]
    · rw [back, if_neg (by omega)]

/-- The same bits in a whole word and in a signed field of five bits, where they are
read as another number and as the same one. -/
theorem coding_of_minus_one :
    word.encode (-1) = .ok 0xFFFF#16 ∧ word.decode 0xFFFF#16 = -1 + 65536 ∧
    let narrow : Field := ⟨5, .signed, rfl⟩
    narrow.encode (-1) = .ok 0x1F#5 ∧ narrow.decode 0x1F#16 = -1 := by
  have whole := (coding_is_inverse word).2.2.2.1 (-1)
  have five := (coding_is_inverse ⟨5, .signed, rfl⟩).2.2.2.1 (-1)
  have ones : word.encode (-1) = .ok 0xFFFF#16 := by decide
  have fewer : Field.encode ⟨5, .signed, rfl⟩ (-1) = .ok 0x1F#5 := by decide
  exact ⟨ones, (whole.2.2.2 _ ones).2.2.2.2 rfl (by decide), fewer,
    (five.2.2.2 _ fewer).2.2.1 (by decide)⟩

end TwoPass.Field
