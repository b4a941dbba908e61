import TwoPass.Proofs.FieldRange
import TwoPass.Proofs.LabelSpelling
import TwoPass.Proofs.Except
import TwoPass.Operand.RegisterName
import TwoPass.Operand.Target

/-! # What operands say

An operand is a register, a number, or a label that stands for its distance. What it
says is told here from its spelling alone. The bits that an encoder takes from it read
back as just that. -/

namespace TwoPass

theorem mem_of_lookup {table : List (String × α)} {name : String} {value : α}
    (found : table.lookup name = some value) : (name, value) ∈ table := by
  rcases List.lookup_eq_some_iff.mp found with ⟨before, after, split, -⟩
  rw [split]
  exact List.mem_append_right before List.mem_cons_self

/-! ## Numbers -/

namespace Field

variable {field : Field} {value : Int}

/-- A field is narrow and signed, so that its bits read back as signed numbers. -/
def IsSigned (field : Field) : Prop :=
  field.signedness = .signed ∧ field.width ≠ 16

def IsUnsigned (field : Field) : Prop :=
  field.signedness = .unsigned ∧ field.width ≠ 16

instance (field : Field) : Decidable field.IsSigned :=
  inferInstanceAs (Decidable (_ ∧ _))

instance (field : Field) : Decidable field.IsUnsigned :=
  inferInstanceAs (Decidable (_ ∧ _))

theorem lowest_of_unsigned (unsigned : field.IsUnsigned) : field.lowest = 0 := by
  have whole : field.isWhole = false := by simp [isWhole, unsigned.2]
  simp [lowest, whole, unsigned.1]

theorem highest_of_unsigned (unsigned : field.IsUnsigned) :
    field.highest = 2 ^ field.width - 1 := by
  simp only [highest, unsigned.1, or_true, if_true, BitVec.toNat_allOnes]
  push_cast [Nat.one_le_two_pow]
  rfl

theorem toNat_of_encode {bits : BitVec field.width} (unsigned : field.IsUnsigned)
    (encoded : field.encode value = .ok bits) : (bits.toNat : Int) = value := by
  rw [encode, lowest_of_unsigned unsigned, highest_of_unsigned unsigned] at encoded
  split at encoded
  · cases encoded
  · split at encoded
    · cases encoded
    · cases encoded
      have remainder : value % 2 ^ field.width = value := Int.emod_eq_of_lt (by omega) (by omega)
      rw [BitVec.toNat_ofInt]
      push_cast
      rw [remainder]
      omega

theorem encode_toNat (unsigned : field.IsUnsigned) (bits : BitVec field.width) :
    field.encode bits.toNat = .ok bits := by
  have small : ((2 : Int) ^ field.width - 1 < bits.toNat) = False := by
    have bound : bits.toNat < 2 ^ field.width := bits.isLt
    have bound : (bits.toNat : Int) < 2 ^ field.width := by exact_mod_cast bound
    exact eq_false (by omega)
  have natural : ((bits.toNat : Int) < 0) = False := eq_false (by omega)
  rw [encode, lowest_of_unsigned unsigned, highest_of_unsigned unsigned]
  simp only [natural, small, if_false, BitVec.ofInt_natCast, BitVec.ofNat_toNat,
    BitVec.setWidth_eq]

end Field

theorem Numeral.encode_of_immediate {field : Field} {token : String} {bits : BitVec field.width}
    (read : Numeral.immediate field token = .ok bits) :
    ∃ value, Numeral.parse token = .ok value ∧ field.encode value = .ok bits := by
  rcases bind_eq_ok.mp read with ⟨value, parsed, encoded⟩
  refine ⟨value, parsed, ?_⟩
  cases fits : field.encode value with
  | ok other =>
      rw [fits] at encoded
      cases encoded
      rfl
  | error problem =>
      rw [fits] at encoded
      cases encoded

theorem Numeral.parse_of_signed {field : Field} {token : String} {bits : BitVec field.width}
    (signed : field.IsSigned) (read : Numeral.immediate field token = .ok bits) :
    Numeral.parse token = .ok bits.toInt := by
  rcases encode_of_immediate read with ⟨value, parsed, encoded⟩
  rw [parsed, Field.toInt_of_encode signed.1 signed.2 encoded]

theorem Numeral.parse_of_unsigned {field : Field} {token : String} {bits : BitVec field.width}
    (unsigned : field.IsUnsigned) (read : Numeral.immediate field token = .ok bits) :
    Numeral.parse token = .ok bits.toNat := by
  rcases encode_of_immediate read with ⟨value, parsed, encoded⟩
  rw [parsed, Field.toNat_of_encode unsigned encoded]

/-! ## Distances -/

/-- The distance that an operand of the instruction at `pc` stands for. A label counts
from the instruction after it, and for nothing while it is still to be bound. -/
inductive Distance (labels : Labels) (pc : Nat) (token : String) : Int → Prop where
  | number {value : Int} (spelled : Numeral.parse token = .ok value) :
      Distance labels pc token value
  | label {offset : Nat} (label : readsAsNumber token = false)
      (bound : labels.table.offset? token = some offset) :
      Distance labels pc token (offset - (pc + 1))
  | awaited (label : readsAsNumber token = false) (unbound : labels.table.offset? token = none)
      (early : labels.pass = .first) : Distance labels pc token 0

namespace Distance

variable {labels : Labels} {pc : Nat} {token : String}

theorem unique {value other : Int} (first : Distance labels pc token value)
    (second : Distance labels pc token other) : value = other := by
  have apart {number : Int} (spelled : Numeral.parse token = .ok number)
      (label : readsAsNumber token = false) : False := by
    cases spelled.symm.trans (Numeral.parse_of_label label)
  cases first with
  | number spelled =>
      cases second with
      | number again => exact Except.ok.inj (spelled.symm.trans again)
      | label label _ => exact (apart spelled label).elim
      | awaited label _ _ => exact (apart spelled label).elim
  | label label bound =>
      cases second with
      | number spelled => exact (apart spelled label).elim
      | label _ again => rw [Option.some.inj (bound.symm.trans again)]
      | awaited _ unbound _ => cases bound.symm.trans unbound
  | awaited label unbound _ =>
      cases second with
      | number spelled => exact (apart spelled label).elim
      | label _ bound => cases bound.symm.trans unbound
      | awaited _ _ _ => rfl

theorem of_displacement {field : Field} {bits : BitVec field.width} (signed : field.IsSigned)
    (label : readsAsNumber token = false)
    (displaced : labels.displacement pc field token = .ok bits) :
    Distance labels pc token bits.toInt := by
  unfold Labels.displacement Labels.offset at displaced
  cases found : labels.table.offset? token with
  | some bound =>
      rw [found] at displaced
      dsimp only [ok_bind] at displaced
      cases encoded : field.encode ((bound : Int) - ((pc : Int) + 1)) with
      | ok other =>
          rw [encoded] at displaced
          cases displaced
          rw [Field.toInt_of_encode signed.1 signed.2 encoded]
          exact .label label found
      | error problem =>
          rw [encoded] at displaced
          cases displaced
  | none =>
      rw [found] at displaced
      cases early : labels.pass with
      | first =>
          rw [early] at displaced
          cases displaced
          have nothing : (0 : BitVec field.width).toInt = 0 := BitVec.toInt_zero
          rw [nothing]
          exact .awaited label found early
      | second =>
          rw [early] at displaced
          cases displaced

theorem of_resolve {field : Field} {target : Target field.width} {bits : BitVec field.width}
    (signed : field.IsSigned) (read : Target.parse field token = .ok target)
    (resolved : target.resolve labels pc field = .ok bits) :
    Distance labels pc token bits.toInt := by
  unfold Target.parse at read
  cases label : readsAsNumber token with
  | true =>
      rw [label] at read
      rcases map_eq_ok.mp read with ⟨number, spelled, rfl⟩
      cases resolved
      exact .number (Numeral.parse_of_signed signed spelled)
  | false =>
      rw [label] at read
      cases read
      exact of_displacement signed label resolved

end Distance

/-! ## Registers -/

namespace Register

theorem ofName?_eight_eq_some_iff {token : String} {register : Register} :
    ofName? .eight token = some register ↔
      Shape.of? token = some .lowRegister ∧ ofDigits? .low token = some register := by
  unfold ofName?
  cases Shape.of? token with
  | none => simp
  | some shape => cases shape <;> simp

theorem bank_of_ofDigits? {bank : Bank} {token : String} {register : Register}
    (named : ofDigits? bank token = some register) : register.bank = bank := by
  rcases Option.bind_eq_some_iff.mp named with ⟨number, -, found⟩
  unfold ofNumber? at found
  split at found
  · cases found
    rfl
  · cases found

theorem ofName?_of_parse {file : RegisterFile} {token : String} {register : Register}
    (read : parse file token = .ok register) : ofName? file token = some register := by
  unfold parse at read
  cases found : ofName? file token with
  | some named =>
      rw [found] at read
      cases read
      rfl
  | none =>
      rw [found] at read
      cases read

theorem parse_of_ofName? {file : RegisterFile} {token : String} {register : Register}
    (named : ofName? file token = some register) :
    Numeral.parse token = .error (.malformedImmediate token) := by
  apply Numeral.parse_of_label
  unfold ofName? at named
  unfold readsAsNumber
  split at named <;> simp_all [Shape.isNumber]

end Register

end TwoPass
