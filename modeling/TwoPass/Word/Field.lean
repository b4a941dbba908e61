/-! # Words and bit fields

Instructions pack registers, immediates and displacements into fixed-width
fields of a 16-bit word. A `Field` knows its width and how the value it holds is
read, and so decides which values fit and which bits stand for them. -/

namespace TwoPass

/-- A machine word. Memory is addressed by words. -/
abbrev Word := BitVec 16

/-- Position `bits` so that its least significant bit lands at bit `shift`.
Bits that leave the word are lost. -/
def place (bits : Word) (shift : Nat) : Word :=
  bits <<< shift

example : place 0x0007#16 14 = 0xC000#16 := rfl

inductive Signedness where
  | signed
  | unsigned
  deriving DecidableEq, Repr

/-- A field of a word, between one bit and the whole word wide. -/
structure Field where
  width : Nat
  signedness : Signedness
  bounded : decide (0 < width ∧ width ≤ 16) = true := by exact Eq.refl true
  deriving DecidableEq, Repr

inductive RangeError where
  | tooSmall
  | tooLarge
  deriving DecidableEq, Repr

def RangeError.message : RangeError → String
  | .tooSmall => "value is too small"
  | .tooLarge => "value is too large"

namespace Field

theorem width_pos (field : Field) : 0 < field.width :=
  (of_decide_eq_true field.bounded).1

theorem width_le (field : Field) : field.width ≤ 16 :=
  (of_decide_eq_true field.bounded).2

/-- A whole word. Values fit if they fit either as signed or as unsigned
16-bit quantities. -/
def word : Field where
  width := 16
  signedness := .unsigned

def ofWidth? (width : Nat) (signedness : Signedness) : Option Field :=
  if bounds : 0 < width ∧ width ≤ 16 then
    some ⟨width, signedness, decide_eq_true bounds⟩
  else
    none

def isWhole (field : Field) : Bool :=
  field.width == 16

/-- The bits of a word that the field covers when it stands lowest. -/
def mask (field : Field) : Word :=
  (BitVec.allOnes field.width).setWidth 16

def lowest (field : Field) : Int :=
  if field.isWhole ∨ field.signedness = .signed then
    (BitVec.intMin field.width).toInt
  else
    0

def highest (field : Field) : Int :=
  if field.isWhole ∨ field.signedness = .unsigned then
    (BitVec.allOnes field.width).toNat
  else
    (BitVec.intMax field.width).toInt

/-- The bits that stand for `value`: its two's complement representation,
provided that the value fits. -/
def encode (field : Field) (value : Int) : Except RangeError (BitVec field.width) :=
  if value < field.lowest then
    .error .tooSmall
  else if field.highest < value then
    .error .tooLarge
  else
    .ok (BitVec.ofInt field.width value)

/-- The value that the low bits of a word stand for. A whole word is read as
unsigned. -/
def decode (field : Field) (bits : Word) : Int :=
  let covered := bits.setWidth field.width
  if field.signedness = .signed ∧ ¬ field.isWhole then
    covered.toInt
  else
    covered.toNat

def describe (field : Field) : String :=
  if field.isWhole then
    "16-bit"
  else
    match field.signedness with
    | .signed => s!"signed {field.width}-bit"
    | .unsigned => s!"unsigned {field.width}-bit"

end Field

end TwoPass
