/-! # Hexadecimal text

Every number the assembler prints in base sixteen has upper-case digits. -/

namespace TwoPass.Hex

def digit (value : Nat) : Char :=
  if value < 10 then Char.ofNat ('0'.toNat + value) else Char.ofNat ('A'.toNat + (value - 10))

/-- The digits of `value` without leading zeros; zero is one digit. -/
def digits (value : Nat) : List Char :=
  if value < 16 then
    [digit value]
  else
    digits (value / 16) ++ [digit (value % 16)]

/-- The lowest `width` digits of `value`, with leading zeros. -/
def fixedDigits : (width : Nat) → (value : Nat) → List Char
  | 0, _ => []
  | width + 1, value => fixedDigits width (value / 16) ++ [digit (value % 16)]

def natural (value : Nat) : String :=
  String.ofList (digits value)

def fixed (width value : Nat) : String :=
  String.ofList (fixedDigits width value)

example : fixedDigits 4 0x1F = ['0', '0', '1', 'F'] := rfl

end TwoPass.Hex
