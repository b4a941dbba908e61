import TwoPass.Problem

/-! # Numerals

A numeral is an optional `#`, a radix mark and digits, with at most one minus
sign, either before or after the radix mark. The mark is `0x` or `x` for
hexadecimal, `0b` or `b` for binary, and nothing for decimal. -/

namespace TwoPass.Numeral

def takeMinus : List Char → Bool × List Char
  | '-' :: rest => (true, rest)
  | text => (false, text)

def takeRadix : List Char → Nat × List Char
  | '0' :: 'x' :: rest => (16, rest)
  | '0' :: 'b' :: rest => (2, rest)
  | 'x' :: rest => (16, rest)
  | 'b' :: rest => (2, rest)
  | text => (10, text)

def digitValue? (radix : Nat) (digit : Char) : Option Nat :=
  let value :=
    if digit.isDigit then some (digit.toNat - '0'.toNat)
    else if 'a' ≤ digit ∧ digit ≤ 'f' then some (digit.toNat - 'a'.toNat + 10)
    else if 'A' ≤ digit ∧ digit ≤ 'F' then some (digit.toNat - 'A'.toNat + 10)
    else none
  value.filter (· < radix)

/-- The number that digit values, most significant first, stand for. -/
def ofDigits (radix : Nat) (values : List Nat) : Nat :=
  values.foldl (fun number value => number * radix + value) 0

def magnitude? (radix : Nat) (digits : List Char) : Option Nat :=
  if digits.isEmpty then none else (digits.mapM (digitValue? radix)).map (ofDigits radix)

def greatestMagnitude : Nat := 0x7FFFFFFFFFFFFFFF

def parse (token : String) : Except Problem Int :=
  let unmarked :=
    match token.toList with
    | '#' :: rest => rest
    | text => text
  let (minusFirst, marked) := takeMinus unmarked
  let (radix, signed) := takeRadix marked
  let (minusLast, digits) := takeMinus signed
  if minusFirst && minusLast then
    .error (.malformedImmediate token)
  else
    match magnitude? radix digits with
    | none => .error (.malformedImmediate token)
    | some magnitude =>
      if greatestMagnitude < magnitude then
        .error (.immediateOutOfRange token .word)
      else if minusFirst || minusLast then
        .ok (-(magnitude : Int))
      else
        .ok magnitude

def immediate (field : Field) (token : String) : Except Problem (BitVec field.width) := do
  let value ← parse token
  match field.encode value with
  | .ok bits => .ok bits
  | .error _ => .error (.immediateOutOfRange token field)

end TwoPass.Numeral
