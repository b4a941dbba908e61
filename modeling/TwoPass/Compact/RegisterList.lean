import TwoPass.Line.Token
import TwoPass.Operand.RegisterName

/-! # Register lists

A register list such as `{r0, r2-r4, lr}` names a set of low registers by
single registers and ranges. Where an instruction allows it, the list may also
name one certain high register. -/

namespace TwoPass.Compact

structure RegisterList where
  /-- Bit `n` tells whether `rn` is in the list. -/
  low : BitVec 8
  extra : Bool
  deriving DecidableEq, Repr

namespace RegisterList

def empty : RegisterList := ⟨0, false⟩

/-- The numbers at the ends of an entry such as `r2-r4`, which are equal in one
such as `r2`. -/
def range? : List Char → Option (Nat × Nat)
  | 'r' :: rest =>
    let first := Numeral.magnitude? 10 (rest.takeWhile Char.isDigit)
    match rest.dropWhile Char.isDigit with
    | [] => first.map fun number => (number, number)
    | '-' :: 'r' :: last => do return (← first, ← Numeral.magnitude? 10 last)
    | _ => none
  | _ => none

def insertRange (registers : RegisterList) (first last : Nat) : RegisterList :=
  let added := List.range' first (last + 1 - first)
  { registers with low := added.foldl (fun low number => low ||| (1#8 <<< number)) registers.low }

/-- Add an entry. The entry may be `extra`, if there is such a register. -/
def insertEntry (extra : Option Register) (registers : RegisterList) (entry : String) :
    Except Problem RegisterList :=
  match range? entry.toList with
  | some (first, last) =>
    if first ≤ last ∧ last < 8 then
      .ok (registers.insertRange first last)
    else
      .error (.malformedRegister entry)
  | none => do
    let register ← Register.parse .sixteen entry
    if extra = some register then
      return { registers with extra := true }
    else
      .error (.malformedRegister entry)

def parse (extra : Option Register) (tokens : List String) : Except Problem RegisterList :=
  match enclosed? '\x7b' '\x7d' tokens with
  | none | some [] =>
    .error (.malformedOperand (", ".intercalate tokens)
      "a register list such as \x7br0, r2-r4\x7d")
  | some entries => entries.foldlM (insertEntry extra) empty

end RegisterList

end TwoPass.Compact
