import TwoPass.Word.Address

/-! # What can be wrong with a program -/

namespace TwoPass

inductive Arity where
  | exactly (count : Nat)
  | between (least most : Nat)
  deriving DecidableEq, Repr

namespace Arity

def accepts (arity : Arity) (count : Nat) : Bool :=
  match arity with
  | .exactly expected => count == expected
  | .between least most => least ≤ count && count ≤ most

def text : Arity → String
  | .exactly 1 => "1 operand"
  | .exactly count => s!"{count} operands"
  | .between least most =>
    if most = least + 1 then
      s!"{least} or {most} operands"
    else
      s!"between {least} and {most} operands"

end Arity

inductive Problem where
  | emptySource
  | missingOrigin
  | duplicateOrigin
  | operandCount (name : String) (expected : Arity) (found : Nat)
  | unknownMnemonic (name : String)
  | invalidSymbol (name : String)
  | duplicateLabel (name : String)
  | malformedImmediate (token : String)
  | immediateOutOfRange (token : String) (field : Field)
  | malformedRegister (token : String)
  | malformedOperand (token expected : String)
  | unknownLabel (name : String)
  | labelOutOfRange (label : String) (offset : Int) (field : Field)
  | malformedString (literal : String)
  | emptyString
  | valueTooLarge (value : Nat)
  | programTooLarge (start : Address) (length : Nat)
  | missingLineInfo
  | missingPrologue (expected : String)
  | dataInTextSection (name : String)
  | instructionInDataSection (name : String)
  | sectionOrder (name : String)
  | missingEnd
  deriving DecidableEq, Repr

namespace Problem

def message : Problem → String
  | .emptySource => "source file is empty"
  | .missingOrigin =>
    "the first line of the program must be a .orig directive with one operand"
  | .duplicateOrigin => ".orig may only appear once"
  | .operandCount name expected found => s!"{name} expects {expected.text} but {found} were given"
  | .unknownMnemonic name => s!"'{name}' is not a known instruction or directive"
  | .invalidSymbol name => s!"'{name}' is not a valid label name"
  | .duplicateLabel name => s!"label '{name}' has already been defined"
  | .malformedImmediate token => s!"'{token}' is not a valid numeric value"
  | .immediateOutOfRange token field =>
    s!"{token} does not fit in a {field.describe} field " ++
      s!"(the range is {field.lowest} to {field.highest})"
  | .malformedRegister token => s!"'{token}' is not a valid register"
  | .malformedOperand token expected => s!"expected {expected} but found '{token}'"
  | .unknownLabel name => s!"label '{name}' is not defined"
  | .labelOutOfRange label offset field =>
    s!"label '{label}' is {offset} words away, which does not fit in a {field.describe} offset"
  | .malformedString literal => s!"{literal} is not a valid string literal"
  | .emptyString => "string literal is empty"
  | .valueTooLarge value => s!"value 0x{Hex.natural value} does not fit in a 16-bit word"
  | .programTooLarge start length =>
    s!"program of {length} words starting at {start.text} extends past the end of memory"
  | .missingLineInfo => "no source line is recorded for a deferred label reference"
  | .missingPrologue expected =>
    s!"expected '{expected}' here; " ++
      "programs must begin with .orig, .text, .global _start and _start:"
  | .dataInTextSection name => s!"{name} places data in the .text section"
  | .instructionInDataSection name => s!"instruction '{name}' appears in the .data section"
  | .sectionOrder name =>
    s!"{name} would interleave the .text and .data sections; text must come before data"
  | .missingEnd => "program has no .end directive"

end Problem

def Arity.check (arity : Arity) (name : String) (operands : List String) : Except Problem Unit :=
  if arity.accepts operands.length then
    .ok ()
  else
    .error (.operandCount name arity operands.length)

end TwoPass
