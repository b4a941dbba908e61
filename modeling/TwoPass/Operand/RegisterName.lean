import TwoPass.Line.Shape
import TwoPass.Operand.Numeral
import TwoPass.Word.Register

/-! # Names of registers -/

namespace TwoPass

inductive RegisterFile where
  /-- The low registers `r0` to `r7`. -/
  | eight
  /-- The high registers `h0` to `h7` too, three of which have aliases. -/
  | sixteen
  deriving DecidableEq, Repr

namespace Register

/-- The register of a bank whose number follows the first letter of a token. -/
def ofDigits? (bank : Bank) (token : String) : Option Register :=
  (Numeral.magnitude? 10 token.toList.tail).bind (ofNumber? bank)

def ofName? (file : RegisterFile) (token : String) : Option Register :=
  match Shape.of? token, file with
  | some .lowRegister, _ => ofDigits? .low token
  | some .highRegister, .sixteen => ofDigits? .high token
  | some .name, .sixteen => aliases.lookup token
  | _, _ => none

def parse (file : RegisterFile) (token : String) : Except Problem Register :=
  match ofName? file token with
  | some register => .ok register
  | none => .error (.malformedRegister token)

end Register

end TwoPass
