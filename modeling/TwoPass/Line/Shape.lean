/-! # Shapes of operand tokens

A token is told to be a number, a register or a name by its spelling alone. The
shapes overlap: a token has the first shape, in a fixed order, whose pattern it
matches from end to end. Whether the digits of a number suit its radix is checked
where its value is taken. -/

namespace TwoPass

inductive Shape where
  /-- A number marked with `#`. -/
  | marked
  /-- A number that starts with a decimal digit. -/
  | digits
  /-- A number that starts with the radix letter `x` or `b`. -/
  | lettered
  | lowRegister
  | highRegister
  | name
  deriving DecidableEq, Repr

namespace Shape

def isNameStart (character : Char) : Bool :=
  character.isLower || character == '_'

def isNameCharacter (character : Char) : Bool :=
  isNameStart character || character.isDigit

def isHexDigit (character : Char) : Bool :=
  character.isDigit || ('a' ≤ character && character ≤ 'f')

def isBinaryDigit (character : Char) : Bool :=
  character == '0' || character == '1'

def dropMinus : List Char → List Char
  | '-' :: rest => rest
  | text => text

/-- At least one character, and all of one kind. -/
def isRun (kind : Char → Bool) (text : List Char) : Bool :=
  !text.isEmpty && text.all kind

/-- Whether a token matches the pattern of a shape from end to end. -/
def accepts (shape : Shape) (token : List Char) : Bool :=
  match shape with
  | .marked =>
    match token with
    | '#' :: rest => rest.all fun character => isNameCharacter character || character == '-'
    | _ => false
  | .digits =>
    match dropMinus token with
    | first :: rest => first.isDigit && rest.all isNameCharacter
    | [] => false
  | .lettered =>
    match dropMinus token with
    | 'x' :: rest => isRun isHexDigit (dropMinus rest)
    | 'b' :: rest => isRun isBinaryDigit (dropMinus rest)
    | _ => false
  | .lowRegister =>
    match token with
    | 'r' :: rest => isRun Char.isDigit rest
    | _ => false
  | .highRegister =>
    match token with
    | 'h' :: rest => isRun Char.isDigit rest
    | _ => false
  | .name =>
    match token with
    | first :: rest => isNameStart first && rest.all isNameCharacter
    | [] => false

/-- The shapes, each before those that give way to it. -/
def inOrder : List Shape :=
  [.marked, .digits, .lettered, .lowRegister, .highRegister, .name]

def of? (token : String) : Option Shape :=
  inOrder.find? (·.accepts token.toList)

def isNumber : Shape → Bool
  | .marked | .digits | .lettered => true
  | .lowRegister | .highRegister | .name => false

end Shape

/-- Whether a token is read as a number where a label could stand too. A token
without a shape counts as a number, so that what is said of it concerns its
digits rather than an unknown label. -/
def readsAsNumber (token : String) : Bool :=
  match Shape.of? token with
  | some shape => shape.isNumber
  | none => true

def isLabelName (token : String) : Bool :=
  Shape.name.accepts token.toList && !readsAsNumber token

end TwoPass
