import TwoPass.Operand.Literal
import TwoPass.Profile

/-! # Statements

A statement is what stands on a line after its label. Instructions and storage
directives place words; the other directives steer the assembler. -/

namespace TwoPass

inductive Storage where
  | fill
  /-- Copies of one word. -/
  | block
  /-- The characters of a string, one to a word, and a zero. -/
  | string
  deriving DecidableEq, Repr

namespace Storage

def name : Storage → String
  | .fill => ".fill"
  | .block => ".blkw"
  | .string => ".stringz"

def arity : Storage → Arity
  | .fill | .string => .exactly 1
  | .block => .between 1 2

/-- The number of words in a block. It is no label, because it must be known when
later words are placed, and unlike other words it has no negative reading. -/
def blockCount (token : String) : Except Problem Nat := do
  let count ← Numeral.parse token
  if 0 ≤ count ∧ count ≤ 65535 then
    return count.toNat
  else
    .error (.immediateOutOfRange token .word)

/-- Data with its labels still unresolved. -/
inductive Content where
  | copies (count : Nat) (value : WordOperand)
  | codes (values : List Nat)
  deriving DecidableEq, Repr

def parse (storage : Storage) (operands : List String) : Except Problem Content :=
  match storage, operands with
  | .fill, [value] => .copies 1 <$> WordOperand.parse value
  | .block, [count] => do return .copies (← blockCount count) (.number 0)
  | .block, [count, value] => do
    let count ← blockCount count
    return .copies count (← WordOperand.parse value)
  | .string, [literal] => do return .codes ((← Literal.codes literal) ++ [0])
  | storage, operands => .error (.operandCount storage.name storage.arity operands.length)

namespace Content

def label? : Content → Option String
  | .copies _ value => value.label?
  | .codes _ => none

def resolve (labels : Labels) : Content → Except Problem (List Nat)
  | .copies count value => List.replicate count <$> value.resolve labels
  | .codes values => .ok values

end Content

def encode (labels : Labels) (storage : Storage) (operands : List String) :
    Except Problem Encoding := do
  let content ← storage.parse operands
  let words ← content.resolve labels
  return ⟨words, content.label?.any labels.defers⟩

/-- How many words a storage directive takes up when it cannot be encoded. Of a
bad string nothing is known. -/
def failedLength (storage : Storage) (operands : List String) : Nat :=
  match storage, operands with
  | .fill, _ => 1
  | .block, count :: _ => (blockCount count).toOption.getD 0
  | _, _ => 0

end Storage

inductive Directive where
  | origin
  | finish
  | text
  | data
  /-- Declare the entry point. -/
  | global
  | storage (kind : Storage)
  deriving DecidableEq, Repr

namespace Directive

def name : Directive → String
  | .origin => ".orig"
  | .finish => ".end"
  | .text => ".text"
  | .data => ".data"
  | .global => ".global"
  | .storage kind => kind.name

def arity : Directive → Arity
  | .finish | .text | .data => .exactly 0
  | .origin | .global => .exactly 1
  | .storage kind => kind.arity

def concernsSections : Directive → Bool
  | .text | .data | .global => true
  | .origin | .finish | .storage _ => false

def all : List Directive :=
  [.origin, .finish, .text, .data, .global, .storage .fill, .storage .block, .storage .string]

def ofName? (profile : Profile) (name : String) : Option Directive :=
  all.find? fun directive =>
    directive.name == name && (!directive.concernsSections || profile.sectioned)

end Directive

inductive Statement where
  | instruction (mnemonic : String) (operands : List String)
  | storage (kind : Storage) (operands : List String)
  deriving DecidableEq, Repr

namespace Statement

def name : Statement → String
  | .instruction mnemonic _ => mnemonic
  | .storage kind _ => kind.name

def operands : Statement → List String
  | .instruction _ operands => operands
  | .storage _ operands => operands

def text (statement : Statement) : String :=
  match statement.operands with
  | [] => statement.name
  | operands => statement.name ++ " " ++ ", ".intercalate operands

def encode (profile : Profile) (labels : Labels) (pc : Nat) : Statement → Except Problem Encoding
  | .instruction mnemonic operands => profile.encode labels pc mnemonic operands
  | .storage kind operands => kind.encode labels operands

def failedLength : Statement → Nat
  | .instruction _ _ => 1
  | .storage kind operands => kind.failedLength operands

end Statement

structure LabelledTokens where
  label : Option String
  statement : List String
  deriving DecidableEq, Repr

namespace Profile

/-- Whether a first token would define a label: anything but a directive or a
mnemonic. -/
def mayDefine (profile : Profile) (token : String) : Bool :=
  !startsWith '.' token && !profile.isMnemonic token

def onlyOperand (profile : Profile) (token : String) : Bool :=
  profile.isRegister token || readsAsNumber token

/-- Find the label of a line. A first token that is neither directive nor
mnemonic is a label, unless an operand follows: then it is a misspelled
mnemonic. -/
def takeLabel (profile : Profile) : List String → LabelledTokens
  | [] => ⟨none, []⟩
  | [first] =>
    if profile.mayDefine first then ⟨some first, []⟩ else ⟨none, [first]⟩
  | first :: second :: rest =>
    if profile.mayDefine first && !(profile.mayDefine second && profile.onlyOperand second) then
      ⟨some first, second :: rest⟩
    else
      ⟨none, first :: second :: rest⟩

end Profile

end TwoPass
