import TwoPass.Line.Source
import TwoPass.Problem

/-! # String literals

A literal is enclosed in two quotes of one kind, and holds at least one
character. A backslash and a second character stand for one character, and the
enclosing quote can only be written that way. -/

namespace TwoPass.Literal

/-- The character that a backslash before `mark` stands for. -/
def escapedCharacter? : Char → Option Char
  | '\\' => some '\\'
  | '\'' => some '\''
  | '"' => some '"'
  | 'n' => some '\n'
  | 'r' => some '\r'
  | 't' => some '\t'
  | _ => none

def unescape? (quote : Char) : List Char → Option (List Char)
  | [] => some []
  | ['\\'] => none
  | '\\' :: mark :: rest => do
    let character ← escapedCharacter? mark
    let others ← unescape? quote rest
    return character :: others
  | character :: rest =>
    if character = quote then none else (unescape? quote rest).map (character :: ·)

def body? : List Char → Option (Char × List Char)
  | [] => none
  | quote :: rest =>
    if isQuote quote ∧ rest.getLast? = some quote then some (quote, rest.dropLast) else none

def characters (literal : String) : Except Problem (List Char) :=
  match body? literal.toList with
  | none => .error (.malformedString literal)
  | some (_, []) => .error .emptyString
  | some (quote, body) =>
    match unescape? quote body with
    | some characters => .ok characters
    | none => .error (.malformedString literal)

def codes (literal : String) : Except Problem (List Nat) := do
  let characters ← characters literal
  return characters.map Char.toNat

end TwoPass.Literal
