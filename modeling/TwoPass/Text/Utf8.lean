/-! # UTF-8

Bytes are read one at a time. Between bytes the reader either stands between
characters or still owes some bytes of one, of which the next lies in a known
range. A byte that cannot follow ends the unfinished character, which counts as
one fault, and is then read as a first byte itself. -/

namespace TwoPass.Utf8

structure Unfinished where
  bits : Nat
  /-- How many bytes are owed after the next one. -/
  owed : Nat
  low : Nat
  high : Nat

inductive Reading where
  | character (code : Nat)
  | unfinished (state : Unfinished)
  | fault

def first (byte : Nat) : Reading :=
  if byte ≤ 0x7F then .character byte
  else if byte < 0xC2 then .fault
  else if byte ≤ 0xDF then .unfinished ⟨byte - 0xC0, 0, 0x80, 0xBF⟩
  else if byte = 0xE0 then .unfinished ⟨0, 1, 0xA0, 0xBF⟩
  else if byte = 0xED then .unfinished ⟨0xD, 1, 0x80, 0x9F⟩
  else if byte ≤ 0xEF then .unfinished ⟨byte - 0xE0, 1, 0x80, 0xBF⟩
  else if byte = 0xF0 then .unfinished ⟨0, 2, 0x90, 0xBF⟩
  else if byte ≤ 0xF3 then .unfinished ⟨byte - 0xF0, 2, 0x80, 0xBF⟩
  else if byte = 0xF4 then .unfinished ⟨4, 2, 0x80, 0x8F⟩
  else .fault

def Unfinished.next (state : Unfinished) (byte : Nat) : Reading :=
  if state.low ≤ byte ∧ byte ≤ state.high then
    let bits := state.bits * 64 + (byte - 0x80)
    match state.owed with
    | 0 => .character bits
    | owed + 1 => .unfinished ⟨bits, owed, 0x80, 0xBF⟩
  else
    .fault

/-- The characters that bytes spell, with `none` for each fault. -/
def decode : Option Unfinished → List UInt8 → List (Option Char)
  | none, [] => []
  | some _, [] => [none]
  | none, byte :: bytes =>
    match first byte.toNat with
    | .character code => some (Char.ofNat code) :: decode none bytes
    | .unfinished state => decode (some state) bytes
    | .fault => none :: decode none bytes
  | some state, byte :: bytes =>
    match state.next byte.toNat with
    | .character code => some (Char.ofNat code) :: decode none bytes
    | .unfinished state => decode (some state) bytes
    | .fault =>
      match first byte.toNat with
      | .character code => none :: some (Char.ofNat code) :: decode none bytes
      | .unfinished state => none :: decode (some state) bytes
      | .fault => none :: none :: decode none bytes

def bytes (text : String) : List UInt8 :=
  text.toUTF8.toList

def text? (bytes : List UInt8) : Option String :=
  String.fromUTF8? ⟨bytes.toArray⟩

/-- The text that bytes spell, with the replacement character for each fault. -/
def replacingFaults (bytes : List UInt8) : String :=
  String.ofList ((decode none bytes).map (·.getD '\ufffd'))

example : decode none [0x41, 0xC3, 0xA9] = [some 'A', some 'é'] := by decide
example : decode none [0xE2, 0x82, 0x41] = [none, some 'A'] := by decide
example : decode none [0xFF, 0xC3] = [none, none] := by decide

end TwoPass.Utf8
