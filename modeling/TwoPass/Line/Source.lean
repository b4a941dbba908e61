import TwoPass.Text.Blank
import TwoPass.Text.LowerCase
import TwoPass.Text.Pieces

/-! # Source lines

A program is read line by line. Before a line is split into tokens its comment
and surrounding blanks are removed and its case is folded, except inside string
literals, where a comment marker is text like any other. -/

namespace TwoPass

/-- A line of the program as its author wrote it, numbered from zero. -/
structure SourceLine where
  number : Nat
  text : String
  deriving DecidableEq, Repr

namespace SourceLine

def dropReturn (line : List Char) : List Char :=
  if line.getLast? = some '\r' then line.dropLast else line

/-- Cut text into lines. A line feed, or a carriage return with a line feed,
ends a line; text after the last of them is a line too. -/
def split (text : List Char) : List (List Char) :=
  let parts := pieces (· == '\n') text
  let ended := parts.dropLast.map dropReturn
  match parts.getLast? with
  | none | some [] => ended
  | some rest => ended ++ [rest]

def ofText (text : String) : List SourceLine :=
  (split text.toList).zipIdx.map fun entry => ⟨entry.2, String.ofList entry.1⟩

example : split ['a', '\r', '\n', '\n', 'b', '\r'] = [['a'], [], ['b', '\r']] := by decide
example : split ['a', '\n'] = [['a']] := by decide

end SourceLine

def isQuote (character : Char) : Bool :=
  character == '"' || character == '\''

inductive Quoting where
  | outside
  | inside (quote : Char)
  | escaped (quote : Char)
  deriving DecidableEq, Repr

/-- Fold the case of everything outside string literals and stop at a comment
marker there. -/
def foldLine : Quoting → List Char → List Char
  | _, [] => []
  | .outside, character :: rest =>
    if character = ';' then
      []
    else
      lowerCase character ++
        foldLine (if isQuote character then .inside character else .outside) rest
  | .inside quote, character :: rest =>
    character ::
      foldLine
        (if character = '\\' then .escaped quote
          else if character = quote then .outside
          else .inside quote)
        rest
  | .escaped quote, character :: rest =>
    character :: foldLine (.inside quote) rest

/-- The part of a line that matters, without comment and surrounding blanks and
in lower case outside string literals. -/
def normalize (line : List Char) : List Char :=
  trim (foldLine .outside line)

end TwoPass
