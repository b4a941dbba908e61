import TwoPass.Line.Source

/-! # Tokens

A string literal runs from the first quote to the end of the line and is one
token. What stands before it is cut at commas, colons and blanks. -/

namespace TwoPass

def separatesTokens (character : Char) : Bool :=
  character == ',' || character == ':' || isBlank character

def tokenize (line : List Char) : List String :=
  let plain := words separatesTokens (line.takeWhile (!isQuote ·))
  let literal :=
    match line.dropWhile (!isQuote ·) with
    | [] => []
    | quoted => [trimEnd quoted]
  (plain ++ literal).map String.ofList

def startsWith (mark : Char) (token : String) : Bool :=
  token.toList.head? == some mark

/-- The operands inside a group such as `[r1, #4]`, whose brackets the tokens of
the group still carry. A group is enclosed once, and empty operands in it do not
count. -/
def enclosed? (opening closing : Char) (tokens : List String) : Option (List String) :=
  match tokens.map String.toList with
  | [] => none
  | first :: others =>
    let last := others.getLastD first
    if first.head? = some opening ∧ last.getLast? = some closing then
      let opened := first.tail :: others
      let inner := opened.dropLast ++ [(opened.getLastD []).dropLast]
      let operands := inner.filter (!·.isEmpty)
      if operands.any fun operand => operand.contains opening || operand.contains closing then
        none
      else
        some (operands.map String.ofList)
    else
      none

end TwoPass
