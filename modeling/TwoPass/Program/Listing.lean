import TwoPass.Program.Assembly

/-! # Listings

A listing shows the symbol table and then every word with its address and, for an
instruction, its source line. -/

namespace TwoPass.Assembly

def listingLine (address : Address) (emitted : EmittedWord) : String :=
  let word := s!"{address.text}  {Hex.fixed 4 emitted.word.toNat}"
  match emitted.source with
  | some source => s!"{word}  {String.ofList (trim source.toList)}\n"
  | none => s!"{word}\n"

def listing (assembly : Assembly) : String :=
  let lines := assembly.emitted.zipIdx.filterMap fun (emitted, offset) =>
    (assembly.start.offset? offset).map (listingLine · emitted)
  s!"Symbol Table:\n{assembly.symbols.text}\n" ++
    s!"Listing:\n.orig {assembly.start.text}\n" ++ String.join lines

end TwoPass.Assembly
