import TwoPass.Program.Assembly

/-! # The artifacts made last

What was last made of a user's program is held until the next one. Assembling a
user's program replaces it, and leaves nothing if there is an error. Other
programs do not touch it. -/

namespace TwoPass

structure Artifacts where
  object : List UInt8
  symbols : String
  deriving DecidableEq, Repr

structure RecentArtifacts where
  object : Option (List UInt8) := none
  symbols : Option String := none
  deriving DecidableEq, Repr

namespace RecentArtifacts

/-- The artifacts, if there are both. -/
def held (recent : RecentArtifacts) : Option Artifacts := do
  let object ← recent.object
  let symbols ← recent.symbols
  return { object, symbols }

def clear (recent : RecentArtifacts) : RecentArtifacts :=
  { recent with object := none, symbols := none }

def store (recent : RecentArtifacts) (assembly : Assembly) : RecentArtifacts :=
  { recent with
    object := some assembly.binary.bytes
    symbols := some assembly.symbols.text }

def assemble (recent : RecentArtifacts) (options : Options) (source : String) :
    RecentArtifacts × Except Failure Assembly :=
  let result := TwoPass.assemble options source
  match options.role with
  | .library => (recent, result)
  | .primary =>
    match result with
    | .ok assembly => (recent.clear.store assembly, result)
    | .error _ => (recent.clear, result)

end RecentArtifacts

end TwoPass
