import TwoPass.Command.FileTree
import TwoPass.Command.Run
import TwoPass.Main
import TwoPass.Program.RecentArtifacts
import TwoPass.Program.Listing
import TwoPass.Program.Trace
import TwoPass.Proofs.Outline
import TwoPass.Proofs.Draft
import TwoPass.Proofs.Layout
import TwoPass.Proofs.FirstPass
import TwoPass.Proofs.SecondPass
import TwoPass.Proofs.Reports
import TwoPass.Proofs.OneShot
import TwoPass.Proofs.EncodingErrors
import TwoPass.Proofs.FieldRange
import TwoPass.Proofs.RelativeOperands
import TwoPass.Proofs.Outcome
import TwoPass.Proofs.Emission
import TwoPass.Proofs.Progress
import TwoPass.Proofs.Sections
import TwoPass.Proofs.DefinedLabels
import TwoPass.Proofs.Relocation
import TwoPass.Proofs.Locality
import TwoPass.Proofs.Tokens
import TwoPass.Proofs.Prologue
import TwoPass.Proofs.LiteralGrammar
import TwoPass.Proofs.StringLiterals
import TwoPass.Proofs.BaselineWords
import TwoPass.Proofs.CompactDecoder
import TwoPass.Proofs.CompactRows
import TwoPass.Proofs.CompactWords
import TwoPass.Proofs.FixupOrder
import TwoPass.Proofs.Faults
import TwoPass.Proofs.Provenance
import TwoPass.Proofs.RegisterSpellings
import TwoPass.Proofs.SourceMap
import TwoPass.Proofs.RegisterAliases
import TwoPass.Proofs.EndOfReading
import TwoPass.Proofs.ArtifactHistory
import TwoPass.Proofs.FileViews
import TwoPass.Proofs.FileEffects
import TwoPass.Proofs.NumeralGrammar
import TwoPass.Proofs.NumberOrLabel
import TwoPass.Proofs.RegisterSets
import TwoPass.Proofs.OperandGroups
import TwoPass.Proofs.LooseGroups
import TwoPass.Proofs.UnsignedOperands
import TwoPass.Proofs.NumberOperands
import TwoPass.Proofs.SerializedForms
import TwoPass.Proofs.TraceEvents
import TwoPass.Proofs.LowerCaseForms
import TwoPass.Proofs.NormalLines
import TwoPass.Proofs.FieldCoding
import TwoPass.Proofs.CellOrigins
import TwoPass.Proofs.TokenGaps
