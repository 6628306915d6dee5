import NodePath.Main
import NodePath.Proofs.Grammar
import NodePath.Proofs.GrammarComplete
import NodePath.Proofs.Recognition
import NodePath.Proofs.Utf8
import NodePath.Proofs.Lexemes
import NodePath.Proofs.Tiling
import NodePath.Proofs.Rounding
import NodePath.Proofs.ShortestDecimal
import NodePath.Proofs.Numerals
import NodePath.Proofs.Scanning
import NodePath.Proofs.WellFormed
import NodePath.Proofs.CanonicalTokens
import NodePath.Proofs.CanonicalDerivation
import NodePath.Proofs.RoundTrip
import NodePath.Proofs.Verdict
import NodePath.Proofs.Everywhere
import NodePath.Proofs.Walks
import NodePath.Proofs.Leaves
import NodePath.Proofs.DumpExact
import NodePath.Proofs.NodeInvariants
import NodePath.Proofs.DumpTranslation
import NodePath.Proofs.Readings
import NodePath.Proofs.Locality
import NodePath.Proofs.ViablePrefix
import NodePath.Proofs.OperatorChains
import NodePath.Proofs.Positions
import NodePath.Proofs.Relexing
import NodePath.Proofs.LexicalErrors
import NodePath.Proofs.SingleLines
import NodePath.Proofs.ErrorPlaces
import NodePath.Proofs.Respacing
import NodePath.Proofs.FirstFailure
import NodePath.Proofs.MaximalMunch
import NodePath.Proofs.Bracketing
import NodePath.Proofs.WorkerPool
import NodePath.Proofs.LostOutput
import NodePath.Proofs.SelectorRuns
import NodePath.Proofs.JsonDepth
import NodePath.Proofs.Lookahead
import NodePath.Proofs.JsonReader
import NodePath.Proofs.JsonRoundTrip
import NodePath.Proofs.DumpJson
import NodePath.Proofs.Significance
import NodePath.Proofs.Spelling
import NodePath.Proofs.Tables
import NodePath.Proofs.Trimming
import NodePath.Proofs.BindingFiles
import NodePath.Proofs.CommandLine
import NodePath.Proofs.OutlineLines
import NodePath.Proofs.MissingParts
import NodePath.Proofs.IntegerLiterals
import NodePath.Proofs.CursorReader
import NodePath.Proofs.CursorFollows
import NodePath.Proofs.CursorProgress
