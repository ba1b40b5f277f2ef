import Formula.Assertion
import Formula.Main
import Formula.Proofs.Grammar
import Formula.Proofs.Lookahead
import Formula.Proofs.Refusal
import Formula.Proofs.Nesting
import Formula.Proofs.Reading
import Formula.Proofs.Verdict
import Formula.Proofs.ProgramVerdict
import Formula.Proofs.Replay
import Formula.Proofs.SourceTokens
import Formula.Proofs.ProgramReplay
import Formula.Proofs.Correctness
import Formula.Proofs.Spelling
import Formula.Proofs.Relabeling
import Formula.Proofs.Completion
import Formula.Proofs.EarliestError
import Formula.Proofs.Height
import Formula.Proofs.Lexicon
import Formula.Proofs.MaximalMunch
import Formula.Proofs.Detokenizing
import Formula.Proofs.Layout
import Formula.Proofs.Coverage
import Formula.Proofs.LazyReading
import Formula.Proofs.Composition
import Formula.Proofs.Shape
import Formula.Proofs.TokenOrder
import Formula.Proofs.NestingLimit
import Formula.Proofs.Decoding
import Formula.Proofs.Documents
import Formula.Proofs.GenuineTrees
import Formula.Proofs.BracketedForm
import Formula.Proofs.WrittenForms
import Formula.Proofs.DisplayTokens
import Formula.Proofs.Commas
import Formula.Proofs.DisplayParse
import Formula.Proofs.OpenBrackets
import Formula.Proofs.ErrorSpans
import Formula.Proofs.Formats
import Formula.Proofs.InputRoutes
import Formula.Proofs.Walks
import Formula.Proofs.OutlineLines
import Formula.Proofs.Reports
import Formula.Proofs.AdjacentStatements
import Formula.Proofs.Layering
import Formula.Proofs.OperatorNames
import Formula.Proofs.Progress
