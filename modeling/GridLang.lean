import GridLang.Main
import GridLang.Playground.Server
import GridLang.Proofs.AlignedLayout
import GridLang.Proofs.CallChain
import GridLang.Proofs.CallDepth
import GridLang.Proofs.CanonicalGrid
import GridLang.Proofs.EndedRuns
import GridLang.Proofs.Evaluation
import GridLang.Proofs.Grammar
import GridLang.Proofs.InsertedPrograms
import GridLang.Proofs.InvalidSource
import GridLang.Proofs.JoinedSource
import GridLang.Proofs.LimitedRuns
import GridLang.Proofs.LongestLexeme
import GridLang.Proofs.Moves
import GridLang.Proofs.Numerals
import GridLang.Proofs.PageMarkup
import GridLang.Proofs.Positions
import GridLang.Proofs.PrintedScript
import GridLang.Proofs.PrintedTokens
import GridLang.Proofs.QuotedLexeme
import GridLang.Proofs.Reachability
import GridLang.Proofs.Redirects
import GridLang.Proofs.Relabeling
import GridLang.Proofs.RenderedHtml
import GridLang.Proofs.ResubmittedForm
import GridLang.Proofs.RunLength
import GridLang.Proofs.SegmentNames
import GridLang.Proofs.SessionIsolation
import GridLang.Proofs.SubmittedGrid
import GridLang.Proofs.Tokenization
import GridLang.Proofs.TypedText
import GridLang.Proofs.UsageMessages
import GridLang.Proofs.ViablePrefix
import GridLang.Proofs.WrittenAddresses
import GridLang.Proofs.WrittenCells
