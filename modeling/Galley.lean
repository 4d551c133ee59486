import Galley.Binary64.Literal
import Galley.Directory
import Galley.Main
import Galley.Proofs.Markup.Grammar
import Galley.Proofs.Display.Pairing
import Galley.Proofs.Comment.Lines
import Galley.Proofs.Document.Basic
import Galley.Proofs.Document.Stripping
import Galley.Proofs.Document.Scanning
import Galley.Proofs.Document.Counting
import Galley.Proofs.Decimal.Numeral
import Galley.Proofs.CompileLog.Written
import Galley.Proofs.Failure
import Galley.Proofs.Manuscript.Loading
import Galley.Proofs.CommandLine.Ending
import Galley.Proofs.Manuscript.Invariance
import Galley.Proofs.Binary64.Rounding
import Galley.Proofs.Binary64.Shortest
import Galley.Proofs.Binary64.Bounds
import Galley.Proofs.Binary64.HalfUp
import Galley.Proofs.Estimate.Pricing
import Galley.Proofs.Report.Printing
import Galley.Proofs.CompileLog.Sizes
import Galley.Proofs.CommandLine.Faults
import Galley.Proofs.Comment.Percent
import Galley.Proofs.Diagnostics
import Galley.Proofs.Estimate.Placement
import Galley.Proofs.Markup.ClosedForm
import Galley.Proofs.Display.Deletion
import Galley.Proofs.Wrapping
import Galley.Proofs.Binary64.Nearest
import Galley.Proofs.Binary64.Neighbours
import Galley.Proofs.Binary64.Order
import Galley.Proofs.Decimal.HalfUp
import Galley.Proofs.Binary64.Places
import Galley.Proofs.Estimate.Outcome
import Galley.Proofs.CompileLog.Parsing
import Galley.Proofs.Estimate.Proportion
import Galley.Proofs.Abstract
import Galley.Proofs.WordCounter
import Galley.Proofs.Manuscript.Naming
import Galley.Proofs.Report.ReadBack
import Galley.Proofs.Dimension.Grammar
