import VennDiagram.Command.Arguments
import VennDiagram.Command.Invocation
import VennDiagram.Command.Run
import VennDiagram.Document.Basic
import VennDiagram.Document.Defect
import VennDiagram.Document.Reader
import VennDiagram.Document.Writer
import VennDiagram.Failure
import VennDiagram.Files.Basic
import VennDiagram.Files.Tree
import VennDiagram.Formula.Basic
import VennDiagram.Formula.Clause
import VennDiagram.Formula.Dimacs
import VennDiagram.Formula.Result
import VennDiagram.Formula.Search
import VennDiagram.Geometry.Circle
import VennDiagram.Geometry.TextBox
import VennDiagram.Json.Basic
import VennDiagram.Json.Bytes
import VennDiagram.Json.File
import VennDiagram.Json.Reader
import VennDiagram.Json.Writer
import VennDiagram.Log.Basic
import VennDiagram.Main
import VennDiagram.Number.Binary64
import VennDiagram.Number.Circular
import VennDiagram.Number.Hypotenuse
import VennDiagram.Number.Scalar
import VennDiagram.Number.Shortest
import VennDiagram.Number.Written
import VennDiagram.Order.Merge
import VennDiagram.Order.Runs
import VennDiagram.Order.Search
import VennDiagram.Placement.Arrangement
import VennDiagram.Placement.Candidate
import VennDiagram.Placement.Encoding
import VennDiagram.Placement.Layout
import VennDiagram.Placement.Record
import VennDiagram.Placement.Run
import VennDiagram.Rules.Basic
import VennDiagram.Rules.Override
import VennDiagram.Service.Basic
import VennDiagram.Service.Body
import VennDiagram.Service.Endpoint
import VennDiagram.Service.Framework
import VennDiagram.Service.Query
import VennDiagram.Text.Blank
import VennDiagram.Text.Capital
import VennDiagram.Text.Digit
import VennDiagram.Text.Lines
import VennDiagram.Text.Numeral
import VennDiagram.Text.Printable
import VennDiagram.Text.Quoted
import VennDiagram.Text.Units
import VennDiagram.Text.Utf8
import VennDiagram.Proofs.Formula.Counters
import VennDiagram.Proofs.Formula.Exploration
import VennDiagram.Proofs.Formula.Walk
import VennDiagram.Proofs.Formula.Decide
import VennDiagram.Proofs.Placement.Choice
import VennDiagram.Proofs.Placement.Models
import VennDiagram.Proofs.Placement.Least
import VennDiagram.Proofs.Placement.Independence
import VennDiagram.Proofs.Order.Permutation
import VennDiagram.Proofs.Number.Distance
import VennDiagram.Proofs.Placement.Candidates
import VennDiagram.Proofs.Placement.Picks
import VennDiagram.Proofs.Placement.Outcome
import VennDiagram.Proofs.Placement.Reordering
import VennDiagram.Proofs.Formula.TokenStream
import VennDiagram.Proofs.Text.Utf8
import VennDiagram.Proofs.Command.Solving
import VennDiagram.Proofs.Number.Order
import VennDiagram.Proofs.Number.Doubles
import VennDiagram.Proofs.Number.Rounding
import VennDiagram.Proofs.Number.Sums
import VennDiagram.Proofs.Placement.Relaxing
import VennDiagram.Proofs.Placement.Exact
import VennDiagram.Proofs.Placement.Agreement
import VennDiagram.Proofs.Placement.Categories
import VennDiagram.Proofs.Formula.Session
import VennDiagram.Proofs.Text.Numeral
import VennDiagram.Proofs.Text.Words
import VennDiagram.Proofs.Formula.LiteralSets
import VennDiagram.Proofs.Formula.Writing
import VennDiagram.Proofs.Formula.Beside
import VennDiagram.Proofs.Placement.Renumbering
import VennDiagram.Proofs.Placement.Checked
import VennDiagram.Proofs.Placement.Building
import VennDiagram.Proofs.Placement.Faultless
import VennDiagram.Proofs.Placement.Memberships
import VennDiagram.Proofs.Document.RoundTrip
import VennDiagram.Proofs.Formula.Tautology
import VennDiagram.Proofs.Placement.RoundTrip
import VennDiagram.Proofs.Json.Display
import VennDiagram.Proofs.Json.Reading
import VennDiagram.Proofs.Service.Lawful
import VennDiagram.Proofs.Service.Documents
import VennDiagram.Proofs.Service.Requests
import VennDiagram.Proofs.Service.Web
import VennDiagram.Proofs.Service.Session
import VennDiagram.Proofs.Service.Agreement
import VennDiagram.Proofs.Formula.Consistency
import VennDiagram.Proofs.Formula.Balance
import VennDiagram.Proofs.Formula.Tries
import VennDiagram.Proofs.Placement.Bookkeeping
import VennDiagram.Proofs.Document.WellFormed
import VennDiagram.Proofs.Placement.Sweep
import VennDiagram.Proofs.Placement.Ranking
import VennDiagram.Proofs.Number.Steps
import VennDiagram.Proofs.Placement.Region
import VennDiagram.Proofs.Placement.Fallback
import VennDiagram.Proofs.Placement.Ending
import VennDiagram.Proofs.Geometry.Overlap
import VennDiagram.Proofs.Geometry.Reach
import VennDiagram.Proofs.Number.Integers
import VennDiagram.Proofs.Document.Schema
import VennDiagram.Proofs.Rules.Overriding
import VennDiagram.Proofs.Rules.Loading
import VennDiagram.Proofs.Rules.Composition
import VennDiagram.Proofs.Placement.Relations
import VennDiagram.Proofs.Formula.Comments
import VennDiagram.Proofs.Formula.Undo
