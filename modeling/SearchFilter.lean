import SearchFilter.Operator
import SearchFilter.Decimal.Binary64
import SearchFilter.Decimal.Shortest
import SearchFilter.Decimal.Layout
import SearchFilter.Decimal.Scaled
import SearchFilter.Operand
import SearchFilter.Error
import SearchFilter.Key
import SearchFilter.Condition
import SearchFilter.Expr.Basic
import SearchFilter.Expr.Walk
import SearchFilter.Expr.Render
import SearchFilter.Expr.Tree
import SearchFilter.Json.Basic
import SearchFilter.Json.Text
import SearchFilter.Json.Numeral
import SearchFilter.Json.Token
import SearchFilter.Json.Written
import SearchFilter.Request.Option
import SearchFilter.Request.Basic
import SearchFilter.Request.Search
import SearchFilter.Duration
import SearchFilter.Config
import SearchFilter.Task.Basic
import SearchFilter.Task.Wait
import SearchFilter.Service.Basic
import SearchFilter.Service.Index
import SearchFilter.Service.Scripted
import SearchFilter.Proofs.Fault
import SearchFilter.Proofs.Expr.Built
import SearchFilter.Proofs.Expr.Entries
import SearchFilter.Proofs.Expr.Loop
import SearchFilter.Proofs.Expr.NormalForm
import SearchFilter.Proofs.Expr.Meaning
import SearchFilter.Proofs.Text.Lines
import SearchFilter.Proofs.Expr.TreeText
import SearchFilter.Proofs.Expr.Readability
import SearchFilter.Proofs.Expr.DeMorgan
import SearchFilter.Proofs.Expr.FirstFault
import SearchFilter.Proofs.Key.Canonical
import SearchFilter.Proofs.Operand.Word
import SearchFilter.Proofs.Expr.LeafText
import SearchFilter.Proofs.Expr.Absorption
import SearchFilter.Proofs.Expr.SignedEntries
import SearchFilter.Proofs.Expr.IndentedText
import SearchFilter.Proofs.Expr.Outline
import SearchFilter.Proofs.Service.Recorded
import SearchFilter.Proofs.Task.Wait
import SearchFilter.Proofs.Request.Slot
import SearchFilter.Proofs.Json.Members
import SearchFilter.Proofs.Request.Assignment
import SearchFilter.Proofs.Request.Members
import SearchFilter.Proofs.Condition.Validity
import SearchFilter.Proofs.Request.Kind
import SearchFilter.Proofs.Request.Setter
import SearchFilter.Proofs.Operand.ListText
import SearchFilter.Proofs.Service.Searching
import SearchFilter.Proofs.Expr.Chain
import SearchFilter.Proofs.Expr.TypedLeaf
import SearchFilter.Proofs.Task.Budget
import SearchFilter.Proofs.Json.Content
import SearchFilter.Proofs.Json.Spelling
import SearchFilter.Proofs.Json.Tokens
import SearchFilter.Proofs.Json.Scanned
import SearchFilter.Proofs.Json.RoundTrip
import SearchFilter.Proofs.Task.Record
import SearchFilter.Proofs.Expr.NestedArray
import SearchFilter.Proofs.Expr.Traversal
