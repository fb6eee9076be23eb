import Keyset.Document.Record
import Keyset.Main
import Keyset.Proofs.FieldValue.Order
import Keyset.Proofs.FieldValue.Brackets
import Keyset.Proofs.SortOrder.Comparison
import Keyset.Proofs.Rows.InOrder
import Keyset.Proofs.Text.Base64
import Keyset.Proofs.Text.Percent
import Keyset.Proofs.Number.Digits
import Keyset.Proofs.Number.DoubleText
import Keyset.Proofs.Position.RoundTrip
import Keyset.Proofs.Rows.Remaining
import Keyset.Proofs.Rows.Runs
import Keyset.Proofs.Token.RoundTrip
import Keyset.Proofs.Token.Identity
import Keyset.Proofs.Boundary.Selection
import Keyset.Proofs.Find.Server
import Keyset.Proofs.Boundary.Comparison
import Keyset.Proofs.Boundary.Filter
import Keyset.Proofs.Find.Agreement
import Keyset.Proofs.Pager.Mark
import Keyset.Proofs.Pager.Reading
import Keyset.Proofs.Pager.Tally
import Keyset.Proofs.Pager.Walk
import Keyset.Proofs.Pager.Acceptance
import Keyset.Proofs.Pager.Traversal
import Keyset.Proofs.Pager.Turning
import Keyset.Proofs.Pager.Counted
import Keyset.Proofs.Pager.Cutoff
import Keyset.Proofs.Pager.Growth
import Keyset.Proofs.Pager.Navigation
import Keyset.Proofs.Pager.Change
import Keyset.Proofs.Number.TextLength
import Keyset.Proofs.Position.Identity
import Keyset.Proofs.FieldValue.ExactOrder
import Keyset.Proofs.Pager.Planning
import Keyset.Proofs.Pager.Slice
import Keyset.Proofs.Rows.Rearranged
import Keyset.Proofs.Pager.Dependence
import Keyset.Proofs.Rows.Window
import Keyset.Proofs.Token.Pieces
import Keyset.Proofs.Text.Escapes
import Keyset.Proofs.Token.Escapes
import Keyset.Proofs.Pager.Start
import Keyset.Proofs.Number.Numeral
import Keyset.Proofs.Text.Hex
import Keyset.Proofs.Connection.Runs
import Keyset.Proofs.Position.Grammar
import Keyset.Proofs.SortOrder.Grammar
import Keyset.Proofs.JsonLines.Joining
