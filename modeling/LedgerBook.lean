import LedgerBook.Bcs.Layout
import LedgerBook.Book
import LedgerBook.Event.Bus
import LedgerBook.Event.Draft
import LedgerBook.Http.Exchange
import LedgerBook.Http.RetryPolicy
import LedgerBook.Json.Printer
import LedgerBook.Proofs.Address
import LedgerBook.Proofs.Bcs.Appending
import LedgerBook.Proofs.Bcs.Position
import LedgerBook.Proofs.Bcs.RoundTrip
import LedgerBook.Proofs.Book.Closing
import LedgerBook.Proofs.Book.Failing
import LedgerBook.Proofs.Book.OnDemand
import LedgerBook.Proofs.Book.PageSizes
import LedgerBook.Proofs.Book.Schedules
import LedgerBook.Proofs.Book.Texts
import LedgerBook.Proofs.Config
import LedgerBook.Proofs.Event.Blocks
import LedgerBook.Proofs.Http.Exchange
import LedgerBook.Proofs.Json.Optional
import LedgerBook.Proofs.Leaf.Branch
import LedgerBook.Proofs.Leaf.Type
import LedgerBook.Proofs.Missing
import LedgerBook.Proofs.OrderId
import LedgerBook.Proofs.Page.Nodes
import LedgerBook.Proofs.Paging.Advance
import LedgerBook.Proofs.Redaction
import LedgerBook.Proofs.Redaction.Shortening
import LedgerBook.Proofs.Traversal.Tally
