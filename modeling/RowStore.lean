import RowStore.Bytes.Lemmas
import RowStore.Engine.Statement
import RowStore.Proofs.Heap.Mirror
import RowStore.Proofs.Engine.Insertion
import RowStore.Proofs.Engine.Registries
import RowStore.Proofs.Page.History
import RowStore.Proofs.Condition.Meaning
import RowStore.Proofs.Heap.Apart
import RowStore.Proofs.Heap.Sweeping
import RowStore.Proofs.Disk.Joining
import RowStore.Proofs.Catalog.RoundTrip
import RowStore.Proofs.Text.Utf8
import RowStore.Proofs.Heap.Storing
import RowStore.Proofs.Heap.History
import RowStore.Proofs.Row.RoundTrip
import RowStore.Proofs.Relation.Bags
import RowStore.Proofs.Reference.Runs
import RowStore.Proofs.Engine.Denoting
import RowStore.Proofs.Catalog.History
import RowStore.Proofs.Engine.Isolation
import RowStore.Proofs.Heap.Scanning
import RowStore.Proofs.Engine.Bindings
import RowStore.Proofs.Engine.Interruption
import RowStore.Proofs.Engine.Rejecting
import RowStore.Proofs.Engine.Rewriting
import RowStore.Proofs.Engine.Targeting
import RowStore.Proofs.Engine.Finding
import RowStore.Proofs.Engine.LeftJoin
import RowStore.Proofs.Heap.Placing
import RowStore.Proofs.Condition.Integers
import RowStore.Proofs.Condition.Alternatives
import RowStore.Proofs.Heap.Foreseeing
import RowStore.Proofs.Engine.OwnName
import RowStore.Proofs.Catalog.Grammar
import RowStore.Proofs.Page.Safe
import RowStore.Proofs.Row.Normalising
import RowStore.Proofs.Row.Truncation
import RowStore.Proofs.Heap.Succession
import RowStore.Proofs.Disk.ReadBack
import RowStore.Proofs.Report.Layout
import RowStore.Proofs.Condition.Running
