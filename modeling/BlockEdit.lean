import BlockEdit.Main
import BlockEdit.Proofs.Block.Reading
import BlockEdit.Proofs.Block.Nesting
import BlockEdit.Proofs.Path.Pieces
import BlockEdit.Proofs.Store.Nodes
import BlockEdit.Proofs.Store.Ways
import BlockEdit.Proofs.Path.Parents
import BlockEdit.Proofs.Store.Beside
import BlockEdit.Proofs.Store.Replacement
import BlockEdit.Proofs.Store.Write
import BlockEdit.Proofs.Text.Parts
import BlockEdit.Proofs.Text.Matches
import BlockEdit.Proofs.Document.Spans
import BlockEdit.Proofs.Block.Locality
import BlockEdit.Proofs.Edit.Anchored
import BlockEdit.Proofs.Edit.Idempotence
import BlockEdit.Proofs.Path.NormalForm
import BlockEdit.Proofs.Store.LinkFree
import BlockEdit.Proofs.Batch.Aliases
import BlockEdit.Proofs.Store.SameWays
import BlockEdit.Proofs.Store.Course
import BlockEdit.Proofs.Batch.Editing
import BlockEdit.Proofs.Batch.Atomicity
import BlockEdit.Proofs.Batch.Rerun
import BlockEdit.Proofs.Batch.Steps
import BlockEdit.Proofs.Batch.Report
import BlockEdit.Proofs.Store.Sight
import BlockEdit.Proofs.Batch.Forecast
import BlockEdit.Proofs.Batch.Policies
import BlockEdit.Proofs.Store.Exchange
import BlockEdit.Proofs.Batch.Locality
import BlockEdit.Proofs.Batch.Order
import BlockEdit.Proofs.Path.Ancestors
import BlockEdit.Proofs.Store.Directories
import BlockEdit.Proofs.Store.Outcome
import BlockEdit.Proofs.Store.WriteEffect
import BlockEdit.Proofs.Diff.Compaction
import BlockEdit.Proofs.Diff.Hunks
import BlockEdit.Proofs.Diff.Patch
import BlockEdit.Proofs.Diff.Spans
import BlockEdit.Proofs.Batch.Preview
import BlockEdit.Proofs.Manifest.RoundTrip
import BlockEdit.Proofs.Batch.ReportText
import BlockEdit.Proofs.Manifest.Blame
import BlockEdit.Proofs.CommandLine.SingleFile
import BlockEdit.Proofs.Path.Meaning
import BlockEdit.Proofs.Text.Overlap
import BlockEdit.Proofs.Text.Greedy
import BlockEdit.Proofs.Edit.Front
import BlockEdit.Proofs.Block.Cuts
import BlockEdit.Proofs.Block.WellNested
import BlockEdit.Proofs.Block.Counting
import BlockEdit.Proofs.Store.Disk
import BlockEdit.Proofs.Store.Rivals
import BlockEdit.Proofs.Edit.Together
import BlockEdit.Proofs.Batch.Split
import BlockEdit.Proofs.Diff.Counts
import BlockEdit.Proofs.Batch.Tally
import BlockEdit.Proofs.Path.Absolute
import BlockEdit.Proofs.Path.Joining
import BlockEdit.Proofs.Path.Roots
import BlockEdit.Proofs.Path.Rejoining
import BlockEdit.Proofs.Edit.Record
import BlockEdit.Proofs.Edit.Layout
import BlockEdit.Proofs.Text.Encoding
import BlockEdit.Proofs.Text.ByteSearch
import BlockEdit.Proofs.Block.Scan
import BlockEdit.Proofs.Document.LineNumbers
import BlockEdit.Proofs.Document.Boundaries
import BlockEdit.Proofs.Diff.Roles
import BlockEdit.Proofs.CommandLine.Colours
