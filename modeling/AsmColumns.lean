import AsmColumns.Main
import AsmColumns.Session.Typing
import AsmColumns.Proofs.Text.Ink
import AsmColumns.Proofs.Text.Lines
import AsmColumns.Proofs.Edit.Frame
import AsmColumns.Proofs.Edit.Splice
import AsmColumns.Proofs.Layout.Column
import AsmColumns.Proofs.Session.Typing
import AsmColumns.Proofs.Line.Memory
import AsmColumns.Proofs.Session.Reachable
import AsmColumns.Proofs.Comment.Marks
import AsmColumns.Proofs.Comment.Scan
import AsmColumns.Proofs.Comment.Walk
import AsmColumns.Proofs.Line.Shapes
import AsmColumns.Proofs.Line.Parts
import AsmColumns.Proofs.Line.Grammar
import AsmColumns.Proofs.Layout.Cut
import AsmColumns.Proofs.Layout.Fields
import AsmColumns.Proofs.Layout.Page
import AsmColumns.Proofs.Layout.Preservation
import AsmColumns.Proofs.Layout.Lines
import AsmColumns.Proofs.Layout.Seam
import AsmColumns.Proofs.Layout.Boundary
import AsmColumns.Proofs.Layout.Reread
import AsmColumns.Proofs.Layout.Lays
import AsmColumns.Proofs.Session.Recall
import AsmColumns.Proofs.Settings.Draft
import AsmColumns.Proofs.Session.Attempt
import AsmColumns.Proofs.Layout.Indented
import AsmColumns.Proofs.Layout.Recut
import AsmColumns.Proofs.Layout.Settled
import AsmColumns.Proofs.Comment.Extent
import AsmColumns.Proofs.Line.Pass
import AsmColumns.Proofs.Session.Position
import AsmColumns.Proofs.Command.Printing
import AsmColumns.Proofs.Command.Agreement
import AsmColumns.Proofs.Layout.Blanks
import AsmColumns.Proofs.Comment.Ahead
import AsmColumns.Proofs.Line.Trailing
import AsmColumns.Proofs.Layout.Tokens
import AsmColumns.Proofs.Command.Ending
import AsmColumns.Proofs.Line.Colon
import AsmColumns.Proofs.Line.Indentation
import AsmColumns.Proofs.Edit.Outcome
import AsmColumns.Proofs.Session.Indent
import AsmColumns.Proofs.Session.Label
import AsmColumns.Proofs.Line.Depth
import AsmColumns.Proofs.Comment.Bounds
import AsmColumns.Proofs.Session.Remark
import AsmColumns.Proofs.Edit.Locality
import AsmColumns.Proofs.Line.Label
import AsmColumns.Proofs.Session.RoundTrip
import AsmColumns.Proofs.TabStops.Enumeration
