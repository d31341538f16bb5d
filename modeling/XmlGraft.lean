import XmlGraft.Bisect
import XmlGraft.Command.Arguments
import XmlGraft.Command.Run
import XmlGraft.Data.Basic
import XmlGraft.Data.Json
import XmlGraft.Data.Number
import XmlGraft.Edit.Address
import XmlGraft.Edit.Assignment
import XmlGraft.Edit.Decode
import XmlGraft.Edit.Fields
import XmlGraft.Edit.Route
import XmlGraft.Edit.Scalar
import XmlGraft.Edit.Script
import XmlGraft.Edit.Target
import XmlGraft.Files.Disk
import XmlGraft.Files.Fault
import XmlGraft.Files.Storage
import XmlGraft.Files.Update
import XmlGraft.Graft.Basic
import XmlGraft.Graft.Failure
import XmlGraft.Graft.Maven
import XmlGraft.Graft.Update
import XmlGraft.Layout.Comment
import XmlGraft.Layout.Convention
import XmlGraft.Layout.IndentUnit
import XmlGraft.Layout.Lines
import XmlGraft.Layout.Printed
import XmlGraft.Main
import XmlGraft.Markup.Annotated
import XmlGraft.Markup.Attribute
import XmlGraft.Markup.Copied
import XmlGraft.Markup.Document
import XmlGraft.Markup.Error
import XmlGraft.Markup.Event
import XmlGraft.Markup.Reference
import XmlGraft.Markup.Token
import XmlGraft.Markup.Tree
import XmlGraft.Markup.Written
import XmlGraft.Proofs.Command.DryRun
import XmlGraft.Proofs.Command.Modes
import XmlGraft.Proofs.Edit.Filled
import XmlGraft.Proofs.Edit.LineEnds
import XmlGraft.Proofs.Edit.Places
import XmlGraft.Proofs.Edit.Provenance
import XmlGraft.Proofs.Edit.RoundTrip
import XmlGraft.Proofs.Edit.Routes
import XmlGraft.Proofs.Edit.Scripts
import XmlGraft.Proofs.Edit.Typed
import XmlGraft.Proofs.Edit.Values
import XmlGraft.Proofs.Edit.Walks
import XmlGraft.Proofs.Files.Replacing
import XmlGraft.Proofs.Files.Updating
import XmlGraft.Proofs.Graft.Again
import XmlGraft.Proofs.Graft.Anchors
import XmlGraft.Proofs.Graft.Comments
import XmlGraft.Proofs.Graft.Copying
import XmlGraft.Proofs.Graft.Keys
import XmlGraft.Proofs.Graft.Laid
import XmlGraft.Proofs.Graft.LaidTree
import XmlGraft.Proofs.Graft.Locality
import XmlGraft.Proofs.Graft.Marker
import XmlGraft.Proofs.Graft.Others
import XmlGraft.Proofs.Graft.Plugins
import XmlGraft.Proofs.Graft.Prepared
import XmlGraft.Proofs.Graft.Printed
import XmlGraft.Proofs.Graft.Recognized
import XmlGraft.Proofs.Graft.Refusals
import XmlGraft.Proofs.Graft.Regraft
import XmlGraft.Proofs.Graft.Rendered
import XmlGraft.Proofs.Graft.Reports
import XmlGraft.Proofs.Graft.Retrace
import XmlGraft.Proofs.Graft.Settled
import XmlGraft.Proofs.Graft.Shifted
import XmlGraft.Proofs.Graft.Supplies
import XmlGraft.Proofs.Graft.Terminators
import XmlGraft.Proofs.Graft.Twice
import XmlGraft.Proofs.Graft.Updates
import XmlGraft.Proofs.Layout.Cuts
import XmlGraft.Proofs.Layout.Entries
import XmlGraft.Proofs.Layout.Majority
import XmlGraft.Proofs.Markup.Attributes
import XmlGraft.Proofs.Markup.Blame
import XmlGraft.Proofs.Markup.Content
import XmlGraft.Proofs.Markup.Copied
import XmlGraft.Proofs.Markup.Documents
import XmlGraft.Proofs.Markup.Extents
import XmlGraft.Proofs.Markup.Joined
import XmlGraft.Proofs.Markup.Lexeme
import XmlGraft.Proofs.Markup.Names
import XmlGraft.Proofs.Markup.Nesting
import XmlGraft.Proofs.Markup.Nodes
import XmlGraft.Proofs.Markup.Reading
import XmlGraft.Proofs.Markup.References
import XmlGraft.Proofs.Markup.Tags
import XmlGraft.Proofs.Markup.Twins
import XmlGraft.Proofs.Source.Positions
import XmlGraft.Proofs.Source.Rows
import XmlGraft.Proofs.Text.Pieces
import XmlGraft.Proofs.Text.Splitting
import XmlGraft.Proofs.Text.Terminators
import XmlGraft.Settings.Basic
import XmlGraft.Settings.Decode
import XmlGraft.Source.Basic
import XmlGraft.Source.LineIndex
import XmlGraft.Text.Basic
import XmlGraft.Text.Blank
import XmlGraft.Text.CharSet
import XmlGraft.Text.Letter
import XmlGraft.Text.Lines
import XmlGraft.Text.Printable
import XmlGraft.Text.Quoted
import XmlGraft.Text.Utf8
import XmlGraft.Text.Width
import XmlGraft.Toml.Callout
import XmlGraft.Toml.Document
import XmlGraft.Toml.Lexeme
import XmlGraft.Toml.Scalar
