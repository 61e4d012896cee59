import Docblock.Documented.Entity
import Docblock.Markdown.Example
import Docblock.Markdown.Table
import Docblock.Document.Assembly
import Docblock.MemberTable.Catalogue
import Docblock.Registry
import Docblock.Resolve.Resolver
import Docblock.Source.Reader
import Docblock.Value.Display
import Docblock.Value.Merge
import Docblock.Manifest
import Docblock.Settings.Options
import Docblock.Files.Sources
import Docblock.Selection
import Docblock.CommandLine.Arguments
import Docblock.Run
import Docblock.Main
import Docblock.Pattern.Search
import Docblock.Pattern.OfText
import Docblock.Proofs.Resolution.Runs
import Docblock.Proofs.Resolution.Bounds
import Docblock.Proofs.Resolution.Session
import Docblock.Proofs.Resolution.Plain
import Docblock.Proofs.Resolution.Filters
import Docblock.Proofs.Resolution.Ascent
import Docblock.Proofs.Resolution.Members
import Docblock.Proofs.Resolution.Transitive
import Docblock.Proofs.Source.RoundTrip
import Docblock.Proofs.Links.Structure
import Docblock.Proofs.Links.AtOnce
import Docblock.Proofs.Document.Outcome
import Docblock.Proofs.Loading.Selected
import Docblock.Proofs.Loading.Written
import Docblock.Proofs.Registry.Additions
import Docblock.Proofs.Source.Tiling
import Docblock.Proofs.Source.Balanced
import Docblock.Proofs.Source.Bodies
import Docblock.Proofs.TypeName.Agreement
import Docblock.Proofs.Source.Comments
import Docblock.Proofs.Source.Heredocs
import Docblock.Proofs.Source.Signatures
import Docblock.Proofs.Source.WellFormed
import Docblock.Proofs.Document.BuiltIns
import Docblock.Proofs.Source.Commented
import Docblock.Proofs.Source.Attribution
import Docblock.Proofs.Source.Progress
import Docblock.Proofs.Source.ImportForms
import Docblock.Proofs.Document.Numbering
import Docblock.Proofs.Document.SafeAnchors
import Docblock.Proofs.Comment.Entries
import Docblock.Proofs.Comment.Written
import Docblock.Proofs.Comment.ExampleCode
import Docblock.Proofs.MemberTable.Lines
import Docblock.Proofs.MemberTable.Calls
import Docblock.Proofs.Loading.AllOrNothing
import Docblock.Proofs.Files.Listing
import Docblock.Proofs.Loading.Groups
import Docblock.Proofs.Settings.Lists
