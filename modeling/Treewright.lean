import Treewright.Text.Blank
import Treewright.Text.Letter
import Treewright.Text.Escape
import Treewright.Name
import Treewright.TypeRef
import Treewright.TypeRef.Parser
import Treewright.Fault
import Treewright.Ownership
import Treewright.Grammar
import Treewright.Grammar.Validation
import Treewright.Grammar.Edit
import Treewright.Row
import Treewright.Linked.Order
import Treewright.Linked.Borrowing
import Treewright.Linked
import Treewright.Event
import Treewright.Code.Word
import Treewright.Code.Token
import Treewright.Code.Shape
import Treewright.Code.Arrangement
import Treewright.Code.Reading
import Treewright.Code.Reading.Attribute
import Treewright.Code.Reading.Path
import Treewright.Code.Reading.Type
import Treewright.Code.Reading.Pattern
import Treewright.Code.Reading.Value
import Treewright.Code.Reading.Atom
import Treewright.Code.Reading.Import
import Treewright.Code.Reading.Item
import Treewright.Code.Reading.Block
import Treewright.Code.Written.Comment
import Treewright.Code.Written.Token
import Treewright.Code.Written.Import
import Treewright.Code.Literal
import Treewright.Code.Tree
import Treewright.Code.Parser
import Treewright.Code.Written
import Treewright.Layout.Doc
import Treewright.Draft.FieldType
import Treewright.Draft.Item
import Treewright.Draft.Written
import Treewright.Draft.Build
import Treewright.Render
import Treewright.Toml.Value
import Treewright.Toml.Scan
import Treewright.Toml.Document
import Treewright.Descriptor
import Treewright.Descriptor.Document
import Treewright.Embedded
import Treewright.Files.Path
import Treewright.Files.Disk
import Treewright.Files.Install
import Treewright.Generate
import Treewright.CommandLine
import Treewright.Main
import Treewright.Proofs.Mention
import Treewright.Proofs.Validity
import Treewright.Proofs.Dependency
import Treewright.Proofs.Order
import Treewright.Proofs.Linking
import Treewright.Proofs.Borrowing
import Treewright.Proofs.Outcome
import Treewright.Proofs.FieldType
import Treewright.Proofs.Drafts
import Treewright.Proofs.Lifetime
import Treewright.Proofs.Spelling
import Treewright.Proofs.LifetimeUse
import Treewright.Proofs.Dispatch
import Treewright.Proofs.References
import Treewright.Proofs.Scope
import Treewright.Proofs.TopLevel
import Treewright.Proofs.Blank
import Treewright.Proofs.TypeText
import Treewright.Proofs.FieldText
import Treewright.Proofs.RowText
import Treewright.Proofs.RowRoundTrip
import Treewright.Proofs.TypeAcceptance
import Treewright.Proofs.Chain
import Treewright.Proofs.Reordering
import Treewright.Proofs.Locality
import Treewright.Proofs.FirstFault
import Treewright.Proofs.Spellable
import Treewright.Proofs.Disk
import Treewright.Proofs.InstallEffect
import Treewright.Proofs.ExitCode
import Treewright.Proofs.OutputPaths
import Treewright.Proofs.WordBoundary
import Treewright.Proofs.SnakeCase
import Treewright.Proofs.CamelCase
import Treewright.Proofs.Extent
import Treewright.Proofs.Cycle
import Treewright.Proofs.Pursuit
import Treewright.Proofs.Boxing
import Treewright.Proofs.Construction
import Treewright.Proofs.Layout
