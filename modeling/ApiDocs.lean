import ApiDocs.Bindings.Basic
import ApiDocs.Bindings.Bind
import ApiDocs.Bindings.Follow
import ApiDocs.Bindings.Growth
import ApiDocs.Checker
import ApiDocs.Checker.Basic
import ApiDocs.Checker.Evaluate
import ApiDocs.Checker.Infer
import ApiDocs.Checker.Lower
import ApiDocs.Checker.Members
import ApiDocs.Checker.Monad
import ApiDocs.Checker.Names
import ApiDocs.Checker.Reference
import ApiDocs.Checker.Returns
import ApiDocs.Checker.State
import ApiDocs.Checker.Substitute
import ApiDocs.Checker.Values
import ApiDocs.Checker.Work
import ApiDocs.Command
import ApiDocs.DocComment
import ApiDocs.Document.Bound
import ApiDocs.Document.Decode
import ApiDocs.Document.Encode
import ApiDocs.Document.Keys
import ApiDocs.Document.Links
import ApiDocs.Document.Package
import ApiDocs.Extract
import ApiDocs.Failure
import ApiDocs.FileTree
import ApiDocs.Fixture
import ApiDocs.Ids
import ApiDocs.Json.Basic
import ApiDocs.Json.Reader
import ApiDocs.Json.Writer
import ApiDocs.Main
import ApiDocs.Number.Binary64
import ApiDocs.Number.Shortest
import ApiDocs.OrdMap
import ApiDocs.Origin
import ApiDocs.PackageDir
import ApiDocs.Path
import ApiDocs.Program
import ApiDocs.Render
import ApiDocs.Syntax.Lexer
import ApiDocs.Syntax.Parser
import ApiDocs.Syntax.Parser.Basic
import ApiDocs.Syntax.Parser.Classes
import ApiDocs.Syntax.Parser.Elements
import ApiDocs.Syntax.Parser.Expressions
import ApiDocs.Syntax.Parser.Items
import ApiDocs.Syntax.Parser.Patterns
import ApiDocs.Syntax.Parser.Statements
import ApiDocs.Syntax.Parser.Types
import ApiDocs.Syntax.Token
import ApiDocs.Syntax.Tree
import ApiDocs.Text.Blank
import ApiDocs.Text.Letter
import ApiDocs.Text.Lines
import ApiDocs.Text.Word
import ApiDocs.Ty.Arena
import ApiDocs.Ty.Basic
import ApiDocs.Ty.Growth
import ApiDocs.Typings
import ApiDocs.Proofs.Links
import ApiDocs.Proofs.Walk
import ApiDocs.Proofs.Integrity
import ApiDocs.Proofs.Names
import ApiDocs.Proofs.Rendering
import ApiDocs.Proofs.TypeLinks
import ApiDocs.Proofs.Shapes
import ApiDocs.Proofs.Binding
import ApiDocs.Proofs.Tables
import ApiDocs.Proofs.Exports
import ApiDocs.Proofs.Listing
import ApiDocs.Proofs.Safety.Known
import ApiDocs.Proofs.Safety.Rules
import ApiDocs.Proofs.Safety.Types
import ApiDocs.Proofs.Safety.Reading
import ApiDocs.Proofs.Safety.Values
import ApiDocs.Proofs.Repeat
import ApiDocs.Proofs.Content
import ApiDocs.Proofs.Exported
import ApiDocs.Proofs.Turns
import ApiDocs.Proofs.Exact
import ApiDocs.Proofs.Exporting.Entries
import ApiDocs.Proofs.Exporting.Own
import ApiDocs.Proofs.Reexports
import ApiDocs.Proofs.Arena.Normal
import ApiDocs.Proofs.Arena.Runs
import ApiDocs.Proofs.Arena.Unions
import ApiDocs.Proofs.Arena.Joined
import ApiDocs.Proofs.Arena.Widening
import ApiDocs.Proofs.RoundTrip
import ApiDocs.Proofs.Members.Rules
import ApiDocs.Proofs.Members.Types
import ApiDocs.Proofs.Members.Reading
import ApiDocs.Proofs.Members.Shown
import ApiDocs.Proofs.Members.Packages
import ApiDocs.Proofs.Depth.Heights
import ApiDocs.Proofs.Depth.Counter
import ApiDocs.Proofs.OwnName
import ApiDocs.Proofs.ComponentProps
import ApiDocs.Proofs.Booleans
import ApiDocs.Proofs.Namespaces.Qualified
import ApiDocs.Proofs.Substitution
import ApiDocs.Proofs.Paths
import ApiDocs.Proofs.Loading.Files
import ApiDocs.Proofs.Loading.Settling
import ApiDocs.Proofs.Loading.Resolved
import ApiDocs.Proofs.Mapped.Runs
import ApiDocs.Proofs.Mapped.Instance
import ApiDocs.Proofs.Mapped.Props
import ApiDocs.Proofs.Mapped.Keys
import ApiDocs.Proofs.Mapped.Templates
import ApiDocs.Proofs.Mapped.Members
import ApiDocs.Proofs.Mapped.Homomorphic
import ApiDocs.Proofs.Alias.Settled
import ApiDocs.Proofs.Alias.Annotations
import ApiDocs.Proofs.Alias.Unions
import ApiDocs.Proofs.Alias.Substituted
import ApiDocs.Proofs.Alias.Properties
import ApiDocs.Proofs.Alias.Reading
import ApiDocs.Proofs.Alias.Expansion
import ApiDocs.Proofs.ModuleKeys
import ApiDocs.Proofs.Comments.Lines
import ApiDocs.Proofs.Comments.Params
import ApiDocs.Proofs.Scopes.Uses
import ApiDocs.Proofs.Scopes.Agreement
import ApiDocs.Proofs.Scopes.Blocks
import ApiDocs.Proofs.PathLaws
import ApiDocs.Proofs.Provenance
import ApiDocs.Proofs.Readmes
import ApiDocs.Proofs.Arity.Applied
import ApiDocs.Proofs.Inheritance
import ApiDocs.Proofs.Namespaces.Around
import ApiDocs.Proofs.Nesting.Answers
import ApiDocs.Proofs.Nesting.Unfolding
import ApiDocs.Proofs.Nesting.Endless
import ApiDocs.Proofs.SymbolTables
import ApiDocs.Proofs.Guards
