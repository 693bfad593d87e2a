import RamlTypes.CommandLine.Arguments
import RamlTypes.CommandLine.Help
import RamlTypes.CommandLine.Run
import RamlTypes.CommandLine.Surroundings
import RamlTypes.Declaration.Build
import RamlTypes.Declaration.Entries
import RamlTypes.Declaration.Example
import RamlTypes.Declaration.Facets
import RamlTypes.Diagnostic
import RamlTypes.Dict
import RamlTypes.Expr.Basic
import RamlTypes.Expr.Printer
import RamlTypes.Expr.Reader
import RamlTypes.Fault
import RamlTypes.Fragment.Basic
import RamlTypes.Fragment.Load
import RamlTypes.Json.Basic
import RamlTypes.Json.Printer
import RamlTypes.Json.Syntax
import RamlTypes.Kind
import RamlTypes.Main
import RamlTypes.Mark
import RamlTypes.Node.Basic
import RamlTypes.Node.CoreSchema
import RamlTypes.Node.OfEvents
import RamlTypes.Number.Binary64
import RamlTypes.Number.Numeral
import RamlTypes.Number.Shortest
import RamlTypes.Path
import RamlTypes.Pattern
import RamlTypes.Pattern.Atom
import RamlTypes.Pattern.CharSet
import RamlTypes.Pattern.Count
import RamlTypes.Pattern.Flaw
import RamlTypes.Pattern.Group
import RamlTypes.Pattern.Piece
import RamlTypes.Pattern.Property
import RamlTypes.Resolution.Annotations
import RamlTypes.Resolution.Load
import RamlTypes.Resolution.Potential
import RamlTypes.Resolution.Resolve
import RamlTypes.Session
import RamlTypes.Settings.Basic
import RamlTypes.Settings.Layers
import RamlTypes.Settings.Value
import RamlTypes.Sha256
import RamlTypes.Shape.Basic
import RamlTypes.Shape.Sniff
import RamlTypes.Store.Basic
import RamlTypes.Store.Growth
import RamlTypes.Store.Load
import RamlTypes.Text.Alphabetic
import RamlTypes.Text.Blank
import RamlTypes.Text.Case
import RamlTypes.Toml.Assembly
import RamlTypes.Toml.Basic
import RamlTypes.Toml.Moment
import RamlTypes.Toml.Number
import RamlTypes.Toml.Quoted
import RamlTypes.Toml.Reader
import RamlTypes.Toml.Text
import RamlTypes.View
import RamlTypes.Yaml.Event
import RamlTypes.Yaml.Event.Document
import RamlTypes.Yaml.Scanner
import RamlTypes.Yaml.Scanner.Block
import RamlTypes.Yaml.Scanner.Plain
import RamlTypes.Yaml.Scanner.Quoted
import RamlTypes.Yaml.Scanner.Tag
import RamlTypes.Yaml.Scanner.Tokens
import RamlTypes.Yaml.Token
import RamlTypes.Proofs.Cached
import RamlTypes.Proofs.ClosedWorld.Basic
import RamlTypes.Proofs.ClosedWorld.Laws
import RamlTypes.Proofs.ClosedWorld.Reach
import RamlTypes.Proofs.Isolation.Basic
import RamlTypes.Proofs.Isolation.Laws
import RamlTypes.Proofs.Relation.Renaming
import RamlTypes.Proofs.Isolation.Runs
import RamlTypes.Proofs.Coherence.Basic
import RamlTypes.Proofs.Coherence.Steps
import RamlTypes.Proofs.Coherence.Laws
import RamlTypes.Proofs.Coherence.Runs
import RamlTypes.Proofs.Coherence.Sessions
import RamlTypes.Proofs.Coherence.Rollback
import RamlTypes.Proofs.Isolation.Retries
import RamlTypes.Proofs.Equations.Bases
import RamlTypes.Proofs.Equations.Builtins
import RamlTypes.Proofs.Equations.Calls
import RamlTypes.Proofs.Equations.Facets
import RamlTypes.Proofs.Equations.Nested
import RamlTypes.Proofs.Equations.Parts
import RamlTypes.Proofs.Equations.Requests
import RamlTypes.Proofs.Equations.Solutions
import RamlTypes.Proofs.Equations.Sessions
import RamlTypes.Proofs.EndsIn
import RamlTypes.Proofs.Relation.Invariant
import RamlTypes.Proofs.Preservation.Basic
import RamlTypes.Proofs.Preservation.Requests
import RamlTypes.Proofs.Preservation.Evaluations
import RamlTypes.Proofs.Preservation.Indexes
import RamlTypes.Proofs.Lifecycle.Lists
import RamlTypes.Proofs.Lifecycle.States
import RamlTypes.Proofs.Lifecycle.Ancestry
import RamlTypes.Proofs.Lifecycle.Dependencies
import RamlTypes.Proofs.Reads.Basic
import RamlTypes.Proofs.Reads.Loads
import RamlTypes.Proofs.Reads.Sessions
import RamlTypes.Proofs.Expr.Grammar
import RamlTypes.Proofs.Expr.RoundTrip
import RamlTypes.Proofs.Expr.Offsets
import RamlTypes.Proofs.Expr.Mentions
import RamlTypes.Proofs.Nesting
import RamlTypes.Proofs.Names.Basic
import RamlTypes.Proofs.Names.Loads
import RamlTypes.Proofs.Names.Sessions
import RamlTypes.Proofs.Aliases.Basic
import RamlTypes.Proofs.Aliases.Loads
import RamlTypes.Proofs.Aliases.Sessions
import RamlTypes.Proofs.Termination.Work
import RamlTypes.Proofs.Termination.Costs
import RamlTypes.Proofs.Termination.Nodes
import RamlTypes.Proofs.Termination.Facets
import RamlTypes.Proofs.Termination.Declarations
import RamlTypes.Proofs.Termination.Fragments
import RamlTypes.Proofs.Termination.Files
import RamlTypes.Proofs.Termination.Evaluations
import RamlTypes.Proofs.Termination.Resolution
import RamlTypes.Proofs.Termination.Sessions
import RamlTypes.Proofs.Lifecycle.Refusals
import RamlTypes.Proofs.Recording
import RamlTypes.Proofs.Filing
import RamlTypes.Proofs.Annotations.Binding
import RamlTypes.Proofs.Annotations.Shapes
import RamlTypes.Proofs.Annotations.Aliased
import RamlTypes.Proofs.Annotations.Reports
import RamlTypes.Proofs.Annotations.Libraries
import RamlTypes.Proofs.Annotations.Sessions
import RamlTypes.Proofs.Equations.Reached
import RamlTypes.Proofs.Displacement
import RamlTypes.Proofs.Merging
import RamlTypes.Proofs.Facets.Values
import RamlTypes.Proofs.Facets.Basic
import RamlTypes.Proofs.Facets.Applied
import RamlTypes.Proofs.Facets.Readers
import RamlTypes.Proofs.Declarations.Examples
import RamlTypes.Proofs.Declarations.Entries
import RamlTypes.Proofs.Declarations.Places
import RamlTypes.Proofs.Declarations.Deferred
import RamlTypes.Proofs.Declarations.DataTypes
import RamlTypes.Proofs.Unfolding
import RamlTypes.Proofs.Destinations
import RamlTypes.Proofs.Documents
import RamlTypes.Proofs.CoreSchema
import RamlTypes.Proofs.Scalars
import RamlTypes.Proofs.Confluence.Frames
import RamlTypes.Proofs.Confluence.Changes
import RamlTypes.Proofs.Confluence.Duo
import RamlTypes.Proofs.Confluence.Laws
import RamlTypes.Proofs.Confluence.Loads
import RamlTypes.Proofs.Confluence.Lookups
import RamlTypes.Proofs.Confluence.Evaluations
import RamlTypes.Proofs.Confluence.Settlings
import RamlTypes.Proofs.Confluence.Twins
import RamlTypes.Proofs.Confluence.Matching
import RamlTypes.Proofs.Confluence.Renamings
import RamlTypes.Proofs.Confluence.Binding
import RamlTypes.Proofs.Confluence.Runs
import RamlTypes.Proofs.Confluence.Requests
import RamlTypes.Proofs.Confluence.Sessions
import RamlTypes.Proofs.Confluence.Orders
import RamlTypes.Proofs.Aftermath.Basic
import RamlTypes.Proofs.Aftermath.Steps
import RamlTypes.Proofs.Aftermath.Laws
import RamlTypes.Proofs.Aftermath.Rounds
import RamlTypes.Proofs.Aftermath.Beginnings
import RamlTypes.Proofs.Aftermath.Annotations
import RamlTypes.Proofs.Aftermath.Recovery
import RamlTypes.Proofs.Aftermath.Sessions
import RamlTypes.Proofs.Cycles.Loads
import RamlTypes.Proofs.Cycles.Calls
import RamlTypes.Proofs.Cycles.Sessions
