import SymbolGraph.Collection.Assoc
import SymbolGraph.Collection.Roster
import SymbolGraph.Collection.Walk
import SymbolGraph.Diagnostic
import SymbolGraph.Fault
import SymbolGraph.Identity
import SymbolGraph.IndexPool
import SymbolGraph.Inheritance
import SymbolGraph.Interchange.Datum
import SymbolGraph.Interchange.Settings
import SymbolGraph.Interchange.Trees
import SymbolGraph.Interchange.Values
import SymbolGraph.Kernel
import SymbolGraph.Library
import SymbolGraph.LibrarySet
import SymbolGraph.Link
import SymbolGraph.Link.Bases
import SymbolGraph.Link.Findings
import SymbolGraph.Link.Imports
import SymbolGraph.Link.Members
import SymbolGraph.Link.Signatures
import SymbolGraph.Link.Types
import SymbolGraph.Lookup.Context
import SymbolGraph.Lookup.Resolve
import SymbolGraph.Manifest
import SymbolGraph.Manifest.Written
import SymbolGraph.Namespace
import SymbolGraph.Naming
import SymbolGraph.Outline
import SymbolGraph.Proofs.Checking.CircularInheritance
import SymbolGraph.Proofs.Checking.Duplicates
import SymbolGraph.Proofs.Checking.FunctionTies
import SymbolGraph.Proofs.Checking.Implementations
import SymbolGraph.Proofs.Checking.MissingImplementations
import SymbolGraph.Proofs.Checking.MutualTies
import SymbolGraph.Proofs.Checking.RelationLists
import SymbolGraph.Proofs.Checking.ReturnTypes
import SymbolGraph.Proofs.Checking.TouchedRelations
import SymbolGraph.Proofs.Checking.Verdicts
import SymbolGraph.Proofs.Inheritance.Bases
import SymbolGraph.Proofs.Inheritance.Implementors
import SymbolGraph.Proofs.Inheritance.Rebuilds
import SymbolGraph.Proofs.Inheritance.Searches
import SymbolGraph.Proofs.Inheritance.Walks
import SymbolGraph.Proofs.Linking.BalanceThroughLoads
import SymbolGraph.Proofs.Linking.DocumentOrder
import SymbolGraph.Proofs.Linking.DocumentStages
import SymbolGraph.Proofs.Linking.EnclosingBlocks
import SymbolGraph.Proofs.Linking.ForeignLibraries
import SymbolGraph.Proofs.Linking.LinkInvariants
import SymbolGraph.Proofs.Linking.LinkUnlink
import SymbolGraph.Proofs.Linking.PassFindings
import SymbolGraph.Proofs.Linking.PassInputs
import SymbolGraph.Proofs.Linking.RealizedRecords
import SymbolGraph.Proofs.Linking.RecordIdentities
import SymbolGraph.Proofs.Linking.ReferenceBalance
import SymbolGraph.Proofs.Linking.SimilarModels
import SymbolGraph.Proofs.Linking.TypeLookups
import SymbolGraph.Proofs.Linking.Unlinking
import SymbolGraph.Proofs.Linking.WrittenTypes
import SymbolGraph.Proofs.Lookup.DottedNames
import SymbolGraph.Proofs.Lookup.NearestName
import SymbolGraph.Proofs.Lookup.ParallelLookups
import SymbolGraph.Proofs.Lookup.Soundness
import SymbolGraph.Proofs.Lookup.Suggestions
import SymbolGraph.Proofs.Model.Collections
import SymbolGraph.Proofs.Model.LibraryCoherence
import SymbolGraph.Proofs.Model.LibraryContents
import SymbolGraph.Proofs.Model.LibraryDocuments
import SymbolGraph.Proofs.Model.LibrarySets
import SymbolGraph.Proofs.Model.PoolTables
import SymbolGraph.Proofs.Model.RecordCores
import SymbolGraph.Proofs.Model.RecordEdits
import SymbolGraph.Proofs.Model.SettledLibraries
import SymbolGraph.Proofs.Model.Skeletons
import SymbolGraph.Proofs.Namespaces.Pruning
import SymbolGraph.Proofs.Namespaces.Tree
import SymbolGraph.Proofs.Queries.Definitions
import SymbolGraph.Proofs.Queries.HoverAndDefinition
import SymbolGraph.Proofs.Queries.InnermostName
import SymbolGraph.Proofs.Queries.Outlines
import SymbolGraph.Proofs.Renumbering.Basic
import SymbolGraph.Proofs.Renumbering.Checking
import SymbolGraph.Proofs.Renumbering.Copies
import SymbolGraph.Proofs.Renumbering.Correspondence
import SymbolGraph.Proofs.Renumbering.Findings
import SymbolGraph.Proofs.Renumbering.FreshSession
import SymbolGraph.Proofs.Renumbering.Isomorphism
import SymbolGraph.Proofs.Renumbering.LibraryAgreement
import SymbolGraph.Proofs.Renumbering.Linking
import SymbolGraph.Proofs.Renumbering.LoadOrder
import SymbolGraph.Proofs.Renumbering.ProjectPairs
import SymbolGraph.Proofs.Renumbering.ReportOrder
import SymbolGraph.Proofs.Renumbering.Restoration
import SymbolGraph.Proofs.Renumbering.SessionBasis
import SymbolGraph.Proofs.Renumbering.Tidying
import SymbolGraph.Proofs.Renumbering.Verdicts
import SymbolGraph.Proofs.Session.AllottedIdentities
import SymbolGraph.Proofs.Session.ClearedProject
import SymbolGraph.Proofs.Session.DanglingTargets
import SymbolGraph.Proofs.Session.DeclarationScopes
import SymbolGraph.Proofs.Session.DetachedDocuments
import SymbolGraph.Proofs.Session.Identities
import SymbolGraph.Proofs.Session.IdleRebuilds
import SymbolGraph.Proofs.Session.ImportOrigins
import SymbolGraph.Proofs.Session.ImportedOnce
import SymbolGraph.Proofs.Session.LibraryRegistry
import SymbolGraph.Proofs.Session.LinkLog
import SymbolGraph.Proofs.Session.LoadInvariants
import SymbolGraph.Proofs.Session.LoadedLibraries
import SymbolGraph.Proofs.Session.LoadedSupport
import SymbolGraph.Proofs.Session.RebuildTotality
import SymbolGraph.Proofs.Session.RecordedReferences
import SymbolGraph.Proofs.Session.References
import SymbolGraph.Proofs.Session.RereadDocuments
import SymbolGraph.Proofs.Session.RunLogs
import SymbolGraph.Proofs.Session.Runs
import SymbolGraph.Proofs.Session.Types
import SymbolGraph.Proofs.Session.UntouchedDocuments
import SymbolGraph.Proofs.Text.EditDistance
import SymbolGraph.Proofs.Text.RoundTrips
import SymbolGraph.Proofs.Text.SketchLayout
import SymbolGraph.Proofs.Text.WrittenTypes
import SymbolGraph.Proofs.Tidying.FirstFit
import SymbolGraph.Proofs.Tidying.Totality
import SymbolGraph.Proofs.Tidying.TreeAlignment
import SymbolGraph.Query
import SymbolGraph.Session.Basic
import SymbolGraph.Session.Loading
import SymbolGraph.Session.Rebuild
import SymbolGraph.Sketch
import SymbolGraph.SourceUnit
import SymbolGraph.Symbol
import SymbolGraph.Teardown
import SymbolGraph.Text.Blank
import SymbolGraph.Text.Dotted
import SymbolGraph.Text.EditDistance
import SymbolGraph.Text.Letter
import SymbolGraph.Text.Range
import SymbolGraph.Tidy
import SymbolGraph.Toml.Document
import SymbolGraph.Toml.Moment
import SymbolGraph.Toml.Node
import SymbolGraph.Toml.Number
import SymbolGraph.Toml.Quoted
import SymbolGraph.Toml.Quoting
import SymbolGraph.Toml.Scan
import SymbolGraph.Tree
import SymbolGraph.Ty
import SymbolGraph.Validity
import SymbolGraph.Validity.Duplicates
import SymbolGraph.Validity.Overriding
import SymbolGraph.Validity.Report
import SymbolGraph.Visibility
