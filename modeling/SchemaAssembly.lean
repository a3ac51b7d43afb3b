import SchemaAssembly.Assembly
import SchemaAssembly.CommandLine.Run
import SchemaAssembly.Engine.Shallow
import SchemaAssembly.Main
import SchemaAssembly.Proofs.Agreement
import SchemaAssembly.Proofs.Arrangement
import SchemaAssembly.Proofs.ClosedFlowcharts
import SchemaAssembly.Proofs.CommandLine
import SchemaAssembly.Proofs.Dependencies
import SchemaAssembly.Proofs.DependencyGraph
import SchemaAssembly.Proofs.DependencyTrees
import SchemaAssembly.Proofs.DepthFirst
import SchemaAssembly.Proofs.DepthLimit
import SchemaAssembly.Proofs.Documents
import SchemaAssembly.Proofs.Endings
import SchemaAssembly.Proofs.Entries
import SchemaAssembly.Proofs.FeatureSets
import SchemaAssembly.Proofs.Flowcharts
import SchemaAssembly.Proofs.Following
import SchemaAssembly.Proofs.Groups
import SchemaAssembly.Proofs.Handover
import SchemaAssembly.Proofs.Headers
import SchemaAssembly.Proofs.LibraryRoots
import SchemaAssembly.Proofs.ListedSources
import SchemaAssembly.Proofs.Listings
import SchemaAssembly.Proofs.Outlines
import SchemaAssembly.Proofs.Overlays
import SchemaAssembly.Proofs.Pieces
import SchemaAssembly.Proofs.Places
import SchemaAssembly.Proofs.Provenance
import SchemaAssembly.Proofs.QuotedHeaders
import SchemaAssembly.Proofs.RealPaths
import SchemaAssembly.Proofs.RecursiveScan
import SchemaAssembly.Proofs.Results
import SchemaAssembly.Proofs.RevisionDates
import SchemaAssembly.Proofs.Run
import SchemaAssembly.Proofs.SettingsGrammar
import SchemaAssembly.Proofs.SourceRoles
import SchemaAssembly.Proofs.Statements
import SchemaAssembly.Proofs.Stripping
import SchemaAssembly.Proofs.Tokens
import SchemaAssembly.Proofs.TreeDrawing
import SchemaAssembly.Proofs.TreeFacts
import SchemaAssembly.Proofs.Visits
import SchemaAssembly.Proofs.Words
import SchemaAssembly.Proofs.Writing
import SchemaAssembly.Proofs.YangSession
import SchemaAssembly.Report.Flowchart
import SchemaAssembly.Report.Listing
import SchemaAssembly.Report.Outline
import SchemaAssembly.Report.Tree
import SchemaAssembly.Settings.Load
import SchemaAssembly.Yang.Session
