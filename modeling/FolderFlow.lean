import FolderFlow.CommandLine.Invocation
import FolderFlow.CommandLine.Options
import FolderFlow.CommandLine.Run
import FolderFlow.Config.Basic
import FolderFlow.Config.Error
import FolderFlow.Config.Load
import FolderFlow.Config.Source
import FolderFlow.Config.Validate
import FolderFlow.Decimal.Binary64
import FolderFlow.Decimal.Shortest
import FolderFlow.Digest.Sha256
import FolderFlow.Docs.Cache
import FolderFlow.Docs.Diagram
import FolderFlow.Docs.Formatter
import FolderFlow.Docs.Marker
import FolderFlow.Docs.Patch
import FolderFlow.Flow.Basic
import FolderFlow.Flow.FolderSet
import FolderFlow.Flow.Hash
import FolderFlow.Flow.Reach
import FolderFlow.Host.Basic
import FolderFlow.Host.Error
import FolderFlow.Host.FileTree
import FolderFlow.Host.Log
import FolderFlow.Host.Path
import FolderFlow.Host.Process
import FolderFlow.Host.Sandbox
import FolderFlow.Json.Basic
import FolderFlow.Json.Parser
import FolderFlow.Json.Printer
import FolderFlow.Main
import FolderFlow.Proofs.Cache
import FolderFlow.Proofs.CacheEntries
import FolderFlow.Proofs.CacheStatus
import FolderFlow.Proofs.Columns
import FolderFlow.Proofs.CommandFrame
import FolderFlow.Proofs.DiagramLines
import FolderFlow.Proofs.DistinctKeys
import FolderFlow.Proofs.EdgeOrder
import FolderFlow.Proofs.Enforcement
import FolderFlow.Proofs.Except
import FolderFlow.Proofs.FaultChecks
import FolderFlow.Proofs.FaultOrder
import FolderFlow.Proofs.FileTree
import FolderFlow.Proofs.FirstFault
import FolderFlow.Proofs.FlatConfig
import FolderFlow.Proofs.FolderOrder
import FolderFlow.Proofs.Grammar
import FolderFlow.Proofs.HashedBytes
import FolderFlow.Proofs.Hosts
import FolderFlow.Proofs.ImportGlob
import FolderFlow.Proofs.JsonText
import FolderFlow.Proofs.LintFiles
import FolderFlow.Proofs.Listing
import FolderFlow.Proofs.Marker
import FolderFlow.Proofs.MarkerPlaces
import FolderFlow.Proofs.Mirror
import FolderFlow.Proofs.Overrides
import FolderFlow.Proofs.PackageRules
import FolderFlow.Proofs.Patch
import FolderFlow.Proofs.PatchFrame
import FolderFlow.Proofs.PatchInfluence
import FolderFlow.Proofs.Paths
import FolderFlow.Proofs.Reach
import FolderFlow.Proofs.Region
import FolderFlow.Proofs.RoundTrip
import FolderFlow.Proofs.RuleOrder
import FolderFlow.Proofs.SameEdges
import FolderFlow.Proofs.SearchLog
import FolderFlow.Proofs.SearchPath
import FolderFlow.Proofs.SecondSplice
import FolderFlow.Proofs.Session
import FolderFlow.Proofs.Splices
import FolderFlow.Proofs.TomlTables
import FolderFlow.Proofs.TreeFrame
import FolderFlow.Proofs.UnseenEdits
import FolderFlow.Proofs.Validate
import FolderFlow.Proofs.Watch
import FolderFlow.Restriction.Basic
import FolderFlow.Restriction.FlatConfig
import FolderFlow.Restriction.Listing
import FolderFlow.Shell.Arithmetic
import FolderFlow.Shell.Builtin.Alias
import FolderFlow.Shell.Builtin.Basic
import FolderFlow.Shell.Builtin.Jobs
import FolderFlow.Shell.Builtin.Limits
import FolderFlow.Shell.Builtin.Number
import FolderFlow.Shell.Builtin.Output
import FolderFlow.Shell.Builtin.Process
import FolderFlow.Shell.Builtin.Running
import FolderFlow.Shell.Builtin.Signals
import FolderFlow.Shell.Builtin.Table
import FolderFlow.Shell.Builtin.Test
import FolderFlow.Shell.Builtin.Variables
import FolderFlow.Shell.Bytes
import FolderFlow.Shell.Effect
import FolderFlow.Shell.Expansion
import FolderFlow.Shell.Field
import FolderFlow.Shell.Job
import FolderFlow.Shell.Limit
import FolderFlow.Shell.Lookup
import FolderFlow.Shell.Parser
import FolderFlow.Shell.Pattern
import FolderFlow.Shell.Program
import FolderFlow.Shell.Reader
import FolderFlow.Shell.Redirection
import FolderFlow.Shell.Run
import FolderFlow.Shell.Runner
import FolderFlow.Shell.Sandbox
import FolderFlow.Shell.Script
import FolderFlow.Shell.Signal
import FolderFlow.Shell.Simple
import FolderFlow.Shell.State
import FolderFlow.Shell.Syntax
import FolderFlow.Shell.Token
import FolderFlow.Text.Blank
import FolderFlow.Text.Hex
import FolderFlow.Text.Order
import FolderFlow.Text.Substitute
import FolderFlow.Text.Utf8
import FolderFlow.Toml.DateTime
import FolderFlow.Toml.Lexical
import FolderFlow.Toml.Number
import FolderFlow.Toml.Parser
import FolderFlow.Toml.Table
