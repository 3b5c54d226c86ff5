import ScriptNav.Catalog.Basic
import ScriptNav.Catalog.Builtin
import ScriptNav.Command.Arguments
import ScriptNav.Command.Location
import ScriptNav.Command.Printer
import ScriptNav.Command.Run
import ScriptNav.Command.Section
import ScriptNav.Config.Basic
import ScriptNav.Config.Dotenv
import ScriptNav.Config.Level
import ScriptNav.Disk
import ScriptNav.Ignore.Parser
import ScriptNav.Ignore.Pattern
import ScriptNav.Ignore.Rule
import ScriptNav.IncludeGraph
import ScriptNav.Json.Basic
import ScriptNav.Json.Parser
import ScriptNav.Json.Printer
import ScriptNav.Json.Reading
import ScriptNav.Main
import ScriptNav.Path
import ScriptNav.Proofs.Command.FrontEnds
import ScriptNav.Proofs.Command.IncludeViews
import ScriptNav.Proofs.Disk
import ScriptNav.Proofs.IncludeGraph
import ScriptNav.Proofs.Json.Strings
import ScriptNav.Proofs.Json.Values
import ScriptNav.Proofs.Path
import ScriptNav.Proofs.Resolver.Dedupe
import ScriptNav.Proofs.Resolver.Failures
import ScriptNav.Proofs.Resolver.Lookup
import ScriptNav.Proofs.Resolver.Paths
import ScriptNav.Proofs.Script.DefinitionSearch
import ScriptNav.Proofs.Script.Filler
import ScriptNav.Proofs.Script.Includes
import ScriptNav.Proofs.Script.ModulePathRun
import ScriptNav.Proofs.Script.References
import ScriptNav.Proofs.Server.Buffers
import ScriptNav.Proofs.Server.Edits
import ScriptNav.Proofs.Server.Exchanges
import ScriptNav.Proofs.Server.Framing
import ScriptNav.Proofs.Server.Locations
import ScriptNav.Proofs.Server.Notices
import ScriptNav.Proofs.Server.OpenDocuments
import ScriptNav.Proofs.Server.Overlays
import ScriptNav.Proofs.Server.Points
import ScriptNav.Proofs.Server.Requests
import ScriptNav.Proofs.Server.Responses
import ScriptNav.Proofs.Server.Schedules
import ScriptNav.Proofs.Server.Shutdown
import ScriptNav.Proofs.Server.Uri
import ScriptNav.Proofs.Server.Wire
import ScriptNav.Proofs.Source.Overlay
import ScriptNav.Proofs.Source.Reader
import ScriptNav.Proofs.TaskGroup
import ScriptNav.Proofs.Text.Cut
import ScriptNav.Proofs.Text.Line
import ScriptNav.Proofs.Text.Numeral
import ScriptNav.Proofs.Text.Position
import ScriptNav.Proofs.Text.Trim
import ScriptNav.Proofs.Text.Utf8
import ScriptNav.Proofs.Workers
import ScriptNav.Proofs.Workspace.Files
import ScriptNav.Proofs.Workspace.Rewriting
import ScriptNav.Resolver
import ScriptNav.Script.Definition
import ScriptNav.Script.Dialect
import ScriptNav.Script.Include
import ScriptNav.Script.ModulePath
import ScriptNav.Script.Reference
import ScriptNav.Script.Signature
import ScriptNav.Server.Frame
import ScriptNav.Server.Inquiry
import ScriptNav.Server.Message
import ScriptNav.Server.Position
import ScriptNav.Server.Reply
import ScriptNav.Server.Session
import ScriptNav.Server.Uri
import ScriptNav.Source
import ScriptNav.Text.Basic
import ScriptNav.Text.Blank
import ScriptNav.Text.Integer
import ScriptNav.Text.Letter
import ScriptNav.Text.LetterTable
import ScriptNav.Text.Position
import ScriptNav.Text.PrintableTable
import ScriptNav.Text.Quoted
import ScriptNav.Text.Utf8
import ScriptNav.Text.Width
import ScriptNav.Text.WidthTable
import ScriptNav.Toml.Basic
import ScriptNav.Toml.Draft
import ScriptNav.Toml.Parser
import ScriptNav.Toml.Scalar
import ScriptNav.Toon
import ScriptNav.Workspace.Basic
import ScriptNav.Proofs.Server.Malformed
import ScriptNav.Proofs.Server.Deletion
import ScriptNav.Proofs.Server.Twins
import ScriptNav.Proofs.Toon.Tables
import ScriptNav.Proofs.Toon.Graphs
import ScriptNav.Proofs.Text.Find
import ScriptNav.Proofs.Command.Section
import ScriptNav.Proofs.Command.SectionUpdates
import ScriptNav.Proofs.Server.Escapes
import ScriptNav.Proofs.IncludeGraph.Building
import ScriptNav.Proofs.Command.SharedScripts
import ScriptNav.Proofs.Script.Dialect
import ScriptNav.Proofs.Workspace.Walk
import ScriptNav.Proofs.Workspace.LinkedRoots
import ScriptNav.Proofs.Workspace.Listing
import ScriptNav.Proofs.Script.Directives
import ScriptNav.Proofs.Script.ModuleFiles
import ScriptNav.Proofs.Server.PointOffsets
import ScriptNav.Proofs.Server.Changes
import ScriptNav.Proofs.Text.PositionOffsets
import ScriptNav.Proofs.Server.AsciiPoints
import ScriptNav.Proofs.Command.Navigation
import ScriptNav.Proofs.Command.Namespaces
import ScriptNav.Proofs.Config.FileSettings
import ScriptNav.Proofs.Config.Layers
import ScriptNav.Proofs.Config.Search
