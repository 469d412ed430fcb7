import JavaAtlas.Main
import JavaAtlas.Proofs.Atlas.AnalyzerGraph
import JavaAtlas.Proofs.Atlas.CallViews
import JavaAtlas.Proofs.Atlas.CallingLines
import JavaAtlas.Proofs.Atlas.CrudListings
import JavaAtlas.Proofs.Atlas.FileLookup
import JavaAtlas.Proofs.Atlas.GraphEncoding
import JavaAtlas.Proofs.Atlas.Listings
import JavaAtlas.Proofs.Atlas.MethodIdentity
import JavaAtlas.Proofs.Atlas.NodeKeys
import JavaAtlas.Proofs.Atlas.Shadowing
import JavaAtlas.Proofs.Atlas.SymbolGraph
import JavaAtlas.Proofs.Catalogue.Builtin
import JavaAtlas.Proofs.Catalogue.Explainers
import JavaAtlas.Proofs.Catalogue.Listings
import JavaAtlas.Proofs.Catalogue.Shapes
import JavaAtlas.Proofs.Config.Assignments
import JavaAtlas.Proofs.Config.Expansion
import JavaAtlas.Proofs.Config.SavedFiles
import JavaAtlas.Proofs.Config.Saving
import JavaAtlas.Proofs.Config.Settings
import JavaAtlas.Proofs.Data.SortedMaps
import JavaAtlas.Proofs.Data.Sorting
import JavaAtlas.Proofs.Dispatch
import JavaAtlas.Proofs.File.Contents
import JavaAtlas.Proofs.File.Replacing
import JavaAtlas.Proofs.Java.Lexemes
import JavaAtlas.Proofs.Java.Rereading
import JavaAtlas.Proofs.Java.Separation
import JavaAtlas.Proofs.Java.Stripping
import JavaAtlas.Proofs.Java.Tokens
import JavaAtlas.Proofs.Json.Doubles
import JavaAtlas.Proofs.Json.Grammar
import JavaAtlas.Proofs.Json.Injectivity
import JavaAtlas.Proofs.Json.Lexemes
import JavaAtlas.Proofs.Json.Outline
import JavaAtlas.Proofs.Json.Recovery
import JavaAtlas.Proofs.Json.Schema
import JavaAtlas.Proofs.Json.Trimming
import JavaAtlas.Proofs.Number.Digits
import JavaAtlas.Proofs.Number.Layout
import JavaAtlas.Proofs.Number.Nearest
import JavaAtlas.Proofs.Number.Rounding
import JavaAtlas.Proofs.Number.Shortest
import JavaAtlas.Proofs.Number.Width
import JavaAtlas.Proofs.Operation.Arguments
import JavaAtlas.Proofs.Operation.Discovery
import JavaAtlas.Proofs.Operation.InputSchema
import JavaAtlas.Proofs.Operation.Registration
import JavaAtlas.Proofs.Operation.Validation
import JavaAtlas.Proofs.Path
import JavaAtlas.Proofs.Project.Loading
import JavaAtlas.Proofs.Project.Sources
import JavaAtlas.Proofs.Record.Faithful
import JavaAtlas.Proofs.Record.Members
import JavaAtlas.Proofs.Record.Objects
import JavaAtlas.Proofs.Rpc.Classification
import JavaAtlas.Proofs.Rpc.Counts
import JavaAtlas.Proofs.Rpc.Delivery
import JavaAtlas.Proofs.Rpc.Exchange
import JavaAtlas.Proofs.Rpc.Responses
import JavaAtlas.Proofs.Rpc.ToolResults
import JavaAtlas.Proofs.Session
import JavaAtlas.Proofs.Session.Answers
import JavaAtlas.Proofs.Session.Drawing
import JavaAtlas.Proofs.Session.Safety
import JavaAtlas.Proofs.Text.ByteOrder
import JavaAtlas.Proofs.Text.Utf8
import JavaAtlas.Proofs.Toml.Construction
import JavaAtlas.Proofs.Toml.Ordering
import JavaAtlas.Proofs.Toml.Parts
import JavaAtlas.Proofs.Toml.Scalars
import JavaAtlas.Proofs.Toml.Statements
import JavaAtlas.Proofs.Toml.Strings
import JavaAtlas.Proofs.Toml.Values
import JavaAtlas.Proofs.Wire.Attributes
import JavaAtlas.Proofs.Wire.Building
import JavaAtlas.Proofs.Wire.Encode
import JavaAtlas.Proofs.Wire.Filtering
import JavaAtlas.Proofs.Wire.Graph
import JavaAtlas.Proofs.Wire.Members
import JavaAtlas.Proofs.Wire.Unordered
import JavaAtlas.Wire.Containers
