import DocScaffold.CommandLine.Flag
import DocScaffold.CommandLine.Invocation
import DocScaffold.CommandLine.Run
import DocScaffold.CommandLine.Session
import DocScaffold.CommandLine.Usage
import DocScaffold.CommandLine.Word
import DocScaffold.Declaration.Search
import DocScaffold.Declaration.Start
import DocScaffold.Doc.Draft
import DocScaffold.Doc.Engine
import DocScaffold.Doc.Example
import DocScaffold.Doc.Options
import DocScaffold.Doc.Step
import DocScaffold.Doc.Template
import DocScaffold.Files.Disk
import DocScaffold.Files.Path
import DocScaffold.Files.Tree
import DocScaffold.Generator
import DocScaffold.Host.Templates
import DocScaffold.Host.Web.Payload
import DocScaffold.Host.Web.Problem
import DocScaffold.Host.Web.Scalar
import DocScaffold.Host.Web.Serving
import DocScaffold.Host.Yaml.Constant
import DocScaffold.Host.Yaml.Document
import DocScaffold.Host.Yaml.Error
import DocScaffold.Host.Yaml.Merge
import DocScaffold.Host.Yaml.Node
import DocScaffold.Host.Yaml.Position
import DocScaffold.Host.Yaml.Scalar
import DocScaffold.Host.Yaml.Tag
import DocScaffold.Host.Yaml.Timestamp
import DocScaffold.Host.Yaml.Token
import DocScaffold.Item.Class
import DocScaffold.Item.Entry
import DocScaffold.Item.Enum
import DocScaffold.Item.Function
import DocScaffold.Item.Keyword
import DocScaffold.Item.Modifiers
import DocScaffold.Item.Struct
import DocScaffold.Json.Basic
import DocScaffold.Json.Encoding
import DocScaffold.Json.Printer
import DocScaffold.Json.Reader
import DocScaffold.Log.Journal
import DocScaffold.Log.Record
import DocScaffold.Log.Trace
import DocScaffold.Main
import DocScaffold.Number.Double
import DocScaffold.Number.Shortest
import DocScaffold.Proofs.Agreement
import DocScaffold.Proofs.Angles
import DocScaffold.Proofs.Attributes
import DocScaffold.Proofs.Bodies
import DocScaffold.Proofs.Building
import DocScaffold.Proofs.Characters
import DocScaffold.Proofs.Classes
import DocScaffold.Proofs.Closed
import DocScaffold.Proofs.Collecting
import DocScaffold.Proofs.Commenting
import DocScaffold.Proofs.Complete
import DocScaffold.Proofs.Continuing
import DocScaffold.Proofs.Copies
import DocScaffold.Proofs.Cutting
import DocScaffold.Proofs.Decoding
import DocScaffold.Proofs.Disks
import DocScaffold.Proofs.Drafting
import DocScaffold.Proofs.Elsewhere
import DocScaffold.Proofs.Entries
import DocScaffold.Proofs.Fields
import DocScaffold.Proofs.Finding
import DocScaffold.Proofs.Fixpoint
import DocScaffold.Proofs.Fragments
import DocScaffold.Proofs.Frames
import DocScaffold.Proofs.FrontEnds
import DocScaffold.Proofs.Gaps
import DocScaffold.Proofs.Grammar
import DocScaffold.Proofs.Header
import DocScaffold.Proofs.Heads
import DocScaffold.Proofs.Inserting
import DocScaffold.Proofs.Invoking
import DocScaffold.Proofs.Joining
import DocScaffold.Proofs.JsonText
import DocScaffold.Proofs.Layouts
import DocScaffold.Proofs.Leading
import DocScaffold.Proofs.Locality
import DocScaffold.Proofs.Mappings
import DocScaffold.Proofs.Nearest
import DocScaffold.Proofs.Nesting
import DocScaffold.Proofs.Numerals
import DocScaffold.Proofs.Parameters
import DocScaffold.Proofs.Payloads
import DocScaffold.Proofs.Peeling
import DocScaffold.Proofs.Pieces
import DocScaffold.Proofs.Places
import DocScaffold.Proofs.Precedence
import DocScaffold.Proofs.Qualifiers
import DocScaffold.Proofs.Quiet
import DocScaffold.Proofs.Receivers
import DocScaffold.Proofs.Reflowing
import DocScaffold.Proofs.Rendering
import DocScaffold.Proofs.Requests
import DocScaffold.Proofs.RespacedModifiers
import DocScaffold.Proofs.Respacing
import DocScaffold.Proofs.Routing
import DocScaffold.Proofs.Rows
import DocScaffold.Proofs.Running
import DocScaffold.Proofs.Segments
import DocScaffold.Proofs.Selecting
import DocScaffold.Proofs.Serving
import DocScaffold.Proofs.Shape
import DocScaffold.Proofs.Slots
import DocScaffold.Proofs.Spacing
import DocScaffold.Proofs.Spelling
import DocScaffold.Proofs.Squeezing
import DocScaffold.Proofs.Starts
import DocScaffold.Proofs.Stepping
import DocScaffold.Proofs.Stripping
import DocScaffold.Proofs.Switches
import DocScaffold.Proofs.Tiling
import DocScaffold.Proofs.Tuples
import DocScaffold.Proofs.Unsupported
import DocScaffold.Proofs.Variants
import DocScaffold.Proofs.Words
import DocScaffold.Proofs.Wrapping
import DocScaffold.Service.App
import DocScaffold.Service.Framework
import DocScaffold.Settings.Basic
import DocScaffold.Settings.Location
import DocScaffold.Settings.Switch
import DocScaffold.Setup
import DocScaffold.Text.Basic
import DocScaffold.Text.Blank
import DocScaffold.Text.Case
import DocScaffold.Text.CaseTable
import DocScaffold.Text.CodePoint
import DocScaffold.Text.Digit
import DocScaffold.Text.Integer
import DocScaffold.Text.Printable
import DocScaffold.Text.Quoted
import DocScaffold.Text.Range
import DocScaffold.Text.Utf8
import DocScaffold.Text.Word
import DocScaffold.Token.Basic
import DocScaffold.Token.Bracket
import DocScaffold.Token.Lexeme
import DocScaffold.Token.Span
import DocScaffold.Yaml.Document
import DocScaffold.Yaml.Moment
import DocScaffold.Yaml.Reader
import DocScaffold.Yaml.Value
