import Stubsmith.CommandLine.Options
import Stubsmith.CommandLine.Run
import Stubsmith.CommandLine.Screen
import Stubsmith.CommandLine.Suggestion
import Stubsmith.CommandLine.Terminal
import Stubsmith.Config.Find
import Stubsmith.Config.Load
import Stubsmith.Config.Settings
import Stubsmith.Data.Issue
import Stubsmith.Data.Json
import Stubsmith.Data.Value
import Stubsmith.Decimal.Nearest
import Stubsmith.Decimal.Shortest
import Stubsmith.Files.Append
import Stubsmith.Files.Discovery
import Stubsmith.Files.Fault
import Stubsmith.Files.FileSystem
import Stubsmith.Files.Path
import Stubsmith.Files.Real
import Stubsmith.Files.Route
import Stubsmith.Generation.Generate
import Stubsmith.Generation.Report
import Stubsmith.Generation.Run
import Stubsmith.Generation.Source
import Stubsmith.Generation.Target
import Stubsmith.Logging.Journal
import Stubsmith.Logging.Record
import Stubsmith.Logging.Reference
import Stubsmith.Logging.Setup
import Stubsmith.Main
import Stubsmith.Proofs.Files.Discovery
import Stubsmith.Proofs.Files.Extension
import Stubsmith.Proofs.Files.LinkFree
import Stubsmith.Proofs.Files.Paving
import Stubsmith.Proofs.Generation.CompleteOutput
import Stubsmith.Proofs.Generation.Ground
import Stubsmith.Proofs.Generation.NoClobber
import Stubsmith.Proofs.Generation.Step
import Stubsmith.Proofs.Proto.Building
import Stubsmith.Proofs.Proto.Completeness
import Stubsmith.Proofs.Proto.Derivation
import Stubsmith.Proofs.Proto.Lexeme
import Stubsmith.Proofs.Proto.Lines
import Stubsmith.Proofs.Proto.Reading
import Stubsmith.Proofs.Proto.Run
import Stubsmith.Proofs.Proto.Shape
import Stubsmith.Proofs.Proto.Soundness
import Stubsmith.Proofs.Proto.Spelling
import Stubsmith.Proofs.Proto.Stage
import Stubsmith.Proofs.Proto.Strip
import Stubsmith.Proofs.Proto.Weaving
import Stubsmith.Proofs.Service.Attachment
import Stubsmith.Proofs.Service.Extraction
import Stubsmith.Proofs.Writer.Emission
import Stubsmith.Proto.Error
import Stubsmith.Proto.Grammar
import Stubsmith.Proto.Lexeme
import Stubsmith.Proto.Node
import Stubsmith.Proto.Parse
import Stubsmith.Proto.Token
import Stubsmith.Proto.Tree
import Stubsmith.Service.Basic
import Stubsmith.Service.Check
import Stubsmith.Service.Comment
import Stubsmith.Service.Extract
import Stubsmith.Text.Base64
import Stubsmith.Text.Blank
import Stubsmith.Text.CaseRange
import Stubsmith.Text.Cased
import Stubsmith.Text.CodePoint
import Stubsmith.Text.Digit
import Stubsmith.Text.Lines
import Stubsmith.Text.Lower
import Stubsmith.Text.Printable
import Stubsmith.Text.Quoted
import Stubsmith.Text.Upper
import Stubsmith.Text.Utf8
import Stubsmith.Writer.Basic
import Stubsmith.Writer.Python
import Stubsmith.Writer.Recorder
import Stubsmith.Writer.Registry
import Stubsmith.Yaml.Cursor
import Stubsmith.Yaml.Document
import Stubsmith.Yaml.Fault
import Stubsmith.Yaml.Lexeme
import Stubsmith.Yaml.Node
import Stubsmith.Yaml.Scalar
import Stubsmith.Yaml.Tag
import Stubsmith.Yaml.Token
import Stubsmith.Proofs.Generation.Frame
import Stubsmith.Proofs.Files.Rediscovery
import Stubsmith.Proofs.Generation.Separation
import Stubsmith.Proofs.Generation.Independence
import Stubsmith.Proofs.Generation.Recovery
import Stubsmith.Proofs.Files.Faults
import Stubsmith.Proofs.Generation.Isolation
import Stubsmith.Proofs.Proto.Blanking
import Stubsmith.Proofs.Service.Transparency
import Stubsmith.Proofs.Proto.Closing
import Stubsmith.Proofs.Proto.Moving
import Stubsmith.Proofs.Proto.Joining
import Stubsmith.Proofs.Proto.Gluing
import Stubsmith.Proofs.Service.Concatenation
import Stubsmith.Proofs.Proto.Drafting
import Stubsmith.Proofs.Service.Printing
import Stubsmith.Proofs.Service.RoundTrip
import Stubsmith.Proofs.Generation.Rerun
import Stubsmith.Proofs.Service.Lines
import Stubsmith.Proofs.Proto.Settling
import Stubsmith.Proofs.Service.Reformatting
import Stubsmith.Proofs.Service.Declaration
import Stubsmith.Proofs.Files.Standing
import Stubsmith.Proofs.Generation.Recording
import Stubsmith.Proofs.Writer.Registration
import Stubsmith.Proofs.Generation.Checks
import Stubsmith.Proofs.Text.Trimming
import Stubsmith.Proofs.Service.BlockComments
import Stubsmith.Proofs.Writer.Rendering
import Stubsmith.Proofs.Service.AnyTree
import Stubsmith.Proofs.Service.Streams
import Stubsmith.Proofs.CommandLine.Arguments
import Stubsmith.Proofs.CommandLine.Conclusion
import Stubsmith.Proofs.Text.Joining
import Stubsmith.Proofs.Writer.Docstring
import Stubsmith.Proofs.Files.Inventory
import Stubsmith.Proofs.Generation.Mirroring
import Stubsmith.Proofs.Proto.Completion
import Stubsmith.Proofs.Proto.Cutting
import Stubsmith.Proofs.Proto.FaultPlaces
import Stubsmith.Proofs.Writer.Layout
import Stubsmith.Proofs.Writer.Plugins
import Stubsmith.Proofs.Config.Search
import Stubsmith.Proofs.Config.Reporting
import Stubsmith.Proofs.Text.Forms
import Stubsmith.Proofs.Generation.Encodings
import Stubsmith.Proofs.Generation.Bookkeeping
