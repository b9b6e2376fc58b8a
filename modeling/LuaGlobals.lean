import LuaGlobals.Check.Diagnostic
import LuaGlobals.Check.Disassembler
import LuaGlobals.Check.Engine
import LuaGlobals.Check.Policy
import LuaGlobals.Check.Trace
import LuaGlobals.CommandLine.Command
import LuaGlobals.CommandLine.Options
import LuaGlobals.CommandLine.Report
import LuaGlobals.CommandLine.Run
import LuaGlobals.Config.Basic
import LuaGlobals.Config.Load
import LuaGlobals.Config.Setting
import LuaGlobals.Files.Path
import LuaGlobals.Files.Pattern
import LuaGlobals.Files.Tree
import LuaGlobals.Instruction.Basic
import LuaGlobals.Instruction.Comment
import LuaGlobals.Instruction.Cursor
import LuaGlobals.Instruction.Printer
import LuaGlobals.Instruction.Reader
import LuaGlobals.Json.Reader
import LuaGlobals.Json.Value
import LuaGlobals.Json.Writer
import LuaGlobals.Keyed
import LuaGlobals.Listing.Basic
import LuaGlobals.Listing.Printer
import LuaGlobals.Listing.Reader
import LuaGlobals.Listing.Stream
import LuaGlobals.Main
import LuaGlobals.Module.Loader
import LuaGlobals.Number.Binary
import LuaGlobals.Number.Spelling
import LuaGlobals.Proofs.Check.Batch
import LuaGlobals.Proofs.Check.LogMarkup
import LuaGlobals.Proofs.Check.Refusal
import LuaGlobals.Proofs.Check.Soundness
import LuaGlobals.Proofs.CommandLine.CheckExit
import LuaGlobals.Proofs.CommandLine.IndexExit
import LuaGlobals.Proofs.Config.Gathered
import LuaGlobals.Proofs.Config.Sources
import LuaGlobals.Proofs.Config.Valid
import LuaGlobals.Proofs.Files.Collected
import LuaGlobals.Proofs.Files.Spelling
import LuaGlobals.Proofs.Instruction.Comment
import LuaGlobals.Proofs.Instruction.Cursor
import LuaGlobals.Proofs.Instruction.Field
import LuaGlobals.Proofs.Instruction.Joined
import LuaGlobals.Proofs.Instruction.LineLayout
import LuaGlobals.Proofs.Instruction.RoundTrip
import LuaGlobals.Proofs.Keyed
import LuaGlobals.Proofs.Listing.Layout
import LuaGlobals.Proofs.Listing.Lookahead
import LuaGlobals.Proofs.Listing.Partition
import LuaGlobals.Proofs.Listing.RoundTrip
import LuaGlobals.Proofs.Listing.Stream
import LuaGlobals.Proofs.Listing.WrongLine
import LuaGlobals.Proofs.Module.ExportSurface
import LuaGlobals.Proofs.Module.Loadable
import LuaGlobals.Proofs.Module.Transparency
import LuaGlobals.Proofs.Policy.DefinedNames
import LuaGlobals.Proofs.Policy.DefinitionOrder
import LuaGlobals.Proofs.Policy.Finding
import LuaGlobals.Proofs.Policy.Layers
import LuaGlobals.Proofs.Policy.MemberWrite
import LuaGlobals.Proofs.Policy.RequiredExports
import LuaGlobals.Proofs.Policy.Tolerant
import LuaGlobals.Proofs.Policy.Verdict
import LuaGlobals.Proofs.Policy.Walk
import LuaGlobals.Proofs.Reference.Access
import LuaGlobals.Proofs.Reference.Chaining
import LuaGlobals.Proofs.Reference.Declaration
import LuaGlobals.Proofs.Reference.Frame
import LuaGlobals.Proofs.Reference.GlobalRead
import LuaGlobals.Proofs.Reference.Index
import LuaGlobals.Proofs.Reference.LineOrder
import LuaGlobals.Proofs.Reference.Pending
import LuaGlobals.Proofs.Reference.Registry
import LuaGlobals.Proofs.Reference.Trail
import LuaGlobals.Proofs.Reference.TwoPass
import LuaGlobals.Proofs.Reference.Walk
import LuaGlobals.Proofs.Scope.LiveRange
import LuaGlobals.Proofs.Text.Cut
import LuaGlobals.Proofs.Text.Digit
import LuaGlobals.Proofs.Text.Dotted
import LuaGlobals.Proofs.Text.Markup
import LuaGlobals.Proofs.Whitelist.Composition
import LuaGlobals.Proofs.Whitelist.Distinct
import LuaGlobals.Proofs.Whitelist.Lookup
import LuaGlobals.Proofs.Whitelist.Merge
import LuaGlobals.Proofs.Whitelist.Written
import LuaGlobals.Proofs.Whitelist.WrittenOrder
import LuaGlobals.Reference.Basic
import LuaGlobals.Reference.Index
import LuaGlobals.Reference.Resolver
import LuaGlobals.Scope.Basic
import LuaGlobals.Scope.Rows
import LuaGlobals.Text.Blank
import LuaGlobals.Text.Digit
import LuaGlobals.Text.Dotted
import LuaGlobals.Text.Lines
import LuaGlobals.Text.Markup
import LuaGlobals.Text.Printable
import LuaGlobals.Text.Quoted
import LuaGlobals.Toml.Document
import LuaGlobals.Toml.Number
import LuaGlobals.Toml.Text
import LuaGlobals.Whitelist.Basic
import LuaGlobals.Whitelist.Builtin
import LuaGlobals.Whitelist.File
import LuaGlobals.Whitelist.Scoped
import LuaGlobals.Proofs.Check.Refusal
