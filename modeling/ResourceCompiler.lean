import ResourceCompiler.Binary64
import ResourceCompiler.Binary64.Shortest
import ResourceCompiler.CommandLine.Arguments
import ResourceCompiler.CommandLine.Run
import ResourceCompiler.Compilation
import ResourceCompiler.Compile
import ResourceCompiler.Config
import ResourceCompiler.Config.Store
import ResourceCompiler.Console.Emoji
import ResourceCompiler.Console.Markup
import ResourceCompiler.Console.Table
import ResourceCompiler.CustomResource
import ResourceCompiler.Descriptor
import ResourceCompiler.Dialect
import ResourceCompiler.Error
import ResourceCompiler.Fault
import ResourceCompiler.FileTree
import ResourceCompiler.Generation
import ResourceCompiler.Java.Generator
import ResourceCompiler.Java.Literal
import ResourceCompiler.Java.Names
import ResourceCompiler.Java.Template
import ResourceCompiler.Java.Types
import ResourceCompiler.Java.Unit
import ResourceCompiler.Json.Printer
import ResourceCompiler.Json.Reader
import ResourceCompiler.Limit
import ResourceCompiler.Logging
import ResourceCompiler.Manifest
import ResourceCompiler.Manifest.Source
import ResourceCompiler.Naming
import ResourceCompiler.Naming.Collision
import ResourceCompiler.Primitive
import ResourceCompiler.Proofs.Binary64
import ResourceCompiler.Proofs.Binary64.Integer
import ResourceCompiler.Proofs.Collision
import ResourceCompiler.Proofs.CommandLine.Arguments
import ResourceCompiler.Proofs.CommandLine.Run
import ResourceCompiler.Proofs.Compilation
import ResourceCompiler.Proofs.Compilation.Packing
import ResourceCompiler.Proofs.Compile
import ResourceCompiler.Proofs.Config.Load
import ResourceCompiler.Proofs.Config.Mappings
import ResourceCompiler.Proofs.Config.Names
import ResourceCompiler.Proofs.Config.Store
import ResourceCompiler.Proofs.Entries
import ResourceCompiler.Proofs.Failure
import ResourceCompiler.Proofs.FileTree
import ResourceCompiler.Proofs.Generation
import ResourceCompiler.Proofs.Java.Accessors
import ResourceCompiler.Proofs.Java.BasePackage
import ResourceCompiler.Proofs.Java.Comments
import ResourceCompiler.Proofs.Java.EnumDefaults
import ResourceCompiler.Proofs.Java.EnumValues
import ResourceCompiler.Proofs.Java.Enums
import ResourceCompiler.Proofs.Java.Escapes
import ResourceCompiler.Proofs.Java.Identifiers
import ResourceCompiler.Proofs.Java.Integers
import ResourceCompiler.Proofs.Java.Location
import ResourceCompiler.Proofs.Java.Overflow
import ResourceCompiler.Proofs.Java.Packages
import ResourceCompiler.Proofs.Java.SameIdentifier
import ResourceCompiler.Proofs.Java.StringLiterals
import ResourceCompiler.Proofs.Java.WellNamed
import ResourceCompiler.Proofs.Json.Lines
import ResourceCompiler.Proofs.Json.Number
import ResourceCompiler.Proofs.Json.RoundTrip
import ResourceCompiler.Proofs.Key
import ResourceCompiler.Proofs.Layout
import ResourceCompiler.Proofs.Limit
import ResourceCompiler.Proofs.Manifest
import ResourceCompiler.Proofs.Matched
import ResourceCompiler.Proofs.Naming
import ResourceCompiler.Proofs.Naming.Reduction
import ResourceCompiler.Proofs.Path
import ResourceCompiler.Proofs.Primitive
import ResourceCompiler.Proofs.QualifiedName
import ResourceCompiler.Proofs.Reading
import ResourceCompiler.Proofs.Registry
import ResourceCompiler.Proofs.Resolver.Artifacts
import ResourceCompiler.Proofs.Resolver.Checks
import ResourceCompiler.Proofs.Resolver.Claims
import ResourceCompiler.Proofs.Resolver.Closed
import ResourceCompiler.Proofs.Resolver.Constants
import ResourceCompiler.Proofs.Resolver.Culprit
import ResourceCompiler.Proofs.Resolver.Depth
import ResourceCompiler.Proofs.Resolver.Dispatch
import ResourceCompiler.Proofs.Resolver.Fields
import ResourceCompiler.Proofs.Resolver.Invariant
import ResourceCompiler.Proofs.Resolver.Names
import ResourceCompiler.Proofs.Resolver.Override
import ResourceCompiler.Proofs.Resolver.Packages
import ResourceCompiler.Proofs.Resolver.Preserving
import ResourceCompiler.Proofs.Resolver.Properties
import ResourceCompiler.Proofs.Resolver.Reordered
import ResourceCompiler.Proofs.Resolver.Runs
import ResourceCompiler.Proofs.Resolver.Steps
import ResourceCompiler.Proofs.Resolver.Threshold
import ResourceCompiler.Proofs.Schema.Height
import ResourceCompiler.Proofs.Schema.Node
import ResourceCompiler.Proofs.Schema.Places
import ResourceCompiler.Proofs.Schema.Reader
import ResourceCompiler.Proofs.Schema.Reading
import ResourceCompiler.Proofs.Schema.Record
import ResourceCompiler.Proofs.Schema.Reordered
import ResourceCompiler.Proofs.Source
import ResourceCompiler.Proofs.Success
import ResourceCompiler.Proofs.Template.Store
import ResourceCompiler.Proofs.Value
import ResourceCompiler.Proofs.Value.Number
import ResourceCompiler.Proofs.Value.Text
import ResourceCompiler.Registry
import ResourceCompiler.Resolver
import ResourceCompiler.Schema.Kind
import ResourceCompiler.Schema.Node
import ResourceCompiler.Schema.Reader
import ResourceCompiler.Source
import ResourceCompiler.Template
import ResourceCompiler.Template.Filter
import ResourceCompiler.Template.Reader
import ResourceCompiler.Template.Store
import ResourceCompiler.Text.Blank
import ResourceCompiler.Text.Case
import ResourceCompiler.Text.Cased
import ResourceCompiler.Text.Digit
import ResourceCompiler.Text.Printable
import ResourceCompiler.Text.Quoted
import ResourceCompiler.Text.Ranges
import ResourceCompiler.Text.Width
import ResourceCompiler.Text.Word
import ResourceCompiler.Url
import ResourceCompiler.Value
import ResourceCompiler.Value.Number
import ResourceCompiler.Value.Text
import ResourceCompiler.Yaml.Cursor
import ResourceCompiler.Yaml.Document
import ResourceCompiler.Yaml.Node
import ResourceCompiler.Yaml.Node.Reader
import ResourceCompiler.Yaml.Number
import ResourceCompiler.Yaml.Scalar.Block
import ResourceCompiler.Yaml.Scalar.Plain
import ResourceCompiler.Yaml.Scalar.Quoted
import ResourceCompiler.Yaml.Tag
import ResourceCompiler.Yaml.Timestamp
import ResourceCompiler.Yaml.Token
import ResourceCompiler.Yaml.Token.Lexer
import ResourceCompiler.Main
