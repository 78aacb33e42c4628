import IdlBinder.Check
import IdlBinder.Command.Arguments
import IdlBinder.Command.Flag
import IdlBinder.Command.Run
import IdlBinder.Constant.Elaborate
import IdlBinder.Constant.Initializer
import IdlBinder.Cpp.Code
import IdlBinder.Cpp.Item
import IdlBinder.Cpp.SourceFile
import IdlBinder.Cpp.TypeName
import IdlBinder.Decimal.Binary64
import IdlBinder.Decimal.Shortest
import IdlBinder.Diagnostic
import IdlBinder.Emit.Basic
import IdlBinder.Emit.Interface
import IdlBinder.Emit.Record
import IdlBinder.Files.Disk
import IdlBinder.Files.Fault
import IdlBinder.Files.Path
import IdlBinder.Files.Storage
import IdlBinder.Generate
import IdlBinder.Idl.Decode
import IdlBinder.Idl.Document
import IdlBinder.Idl.Encode
import IdlBinder.Idl.Literal
import IdlBinder.Idl.Type
import IdlBinder.Json.Basic
import IdlBinder.Json.Numeral
import IdlBinder.Json.Printer
import IdlBinder.Json.Reader
import IdlBinder.Json.Shape
import IdlBinder.Json.Token
import IdlBinder.Main
import IdlBinder.Marshal.Basic
import IdlBinder.Marshal.Component
import IdlBinder.Marshal.Native
import IdlBinder.Marshal.References
import IdlBinder.Name.Casing
import IdlBinder.Name.Words
import IdlBinder.Naming
import IdlBinder.Output
import IdlBinder.Registry
import IdlBinder.Settings
import IdlBinder.Text.CaseMap
import IdlBinder.Text.Cased
import IdlBinder.Text.Property
import IdlBinder.Text.TextSet
import IdlBinder.Proofs.Lookup
import IdlBinder.Proofs.WellFormed
import IdlBinder.Proofs.FirstFault
import IdlBinder.Proofs.Generation
import IdlBinder.Proofs.Fitting
import IdlBinder.Proofs.LiteralFault
import IdlBinder.Proofs.Emission
import IdlBinder.Proofs.Inclusion
import IdlBinder.Proofs.Layout
import IdlBinder.Proofs.FieldOrder
import IdlBinder.Proofs.Route
import IdlBinder.Proofs.Confinement
import IdlBinder.Proofs.CamelCase
import IdlBinder.Proofs.TypeNames
import IdlBinder.Proofs.IncludeCycle
import IdlBinder.Proofs.DiskEffect
import IdlBinder.Proofs.Rendering
import IdlBinder.Proofs.OwnerFiles
import IdlBinder.Proofs.ConstantPlacement
import IdlBinder.Proofs.InitializerParts
import IdlBinder.Proofs.ForwardDeclarations
import IdlBinder.Proofs.Completeness
import IdlBinder.Proofs.LiteralType
import IdlBinder.Proofs.ReferenceExpansion
import IdlBinder.Proofs.Locality
import IdlBinder.Proofs.DeclarationOrder
import IdlBinder.Proofs.Writing
import IdlBinder.Proofs.DryRun
import IdlBinder.Proofs.RoundTrip
import IdlBinder.Proofs.Nesting
import IdlBinder.Proofs.ReferenceSets
import IdlBinder.Proofs.SpelledReferences
import IdlBinder.Proofs.IntegerRange
import IdlBinder.Proofs.CommentEnd
import IdlBinder.Proofs.SnakeCase
import IdlBinder.Proofs.MemberNames
import IdlBinder.Proofs.PathComponents
import IdlBinder.Proofs.SuffixedNames
import IdlBinder.Proofs.WordBoundaries
import IdlBinder.Proofs.Indentation
