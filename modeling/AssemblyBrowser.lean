import AssemblyBrowser.Browse.Children
import AssemblyBrowser.Browse.Module
import AssemblyBrowser.Browse.Text
import AssemblyBrowser.Bytes.Basic
import AssemblyBrowser.Bytes.Bounded
import AssemblyBrowser.Bytes.CompressedNumber
import AssemblyBrowser.Bytes.CursorOp
import AssemblyBrowser.Bytes.Decoder
import AssemblyBrowser.Bytes.TextField
import AssemblyBrowser.CommandLine.Invocation
import AssemblyBrowser.CommandLine.Options
import AssemblyBrowser.CommandLine.Program
import AssemblyBrowser.CommandLine.Run
import AssemblyBrowser.CommandLine.Server
import AssemblyBrowser.Container.Basic
import AssemblyBrowser.Container.Bundle
import AssemblyBrowser.Container.Entry
import AssemblyBrowser.Container.Folder
import AssemblyBrowser.Container.PackageMetadata
import AssemblyBrowser.Container.Zip
import AssemblyBrowser.Decimal.Rounding
import AssemblyBrowser.Decimal.Shortest
import AssemblyBrowser.Deflate.Inflate
import AssemblyBrowser.Digest.Sha1
import AssemblyBrowser.Error
import AssemblyBrowser.Export.Basic
import AssemblyBrowser.FileSystem.Basic
import AssemblyBrowser.FileSystem.Path
import AssemblyBrowser.Hierarchy.BaseTypes
import AssemblyBrowser.Image.Basic
import AssemblyBrowser.Json.Basic
import AssemblyBrowser.Json.Number
import AssemblyBrowser.Json.Printer
import AssemblyBrowser.Json.Reader
import AssemblyBrowser.Listing.Basic
import AssemblyBrowser.Listing.CSharp
import AssemblyBrowser.Listing.Il
import AssemblyBrowser.Listing.Source
import AssemblyBrowser.Main
import AssemblyBrowser.Metadata.Heap
import AssemblyBrowser.Metadata.Root
import AssemblyBrowser.Metadata.RuntimeHeader
import AssemblyBrowser.Metadata.Signature
import AssemblyBrowser.Metadata.Table
import AssemblyBrowser.Metadata.TableStream
import AssemblyBrowser.Metadata.Token
import AssemblyBrowser.Module.Attributes
import AssemblyBrowser.Module.Basic
import AssemblyBrowser.Module.Builder
import AssemblyBrowser.Module.Constant
import AssemblyBrowser.Module.Definition
import AssemblyBrowser.Module.Loader
import AssemblyBrowser.Module.Metadata
import AssemblyBrowser.Module.Reader
import AssemblyBrowser.Module.Resolution
import AssemblyBrowser.Module.TypeExpr
import AssemblyBrowser.Module.TypeName
import AssemblyBrowser.Navigator.Basic
import AssemblyBrowser.Pattern.Basic
import AssemblyBrowser.Pattern.Parser
import AssemblyBrowser.Pattern.Reader
import AssemblyBrowser.Proofs.Accessors.Roles
import AssemblyBrowser.Proofs.Accessors.Visibility
import AssemblyBrowser.Proofs.Addresses.BaseTypes
import AssemblyBrowser.Proofs.Addresses.Distinct
import AssemblyBrowser.Proofs.Addresses.HandedOut
import AssemblyBrowser.Proofs.Addresses.Places
import AssemblyBrowser.Proofs.Addresses.Resolving
import AssemblyBrowser.Proofs.Addresses.TreeItems
import AssemblyBrowser.Proofs.Browsing.Agreement
import AssemblyBrowser.Proofs.Browsing.Comments
import AssemblyBrowser.Proofs.Browsing.Nesting
import AssemblyBrowser.Proofs.Browsing.Nodes
import AssemblyBrowser.Proofs.Codec.Cells
import AssemblyBrowser.Proofs.Codec.CodedIndexes
import AssemblyBrowser.Proofs.Codec.Constants
import AssemblyBrowser.Proofs.Codec.Heaps
import AssemblyBrowser.Proofs.Codec.MetadataRoots
import AssemblyBrowser.Proofs.Codec.Numbers
import AssemblyBrowser.Proofs.Codec.Reads
import AssemblyBrowser.Proofs.Codec.SevenBitNumbers
import AssemblyBrowser.Proofs.Codec.SignatureDepths
import AssemblyBrowser.Proofs.Codec.SignatureSizes
import AssemblyBrowser.Proofs.Codec.Signatures
import AssemblyBrowser.Proofs.Codec.StreamDirectories
import AssemblyBrowser.Proofs.Codec.TableSchema
import AssemblyBrowser.Proofs.Codec.TableStreams
import AssemblyBrowser.Proofs.Containers.ArchiveComments
import AssemblyBrowser.Proofs.Containers.Bundles
import AssemblyBrowser.Proofs.Containers.Drafts
import AssemblyBrowser.Proofs.Containers.Expansion
import AssemblyBrowser.Proofs.Containers.FolderOrder
import AssemblyBrowser.Proofs.Containers.Folders
import AssemblyBrowser.Proofs.Containers.PackageFields
import AssemblyBrowser.Proofs.Containers.PackedFiles
import AssemblyBrowser.Proofs.Containers.WideNumbers
import AssemblyBrowser.Proofs.Containers.ZipArchives
import AssemblyBrowser.Proofs.Containers.ZipRecords
import AssemblyBrowser.Proofs.Containment.Agreement
import AssemblyBrowser.Proofs.Containment.ConstructedTypes
import AssemblyBrowser.Proofs.Containment.MemberSignatures
import AssemblyBrowser.Proofs.Containment.TypeSpecs
import AssemblyBrowser.Proofs.Cursors.Programs
import AssemblyBrowser.Proofs.Cursors.Spending
import AssemblyBrowser.Proofs.Decimal.Nearest
import AssemblyBrowser.Proofs.Export.DeclaredTypes
import AssemblyBrowser.Proofs.Export.Files
import AssemblyBrowser.Proofs.Export.Plans
import AssemblyBrowser.Proofs.Files.Canonical
import AssemblyBrowser.Proofs.Files.PathTexts
import AssemblyBrowser.Proofs.Files.Walks
import AssemblyBrowser.Proofs.Files.Writing
import AssemblyBrowser.Proofs.Hierarchy.Inverse
import AssemblyBrowser.Proofs.Hierarchy.Lookups
import AssemblyBrowser.Proofs.Hierarchy.Repetition
import AssemblyBrowser.Proofs.Hierarchy.Supertypes
import AssemblyBrowser.Proofs.Hierarchy.Users
import AssemblyBrowser.Proofs.Hierarchy.Walks
import AssemblyBrowser.Proofs.Images.Descriptions
import AssemblyBrowser.Proofs.Images.Drafts
import AssemblyBrowser.Proofs.Images.Encoding
import AssemblyBrowser.Proofs.Images.Files
import AssemblyBrowser.Proofs.Images.Links
import AssemblyBrowser.Proofs.Images.Lists
import AssemblyBrowser.Proofs.Images.Loading
import AssemblyBrowser.Proofs.Images.MemberLists
import AssemblyBrowser.Proofs.Images.Members
import AssemblyBrowser.Proofs.Images.Names
import AssemblyBrowser.Proofs.Images.RawData
import AssemblyBrowser.Proofs.Images.Rows
import AssemblyBrowser.Proofs.Images.Supertypes
import AssemblyBrowser.Proofs.Images.Types
import AssemblyBrowser.Proofs.Interleavings
import AssemblyBrowser.Proofs.Listing.Blocks
import AssemblyBrowser.Proofs.Listing.Declarations
import AssemblyBrowser.Proofs.Listing.Steps
import AssemblyBrowser.Proofs.Lookup.Exactness
import AssemblyBrowser.Proofs.Lookup.Loading
import AssemblyBrowser.Proofs.Lookup.Numbering
import AssemblyBrowser.Proofs.Lookup.QualifiedNames
import AssemblyBrowser.Proofs.MemberOwners
import AssemblyBrowser.Proofs.Opening
import AssemblyBrowser.Proofs.Outcomes
import AssemblyBrowser.Proofs.ParameterNames
import AssemblyBrowser.Proofs.PathSpellings
import AssemblyBrowser.Proofs.Reading
import AssemblyBrowser.Proofs.References.FirstModules
import AssemblyBrowser.Proofs.References.OnBehalf
import AssemblyBrowser.Proofs.References.Probing
import AssemblyBrowser.Proofs.Requests
import AssemblyBrowser.Proofs.Safety.Answers
import AssemblyBrowser.Proofs.Safety.Decoding
import AssemblyBrowser.Proofs.Safety.Metadata
import AssemblyBrowser.Proofs.Safety.Reading
import AssemblyBrowser.Proofs.Safety.Resolving
import AssemblyBrowser.Proofs.Search.Arities
import AssemblyBrowser.Proofs.Search.Exclusion
import AssemblyBrowser.Proofs.Search.FinalSigmas
import AssemblyBrowser.Proofs.Search.Literals
import AssemblyBrowser.Proofs.Search.Modes
import AssemblyBrowser.Proofs.Search.Scattered
import AssemblyBrowser.Proofs.Search.Scopes
import AssemblyBrowser.Proofs.Search.Terms
import AssemblyBrowser.Proofs.SearchOrder
import AssemblyBrowser.Proofs.Server.Lines
import AssemblyBrowser.Proofs.Server.Responses
import AssemblyBrowser.Proofs.Server.Schedules
import AssemblyBrowser.Proofs.Sessions.Law
import AssemblyBrowser.Proofs.Sessions.Restoring
import AssemblyBrowser.Proofs.Sessions.Texts
import AssemblyBrowser.Proofs.SmallImages
import AssemblyBrowser.Proofs.StoreInvariant
import AssemblyBrowser.Proofs.TypeNesting
import AssemblyBrowser.Proofs.TypeTrees
import AssemblyBrowser.Search.Match
import AssemblyBrowser.Search.Query
import AssemblyBrowser.Search.Scan
import AssemblyBrowser.Store.Archive
import AssemblyBrowser.Store.Basic
import AssemblyBrowser.Store.Resolver
import AssemblyBrowser.Store.Worker
import AssemblyBrowser.Text.Blank
import AssemblyBrowser.Text.Numeral
import AssemblyBrowser.Text.Utf16
import AssemblyBrowser.Text.Utf8
import AssemblyBrowser.Tree.Address
import AssemblyBrowser.Tree.Flags
import AssemblyBrowser.Tree.Node
import AssemblyBrowser.Tree.NodeJson
import AssemblyBrowser.Tree.NodeKind
import AssemblyBrowser.Unicode.Case
import AssemblyBrowser.Unicode.CaseTable
import AssemblyBrowser.Unicode.Category
import AssemblyBrowser.Unicode.CategoryTable
import AssemblyBrowser.Unicode.ScriptTable
import AssemblyBrowser.Xml.Reader
