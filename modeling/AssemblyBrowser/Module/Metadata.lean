import AssemblyBrowser.Image.Basic
import AssemblyBrowser.Metadata.Heap
import AssemblyBrowser.Metadata.Root
import AssemblyBrowser.Metadata.RuntimeHeader
import AssemblyBrowser.Metadata.TableStream

/-!
# The metadata of an image

Finds the runtime header, the metadata and its streams inside an image, and
reads cells, names and blobs of table rows through the heaps.
-/

namespace AssemblyBrowser

/-- The tables and heaps of an image. -/
structure ImageMetadata where
  tables : TableStream
  strings : Bytes
  blobs : Bytes
  guids : Bytes
  runtimeVersion : String
  entryPoint : Option Token
  image : Image
  /-- Where the embedded resources begin. -/
  resourcesBase : Option Nat

namespace ImageMetadata

/-- The bytes of the table stream, which goes by either of two names. -/
def tableStream? (root : MetadataRoot) (metadata : Bytes) : Except Error (Option Bytes) := do
  match ← root.stream? metadata "#~" with
  | some tables => return some tables
  | none => root.stream? metadata "#-"

def ofImage (image : Image) : Except Error ImageMetadata := do
  let headerOffset ← image.rvaToOffset image.runtimeHeader.rva.toNat
  let header ← RuntimeHeader.decode (← image.slice headerOffset RuntimeHeader.length)
  let metadataOffset ← image.rvaToOffset header.metadataRva
  let metadata ← image.slice metadataOffset header.metadataSize
  let root ← MetadataRoot.decode metadata
  match ← tableStream? root metadata with
  | none => .error (.malformed .noTableStream)
  | some tables =>
      let strings ← root.stream? metadata "#Strings"
      let blobs ← root.stream? metadata "#Blob"
      let guids ← root.stream? metadata "#GUID"
      let tables ← TableStream.decode tables
      let resourcesBase ←
        if header.resourcesRva = 0 then pure none
        else Error.attempt (image.rvaToOffset header.resourcesRva)
      return {
        tables, image, resourcesBase
        strings := strings.getD #[]
        blobs := blobs.getD #[]
        guids := guids.getD #[]
        runtimeVersion := root.version
        entryPoint := header.managedEntryPoint?.filter (·.table == TableId.methodDef.number) }

def rows (metadata : ImageMetadata) (table : TableId) : List Nat :=
  List.range' 1 (metadata.tables.rows table)

def string (metadata : ImageMetadata) (table : TableId) (row column : Nat) :
    Except Error String := do
  Heap.string metadata.strings (← metadata.tables.value table row column)

def blob (metadata : ImageMetadata) (table : TableId) (row column : Nat) :
    Except Error Bytes := do
  Heap.blob metadata.blobs (← metadata.tables.value table row column)

/-- The length of the embedded resource at an offset, if it can be read. -/
def resourceLength (metadata : ImageMetadata) (offset : Nat) : Except Error (Option Nat) := do
  match metadata.resourcesBase with
  | none => return none
  | some base =>
      let place ← Bounded.add Bounded.positions base offset
      Error.attempt ((metadata.image.slice place 4).bind (Decoder.unsigned 4).parse)

/-- The rows of a target table that a cell starts, each taken through a pointer table. -/
def listedRows (metadata : ImageMetadata) (table : TableId) (row column : Nat)
    (target pointers : TableId) : Except Error (List Nat) := do
  let (first, stop) ← metadata.tables.listRange table row column target
  (List.range' first (stop - first)).mapM (metadata.tables.indirect pointers)

end ImageMetadata
end AssemblyBrowser
