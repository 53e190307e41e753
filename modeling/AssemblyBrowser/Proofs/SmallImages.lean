import AssemblyBrowser.Image.Basic
import AssemblyBrowser.Metadata.Root
import AssemblyBrowser.Metadata.RuntimeHeader
import AssemblyBrowser.Metadata.Table

/-!
# Small images

The smallest images that hold types: a runtime header, a metadata root with one
stream, and a table stream with nothing but types and which of them stand inside
which. Every name in them is empty.
-/

namespace AssemblyBrowser
namespace SmallImage

/-- The tables of `count` types, of which the rows say which stand inside which. -/
def tables (count : Nat) (nesting : List (Nat × Nat)) : List UInt8 :=
  Bytes.ofLittleEndian 4 0 ++ [2, 0, 0, 1]
    ++ Bytes.ofLittleEndian 8
      (Nat.pow 2 TableId.typeDef.number + Nat.pow 2 TableId.nestedClass.number)
    ++ Bytes.ofLittleEndian 8 0
    ++ Bytes.ofLittleEndian 4 count ++ Bytes.ofLittleEndian 4 nesting.length
    ++ List.replicate (14 * count) 0
    ++ nesting.flatMap fun (inner, outer) =>
      Bytes.ofLittleEndian 2 inner ++ Bytes.ofLittleEndian 2 outer

/-- A root whose only stream is a table stream of that length. -/
def root (length : Nat) : List UInt8 :=
  Bytes.ofLittleEndian 4 MetadataRoot.signature ++ Bytes.ofLittleEndian 2 1
    ++ Bytes.ofLittleEndian 2 1 ++ Bytes.ofLittleEndian 8 0 ++ Bytes.ofLittleEndian 2 0
    ++ Bytes.ofLittleEndian 2 1 ++ Bytes.ofLittleEndian 4 32 ++ Bytes.ofLittleEndian 4 length
    ++ [0x23, 0x7E, 0, 0]

/-- A header in front of metadata of that length. -/
def header (length : Nat) : List UInt8 :=
  Bytes.ofLittleEndian 4 RuntimeHeader.length ++ Bytes.ofLittleEndian 4 0
    ++ Bytes.ofLittleEndian 4 RuntimeHeader.length ++ Bytes.ofLittleEndian 4 length
    ++ List.replicate 56 0

/-- The image of `count` types. -/
def ofNesting (count : Nat) (nesting : List (Nat × Nat)) : Image :=
  let tables := tables count nesting
  let metadata := root tables.length ++ tables
  { data := (header metadata.length ++ metadata).toArray
    sections := [{ virtualAddress := 0, virtualSize := 0x1000, rawPointer := 0, rawSize := 0 }]
    runtimeHeader := { rva := 0, size := UInt32.ofNat RuntimeHeader.length } }

end SmallImage
end AssemblyBrowser
