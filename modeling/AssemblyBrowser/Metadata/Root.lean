import AssemblyBrowser.Bytes.TextField

/-!
# The metadata root

The root names the runtime version that a module was built for and lists its
streams. Every listed range lies inside the metadata.
-/

namespace AssemblyBrowser

/-- An entry of the stream list. -/
structure StreamHeader where
  offset : Nat
  size : Nat
  name : String

/-- The head of a module's metadata. -/
structure MetadataRoot where
  majorVersion : Nat
  minorVersion : Nat
  version : String
  streams : List StreamHeader

namespace MetadataRoot

/-- The first four bytes of metadata, as a number. -/
def signature : Nat := 0x424A5342

/-- A version text without the zero bytes that pad it. -/
def trimPadding (text : String) : String :=
  String.ofList (text.toList.reverse.dropWhile (· == '\x00')).reverse

def streamDecoder : Decoder StreamHeader := do
  let offset ← Decoder.unsigned 4
  let size ← Decoder.unsigned 4
  let name ← TextField.terminated
  Decoder.align 4
  let cursor ← get
  if UInt32.size ≤ offset + size then Decoder.malformed (.streamOverflow offset size)
  else if cursor.data.size < offset + size then throw .outOfBounds
  else return { offset, size, name }

def decoder : Decoder MetadataRoot := do
  let found ← Decoder.unsigned 4
  if found ≠ signature then Decoder.malformed (.metadataSignature found)
  let majorVersion ← Decoder.unsigned 2
  let minorVersion ← Decoder.unsigned 2
  let _reserved ← Decoder.unsigned 4
  let versionLength ← Decoder.unsigned 4
  let versionBytes ← Decoder.take versionLength
  let _flags ← Decoder.unsigned 2
  let count ← Decoder.unsigned 2
  if count = 0 then Decoder.malformed .noStreams
  let streams ← Decoder.repeated streamDecoder count
  return {
    majorVersion, minorVersion, streams
    version := trimPadding (Utf8.decodeLossy versionBytes) }

def decode (metadata : Bytes) : Except Error MetadataRoot := decoder.parse metadata

def stream? (root : MetadataRoot) (metadata : Bytes) (name : String) :
    Except Error (Option Bytes) := do
  match root.streams.find? (·.name == name) with
  | none => return none
  | some header =>
      let stop ← Bounded.add UInt32.size header.offset header.size
      return metadata.between? header.offset stop

end MetadataRoot
end AssemblyBrowser
