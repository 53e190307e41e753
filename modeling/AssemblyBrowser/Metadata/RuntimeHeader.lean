import AssemblyBrowser.Bytes.Decoder

/-!
# The runtime header

The header that an executable image carries for the runtime: where the metadata
and the embedded resources are, and where a program starts.
-/

namespace AssemblyBrowser

/-- The runtime header of an image. -/
structure RuntimeHeader where
  size : Nat
  majorVersion : Nat
  minorVersion : Nat
  metadataRva : Nat
  metadataSize : Nat
  flags : Nat
  entryPoint : Nat
  resourcesRva : Nat
  resourcesSize : Nat

namespace RuntimeHeader

def length : Nat := 72

def decoder : Decoder RuntimeHeader := do
  let size ← Decoder.unsigned 4
  if size < length then Decoder.malformed (.runtimeHeaderSize size)
  let majorVersion ← Decoder.unsigned 2
  let minorVersion ← Decoder.unsigned 2
  let metadataRva ← Decoder.unsigned 4
  let metadataSize ← Decoder.unsigned 4
  if metadataRva = 0 ∨ metadataSize = 0 then Decoder.malformed .runtimeHeaderWithoutMetadata
  let flags ← Decoder.unsigned 4
  let entryPoint ← Decoder.unsigned 4
  let resourcesRva ← Decoder.unsigned 4
  let resourcesSize ← Decoder.unsigned 4
  return {
    size, majorVersion, minorVersion, metadataRva, metadataSize, flags, entryPoint
    resourcesRva, resourcesSize }

def decode (data : Bytes) : Except Error RuntimeHeader :=
  if data.size < length then .error .outOfBounds else decoder.parse data

/-- The token of the method that a managed program starts with. -/
def managedEntryPoint? (header : RuntimeHeader) : Option Token :=
  if header.flags.testBit 4 ∨ header.entryPoint = 0 then none
  else some (Token.ofNat header.entryPoint)

end RuntimeHeader
end AssemblyBrowser
