import AssemblyBrowser.Bytes.TextField
import AssemblyBrowser.Container.Zip

/-!
# Bundles

A bundle is an executable with files appended to it. A signature in the
executable is preceded by the offset of the manifest, which lists the files.
-/

namespace AssemblyBrowser

/-- The list of the files in a bundle. -/
structure BundleManifest where
  majorVersion : Nat
  minorVersion : Nat
  id : String
  flags : Nat
  entries : List ContainerEntry

namespace BundleManifest

/-- What precedes the signature is the offset of the manifest. -/
def signature : List UInt8 :=
  [0x8B, 0x12, 0x02, 0xB9, 0x6A, 0x61, 0x20, 0x38, 0x72, 0x7B, 0x93, 0x02, 0x14, 0xD7, 0xA0, 0x32,
    0x13, 0xF5, 0xB9, 0xE6, 0xEF, 0xAE, 0x33, 0x18, 0xEE, 0x3B, 0x2D, 0xCE, 0x24, 0xB3, 0x6A, 0xAE]

def maxFiles : Nat := 0x100000

/-- The version from which on the manifest has flags. -/
def flagsSince : Nat := 2

/-- The version from which on files may be compressed. -/
def compressionSince : Nat := 6

def findPattern? (pattern : List UInt8) : (index : Nat) → List UInt8 → Option Nat
  | _, [] => none
  | index, byte :: rest =>
      if pattern.isPrefixOf (byte :: rest) then some index
      else findPattern? pattern (index + 1) rest

/-- Where the manifest of an executable is. An executable that was never bundled has zero there. -/
def find? (data : Bytes) : Option Nat := do
  if data.slice? 0 2 ≠ some #[0x4D, 0x5A] then none
  let place ← findPattern? signature 0 data.toList
  if place < 8 then none
  let offset ← data.uintAt? (place - 8) 8
  if 0 < offset ∧ offset < data.size ∧ offset < 0x8000000000000000 then some offset else none

def sizeDecoder : Decoder Nat := do
  let size ← Decoder.signed 8
  if size < 0 then Decoder.malformed (.negativeBundleSize size)
  return size.toNat

/-- The kind of a file: assemblies are marked, other files go by their names. -/
def kindOf (mark : Nat) (path : String) : EntryKind :=
  if mark = 1 then .codeModule else .ofName path

/-- Reads an entry. A compressed length of zero says that the file is stored as it is. -/
def entryDecoder (majorVersion : Nat) : Decoder ContainerEntry := do
  let offset ← sizeDecoder
  let length ← sizeDecoder
  let compressed ← if compressionSince ≤ majorVersion then sizeDecoder else pure 0
  let mark ← Decoder.byte
  let path := ContainerEntry.slashed (← TextField.sevenBitPrefixed)
  return {
    name := Path.lastSegment path
    path
    length := some length
    compressedLength := if compressed = 0 then length else compressed
    offset
    compression := if compressed = 0 then .stored else .deflate
    kind := kindOf mark path }

def decoder : Decoder BundleManifest := do
  let majorVersion ← Decoder.unsigned 4
  let minorVersion ← Decoder.unsigned 4
  let count ← Decoder.signed 4
  if count < 0 ∨ maxFiles < count then Decoder.malformed (.bundleFileCount count)
  let id ← TextField.sevenBitPrefixed
  let flags ←
    if flagsSince ≤ majorVersion then do
      Decoder.advance 32
      Decoder.unsigned 8
    else pure 0
  let entries ← Decoder.repeated (entryDecoder majorVersion) count.toNat
  return { majorVersion, minorVersion, id, flags, entries }

def decodeAt (data : Bytes) (offset : Nat) : Except Error BundleManifest :=
  Decoder.parse (do Decoder.seek offset; decoder) data

def extract (data : Bytes) (entry : ContainerEntry) : Except Error Bytes :=
  match data.slice? entry.offset entry.compressedLength with
  | some raw => Zip.decompress entry.compression raw
  | none => .error .outOfBounds

end BundleManifest
end AssemblyBrowser
