import AssemblyBrowser.Bytes.Decoder
import AssemblyBrowser.Container.Entry
import AssemblyBrowser.Deflate.Inflate

/-!
# Zip archives

A zip archive ends with a record that points at its central directory. Numbers
that do not fit into the record or the directory follow in wider forms.
-/

namespace AssemblyBrowser.Zip

def localHeaderSignature : Nat := 0x04034B50
def centralHeaderSignature : Nat := 0x02014B50
def endSignature : Nat := 0x06054B50
def wideEndSignature : Nat := 0x06064B50
def wideLocatorSignature : Nat := 0x07064B50

/-- The tag of the extra field that holds wide numbers. -/
def wideFieldTag : Nat := 0x0001

/-- The number of bytes of the end record without its comment. -/
def endRecordSize : Nat := 22

/-- The number of bytes of the record that locates the wide end record. -/
def wideLocatorSize : Nat := 20

def maxComment : Nat := 0xFFFF

/-- A two-byte or four-byte number that stands for a wider one elsewhere. -/
def saturated (width : Nat) : Nat := Nat.pow 2 (8 * width) - 1

def isZip (data : Bytes) : Bool :=
  data.uintAt? 0 4 == some localHeaderSignature || data.uintAt? 0 4 == some endSignature

/-- The last of `count` offsets from `first` on at which an end record begins. -/
def lastEndRecord? (data : Bytes) (first : Nat) : (count : Nat) → Option Nat
  | 0 => none
  | count + 1 =>
      if data.uintAt? (first + count) 4 = some endSignature then some (first + count)
      else lastEndRecord? data first count

def findEndRecord (data : Bytes) : Except Error Nat :=
  if data.size < endRecordSize then .error (.malformed (.zipTooSmall data.size))
  else
    let last := data.size - endRecordSize
    let first := last - maxComment
    match lastEndRecord? data first (last - first + 1) with
    | some offset => .ok offset
    | none => .error (.malformed .zipWithoutEnd)

/-- How many entries the central directory has and where it is. -/
structure Directory where
  count : Nat
  offset : Nat

/-- Reads the wide end record, which is found through the locator in front of the end record. -/
def wideDirectory (endRecord : Nat) : Decoder Directory := do
  if endRecord < wideLocatorSize then Decoder.malformed .zip64WithoutLocator
  Decoder.seek (endRecord - wideLocatorSize)
  if (← Decoder.unsigned 4) ≠ wideLocatorSignature then Decoder.malformed .zip64WithoutLocator
  Decoder.advance 4
  let offset ← Decoder.unsigned 8
  Decoder.seek offset
  if (← Decoder.unsigned 4) ≠ wideEndSignature then Decoder.malformed .zip64End
  Decoder.advance 28
  let count ← Decoder.unsigned 8
  Decoder.advance 8
  let offset ← Decoder.unsigned 8
  return { count, offset }

def directory (endRecord : Nat) : Decoder Directory := do
  Decoder.seek (endRecord + 10)
  let count ← Decoder.unsigned 2
  Decoder.advance 4
  let offset ← Decoder.unsigned 4
  if count = saturated 2 ∨ offset = saturated 4 then wideDirectory endRecord
  else return { count, offset }

/-- The lengths and the offset of an entry. -/
structure Extent where
  length : Nat
  compressedLength : Nat
  offset : Nat

/-- Replaces a saturated number by the next wide one. -/
def widen (number : Nat) : Decoder Nat :=
  if number = saturated 4 then Decoder.unsigned 8 else pure number

def widenExtent (extent : Extent) : Decoder Extent := do
  let length ← widen extent.length
  let compressedLength ← widen extent.compressedLength
  let offset ← widen extent.offset
  return { length, compressedLength, offset }

/-- Looks through extra fields for the one with wide numbers; `fuel` bounds the number of fields. -/
def applyExtra (extent : Extent) : (fuel : Nat) → Decoder Extent
  | 0 => pure extent
  | fuel + 1 => do
      if (← Decoder.remaining) < 4 then return extent
      let tag ← Decoder.unsigned 2
      let size ← Decoder.unsigned 2
      let field ← Decoder.take (min size (← Decoder.remaining))
      if tag = wideFieldTag then
        match (widenExtent extent).parse field with
        | .ok extent => return extent
        | .error error => throw error
      else applyExtra extent fuel

def compressionOf : (method : Nat) → Compression
  | 0 => .stored
  | 8 => .deflate
  | method => .unsupported method

/-- Reads an entry of the central directory; directories are none. -/
def entry : Decoder (Option ContainerEntry) := do
  if (← Decoder.unsigned 4) ≠ centralHeaderSignature then
    Decoder.malformed (.centralHeader ((← Decoder.position) - 4))
  Decoder.advance 6
  let method ← Decoder.unsigned 2
  Decoder.advance 8
  let compressedLength ← Decoder.unsigned 4
  let length ← Decoder.unsigned 4
  let nameLength ← Decoder.unsigned 2
  let extraLength ← Decoder.unsigned 2
  let commentLength ← Decoder.unsigned 2
  Decoder.advance 8
  let offset ← Decoder.unsigned 4
  let path := ContainerEntry.slashed (Utf8.decodeLossy (← Decoder.take nameLength))
  let extra ← Decoder.take extraLength
  Decoder.advance commentLength
  let extent ←
    match (applyExtra { length, compressedLength, offset } extra.size).parse extra with
    | .ok extent => pure extent
    | .error error => throw error
  if path.endsWith "/" then return none
  return some {
    name := Path.lastSegment path
    path
    length := some extent.length
    compressedLength := extent.compressedLength
    offset := extent.offset
    compression := compressionOf method
    kind := .ofName path }

/-- The entries of an archive, in the order of its central directory. -/
def entries (data : Bytes) : Except Error (List ContainerEntry) := do
  let endRecord ← findEndRecord data
  let directory ← (directory endRecord).parse data
  let reader : Decoder (List (Option ContainerEntry)) := do
    Decoder.seek directory.offset
    Decoder.repeated entry directory.count
  return (← reader.parse data).filterMap id

def decompress (compression : Compression) (raw : Bytes) : Except Error Bytes :=
  match compression with
  | .stored => .ok raw
  | .deflate =>
      match Deflate.inflate? raw with
      | some bytes => .ok bytes
      | none => .error (.file "corrupt deflate stream")
  | .unsupported _ => .error .notSupported

/-- The bytes of an entry as they are stored behind its local header. -/
def rawBytes (entry : ContainerEntry) : Decoder Bytes := do
  Decoder.seek entry.offset
  if (← Decoder.unsigned 4) ≠ localHeaderSignature then
    Decoder.malformed (.localHeader entry.path)
  Decoder.advance 22
  let nameLength ← Decoder.unsigned 2
  let extraLength ← Decoder.unsigned 2
  Decoder.advance (nameLength + extraLength)
  Decoder.take entry.compressedLength

def extract (data : Bytes) (entry : ContainerEntry) : Except Error Bytes := do
  decompress entry.compression (← (rawBytes entry).parse data)

end AssemblyBrowser.Zip
