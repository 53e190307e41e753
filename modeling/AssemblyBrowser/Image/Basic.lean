import AssemblyBrowser.Bytes.Decoder

/-!
# Executable images

A module is stored in an executable image. The image's sections say where the
parts of the file appear in memory; addresses of the second kind (RVAs) are
converted to file offsets through them. One entry of the data directory points
at the runtime header.
-/

namespace AssemblyBrowser

/-- A part of an image. -/
structure Section where
  virtualAddress : UInt32
  virtualSize : UInt32
  rawPointer : UInt32
  rawSize : UInt32
  deriving DecidableEq

/-- An entry of the data directory. -/
structure DirectoryEntry where
  rva : UInt32
  size : UInt32
  deriving DecidableEq

/-- An image that may hold a module. -/
structure Image where
  data : Bytes
  sections : List Section
  /-- Where the runtime header is. -/
  runtimeHeader : DirectoryEntry

namespace Image

def slice (image : Image) (offset length : Nat) : Except Error Bytes :=
  Bounded.slice image.data offset length

/-- The offset of an address by the first of the sections that spans it. -/
def offsetIn (rva : Nat) : List Section → Except Error Nat
  | [] => .error (.malformed (.rvaOutsideSections rva))
  | s :: rest =>
      let first := s.virtualAddress.toNat
      let stop := first + s.virtualSize.toNat
      if UInt32.size ≤ stop then
        .error (.malformed (.sectionOverflow first s.virtualSize.toNat))
      else if first ≤ rva ∧ rva < stop then do
        Bounded.add Bounded.positions (← Bounded.subtract rva first) s.rawPointer.toNat
      else offsetIn rva rest

def rvaToOffset (image : Image) (rva : Nat) : Except Error Nat :=
  if UInt32.size ≤ rva then .error (.malformed (.rvaTooLarge rva)) else offsetIn rva image.sections

end Image
end AssemblyBrowser

/-!
## Headers

The file header, the optional header with its data directory, and the section table are read. When
the directory points at a runtime header, that header and the head of the metadata behind it must be
readable too; this check rounds the extent of a section to pages.
-/

namespace AssemblyBrowser
namespace ImageHeader

/-- The parts of the headers that matter. -/
structure Header where
  hasOptionalHeader : Bool
  fileAlignment : Nat
  runtimeHeader : Option DirectoryEntry
  sections : List Section

/-- The number of entries that a data directory has at most. -/
def maxDirectories : Nat := 16

/-- The entry of the data directory for the runtime header. -/
def runtimeHeaderIndex : Nat := 14

def sectionEntrySize : Nat := 40

def directoryEntry : Decoder DirectoryEntry := do
  let rva ← Decoder.word
  let size ← Decoder.word
  return { rva, size }

def sectionEntry : Decoder Section := do
  Decoder.advance 8
  let virtualSize ← Decoder.word
  let virtualAddress ← Decoder.word
  let rawSize ← Decoder.word
  let rawPointer ← Decoder.word
  Decoder.advance 16
  return { virtualAddress, virtualSize, rawPointer, rawSize }

/-- Reads the optional header: the file alignment and the data directory. -/
def optionalHeader : Decoder (Nat × List DirectoryEntry) := do
  let magic ← Decoder.unsigned 2
  Decoder.advance 34
  let fileAlignment ← Decoder.unsigned 4
  if magic = 0x10B then Decoder.advance 52
  else if magic = 0x20B then Decoder.advance 68
  else throw .invalidImage
  let count ← Decoder.unsigned 4
  if maxDirectories < count then throw .invalidImage
  let entries ← Decoder.repeated directoryEntry count
  return (fileAlignment, entries)

def header : Decoder Header := do
  if (← Decoder.unsigned 2) ≠ 0x5A4D then throw .invalidImage
  Decoder.seek 0x3C
  let start ← Decoder.unsigned 4
  Decoder.seek start
  if (← Decoder.unsigned 4) ≠ 0x4550 then throw .invalidImage
  Decoder.advance 2
  let sectionCount ← Decoder.unsigned 2
  Decoder.advance 12
  let optionalSize ← Decoder.unsigned 2
  Decoder.advance 2
  let optionalStart ← Decoder.position
  let (fileAlignment, directory) ←
    if optionalSize = 0 then pure (0, []) else optionalHeader
  Decoder.seek (optionalStart + optionalSize)
  let cursor ← get
  if cursor.data.size / sectionEntrySize < sectionCount then throw .invalidImage
  let sections ← Decoder.repeated sectionEntry sectionCount
  return {
    hasOptionalHeader := optionalSize != 0
    fileAlignment, sections
    runtimeHeader := directory[runtimeHeaderIndex]?.filter fun e => e.rva != 0 || e.size != 0 }

/-- A number rounded up to a multiple of a power of two. -/
def roundUp (n alignment : Nat) : Nat := (n + alignment - 1) / alignment * alignment

/-- Where the mapping of a section begins in the file: the last nine bits do not count. -/
def alignedPointer (s : Section) : Nat := s.rawPointer.toNat / 0x200 * 0x200

/-- The number of bytes that a section takes in memory. -/
def extent (fileAlignment : Nat) (s : Section) : Nat :=
  let stop := s.rawPointer.toNat + s.rawSize.toNat
  let raw := min (roundUp stop fileAlignment - alignedPointer s) (roundUp s.rawSize.toNat 0x1000)
  if s.virtualSize = 0 then raw else min raw (roundUp s.virtualSize.toNat 0x1000)

def isPowerOfTwo (n : Nat) : Bool := n != 0 && n == Nat.pow 2 n.log2

/-- The file offset of an address, with page-rounded sections. -/
def pageOffset? (header : Header) (rva : Nat) : Option Nat := do
  guard (isPowerOfTwo header.fileAlignment)
  let s ← header.sections.find? fun s =>
    s.virtualAddress.toNat ≤ rva &&
      rva < s.virtualAddress.toNat + extent header.fileAlignment s
  return rva - s.virtualAddress.toNat + s.rawPointer.toNat

/-- Checks that the runtime header and the head of the metadata can be read. -/
def checkRuntimeHeader (header : Header) (entry : DirectoryEntry) : Decoder Unit := do
  let some headerOffset := pageOffset? header entry.rva.toNat | throw .invalidImage
  Decoder.seek headerOffset
  Decoder.advance 8
  let metadata ← directoryEntry
  Decoder.advance 56
  let some offset := pageOffset? header metadata.rva.toNat | throw .invalidImage
  let cursor ← get
  if cursor.data.size < offset + metadata.size.toNat then throw .invalidImage
  Decoder.seek offset
  Decoder.advance 12
  let version ← Decoder.take (← Decoder.unsigned 4)
  match Utf8.decode version with
  | .ok _ => Decoder.advance 4
  | .error _ => throw .invalidImage

/-- Reads the headers and checks what they point at. -/
def decoder : Decoder Header := do
  let header ← header
  match header.runtimeHeader with
  | some entry =>
      checkRuntimeHeader header entry
      return header
  | none => return header

end ImageHeader

namespace Image

def decode (data : Bytes) : Except Error Image :=
  if data.isEmpty then .error .empty
  else
    match ImageHeader.decoder.parse data with
    | .error _ => .error .invalidImage
    | .ok header =>
        if !header.hasOptionalHeader then .error (.malformed .noOptionalHeader)
        else
          match header.runtimeHeader with
          | none => .error (.malformed .noRuntimeHeaderDirectory)
          | some runtimeHeader => .ok { data, sections := header.sections, runtimeHeader }

end Image
end AssemblyBrowser
