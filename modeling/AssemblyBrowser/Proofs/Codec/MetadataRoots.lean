import Mathlib.Algebra.Ring.Nat
import AssemblyBrowser.Metadata.Root
import AssemblyBrowser.Metadata.RuntimeHeader
import AssemblyBrowser.Proofs.Codec.StreamDirectories

/-!
# Metadata roots are read back

A writer of metadata puts a list of its streams in front of the streams. Each
header of the list starts at a multiple of four, so that a name is followed by
zero bytes up to the next one. A stream is found by its name, and what is found
is what was put there.
-/

namespace AssemblyBrowser

open Bytes (ofLittleEndian)

/-- A stream of metadata. -/
structure NamedStream where
  name : String
  data : List UInt8

namespace MetadataRoot

open Decoder

/-- The version of the runtime that a writer names. -/
def writtenVersion : String := "v4.0.30319"

def versionBytes : List UInt8 := padded 4 ((Utf8.encode writtenVersion).toList ++ [0])

/-- The header of a stream that begins at an offset. -/
def streamHeader (placed : NamedStream × Nat) : StreamHeader where
  offset := placed.2
  size := placed.1.data.length
  name := placed.1.name

def streamHeaderBytes (placed : NamedStream × Nat) : List UInt8 :=
  ofLittleEndian 4 placed.2 ++ ofLittleEndian 4 placed.1.data.length ++
    padded 4 ((Utf8.encode placed.1.name).toList ++ [0])

/-- The number of bytes of the headers of all streams. -/
def directoryLength (streams : List NamedStream) : Nat :=
  (streams.map fun stream => (streamHeaderBytes (stream, 0)).length).sum

/-- The streams with their offsets. -/
def placed (streams : List NamedStream) : List (NamedStream × Nat) :=
  withOffsets NamedStream.data (20 + versionBytes.length + directoryLength streams) streams

/-- What stands in front of the headers of the streams. -/
def headBytes (count : Nat) : List UInt8 :=
  ofLittleEndian 4 signature ++ ofLittleEndian 2 1 ++ ofLittleEndian 2 1 ++ ofLittleEndian 4 0 ++
    ofLittleEndian 4 versionBytes.length ++ versionBytes ++ ofLittleEndian 2 0 ++
    ofLittleEndian 2 count

def bytes (streams : List NamedStream) : List UInt8 :=
  headBytes streams.length ++ (placed streams).flatMap streamHeaderBytes ++
    streams.flatMap NamedStream.data

/-- The streams can be written: there are some, but not too many, their names end where they end,
and all of them have room in the metadata. -/
structure Fits (streams : List NamedStream) : Prop where
  ne_nil : streams ≠ []
  count_lt : streams.length < 2 ^ 16
  plain : ∀ stream ∈ streams, '\x00' ∉ stream.name.toList
  length_lt : (bytes streams).length < 2 ^ 32

/-!
## Places of streams
-/

theorem streamHeaderBytes_length (stream : NamedStream) (offset : Nat) :
    (streamHeaderBytes (stream, offset)).length = (streamHeaderBytes (stream, 0)).length := by
  simp only [streamHeaderBytes, List.length_append, Bytes.ofLittleEndian_length]

theorem headBytes_length (count : Nat) : (headBytes count).length = 20 + versionBytes.length := by
  simp only [headBytes, List.length_append, Bytes.ofLittleEndian_length]
  omega

theorem directory_length (streams : List NamedStream) :
    ((placed streams).flatMap streamHeaderBytes).length = directoryLength streams := by
  have hlengths : (placed streams).map (fun placed => (streamHeaderBytes placed).length) =
      ((placed streams).map Prod.fst).map fun stream => (streamHeaderBytes (stream, 0)).length := by
    rw [List.map_map]
    exact List.map_congr_left fun placed _ => streamHeaderBytes_length placed.1 placed.2
  rw [List.length_flatMap, hlengths, placed, map_fst_withOffsets, directoryLength]

/-- A stream stands at its offset. -/
theorem bytes_split {streams : List NamedStream} {stream : NamedStream} {offset : Nat}
    (h : (stream, offset) ∈ placed streams) :
    ∃ before after, bytes streams = before ++ stream.data ++ after ∧ before.length = offset := by
  obtain ⟨before, after, hdata, hoffset⟩ := record_of_mem_withOffsets h
  refine ⟨headBytes streams.length ++ (placed streams).flatMap streamHeaderBytes ++ before, after,
    ?_, ?_⟩
  · rw [bytes, hdata]
    simp only [List.append_assoc]
  · rw [hoffset, List.length_append, List.length_append, headBytes_length, directory_length]

/-!
## Whole roots
-/

/-- What the root says whose headers stand in front of the streams. -/
def rootDraft (streams : List NamedStream) : RootDraft where
  majorVersion := 1
  minorVersion := 1
  reserved := 0
  version := writtenVersion
  versionZeros := 1
  flags := 0
  streams := (placed streams).map streamHeader
  rest := streams.flatMap NamedStream.data

theorem bytes_rootDraft (streams : List NamedStream) :
    (rootDraft streams).bytes = bytes streams := by
  have hheaders : ((placed streams).map streamHeader).flatMap StreamHeader.bytes =
      (placed streams).flatMap streamHeaderBytes := List.flatMap_map _ _ _
  have hcount : ((placed streams).map streamHeader).length = streams.length := by
    rw [List.length_map, placed, length_withOffsets]
  have hversion : (rootDraft streams).versionBytes = versionBytes := rfl
  unfold RootDraft.bytes RootDraft.headBytes bytes headBytes
  rw [hversion]
  unfold rootDraft
  dsimp only
  rw [hheaders, hcount]
  rfl

theorem within_of_mem_placed {streams : List NamedStream} (hfits : Fits streams)
    {place : NamedStream × Nat} (h : place ∈ placed streams) :
    (streamHeader place).Within (bytes streams).length := by
  obtain ⟨before, after, hbytes, hoffset⟩ := bytes_split h
  have hlength := hfits.length_lt
  refine StreamHeader.within_of_le ?_ hlength
  rw [hbytes, List.length_append, List.length_append, hoffset]
  simp only [streamHeader]
  omega

theorem fits_rootDraft {streams : List NamedStream} (hfits : Fits streams) :
    (rootDraft streams).Fits where
  ne_nil := by
    have hsome := List.length_pos_iff.mpr hfits.ne_nil
    refine List.length_pos_iff.mp ?_
    rwa [rootDraft, List.length_map, placed, length_withOffsets]
  count_lt := by
    rw [rootDraft, List.length_map, placed, length_withOffsets]
    exact hfits.count_lt
  version_lt := by
    show versionBytes.length < 2 ^ 32
    decide +kernel
  plain := by
    intro header hheader
    obtain ⟨place, hplace, rfl⟩ := List.mem_map.mp hheader
    exact hfits.plain place.1 (mem_of_mem_withOffsets hplace)
  within := by
    intro header hheader
    obtain ⟨place, hplace, rfl⟩ := List.mem_map.mp hheader
    rw [bytes_rootDraft]
    exact within_of_mem_placed hfits hplace
  room := by
    rw [bytes_rootDraft]
    exact Nat.lt_trans hfits.length_lt (by decide)

theorem decode_bytes {streams : List NamedStream} (hfits : Fits streams) :
    ∃ root, decode (bytes streams).toArray = .ok root ∧ root.version = writtenVersion ∧
      root.streams = (placed streams).map streamHeader := by
  have hdecode := RootDraft.decode_bytes (fits_rootDraft hfits)
  rw [bytes_rootDraft] at hdecode
  have hversion : trimPadding writtenVersion = writtenVersion := by decide +kernel
  exact ⟨_, hdecode, hversion, rfl⟩

/-- A stream is found by its name, as it was written. -/
theorem stream?_bytes {streams : List NamedStream} (hfits : Fits streams) {root : MetadataRoot}
    (hroot : root.streams = (placed streams).map streamHeader) (name : String) :
    root.stream? (bytes streams).toArray name =
      .ok ((streams.find? (·.name == name)).map fun stream => stream.data.toArray) := by
  have hwithin : ∀ header ∈ root.streams, header.Within (bytes streams).toArray.size := by
    intro header hheader
    rw [hroot] at hheader
    obtain ⟨place, hplace, rfl⟩ := List.mem_map.mp hheader
    exact within_of_mem_placed hfits hplace
  have hfind : root.streams.find? (·.name == name) =
      ((placed streams).find? (·.1.name == name)).map streamHeader := by
    rw [hroot, List.find?_map]
    rfl
  have hsame : streams.find? (·.name == name) =
      ((placed streams).find? (·.1.name == name)).map Prod.fst := by
    have hitems : (placed streams).map Prod.fst = streams := map_fst_withOffsets
    have hmap : ((placed streams).map Prod.fst).find? (·.name == name) =
        ((placed streams).find? (·.1.name == name)).map Prod.fst := List.find?_map
    rwa [hitems] at hmap
  rw [stream?_eq hwithin, hfind, hsame]
  cases hfound : (placed streams).find? (·.1.name == name) with
  | none => rfl
  | some found =>
      obtain ⟨stream, offset⟩ := found
      obtain ⟨before, after, hbytes, rfl⟩ := bytes_split (List.mem_of_find?_eq_some hfound)
      simp only [Option.map_some, StreamHeader.cut, streamHeader]
      rw [hbytes, Bytes.extract_middle]

end MetadataRoot

/-!
## Runtime headers
-/

namespace RuntimeHeader

open Decoder

/-- The header of a module that consists of intermediate code only. What it says about resources
and native code is zero. -/
def bytes (metadataRva metadataSize entryPoint : Nat) : List UInt8 :=
  ofLittleEndian 4 length ++ ofLittleEndian 2 2 ++ ofLittleEndian 2 5 ++
    ofLittleEndian 4 metadataRva ++ ofLittleEndian 4 metadataSize ++ ofLittleEndian 4 1 ++
    ofLittleEndian 4 entryPoint ++ List.replicate 48 0

theorem bytes_length (metadataRva metadataSize entryPoint : Nat) :
    (bytes metadataRva metadataSize entryPoint).length = length := by
  simp only [bytes, List.length_append, Bytes.ofLittleEndian_length, List.length_replicate]
  rfl

/-- The header says where the metadata is and where a program starts. -/
theorem decode_bytes {metadataRva metadataSize entryPoint : Nat}
    (hrva : 0 < metadataRva ∧ metadataRva < 2 ^ 32)
    (hsize : 0 < metadataSize ∧ metadataSize < 2 ^ 32) (hentry : entryPoint < 2 ^ 32) :
    decode (bytes metadataRva metadataSize entryPoint).toArray =
      .ok {
        size := length
        majorVersion := 2
        minorVersion := 5
        metadataRva, metadataSize, entryPoint
        flags := 1
        resourcesRva := 0
        resourcesSize := 0 } := by
  have hpresent : ¬ (metadataRva = 0 ∨ metadataSize = 0) := by omega
  have hzeros : List.replicate 48 (0 : UInt8) =
      ofLittleEndian 4 0 ++ ofLittleEndian 4 0 ++ List.replicate 40 0 := by decide
  have hread : Reads decoder (ofLittleEndian 4 length ++ (ofLittleEndian 2 2 ++
      (ofLittleEndian 2 5 ++ (ofLittleEndian 4 metadataRva ++ (ofLittleEndian 4 metadataSize ++
        (ofLittleEndian 4 1 ++ (ofLittleEndian 4 entryPoint ++ (ofLittleEndian 4 0 ++
          ofLittleEndian 4 0))))))))
      ⟨length, 2, 5, metadataRva, metadataSize, 1, entryPoint, 0, 0⟩ := by
    refine reads_bind (reads_unsigned (by decide)) ?_
    rw [if_neg (Nat.lt_irrefl length)]
    refine reads_bind (reads_unsigned (by decide)) (reads_bind (reads_unsigned (by decide))
      (reads_bind (reads_unsigned hrva.2) (reads_bind (reads_unsigned hsize.2) ?_)))
    rw [if_neg hpresent]
    exact reads_bind (reads_unsigned (by decide)) (reads_bind (reads_unsigned hentry)
      (reads_bind (reads_unsigned (by decide)) (reads_map _ (reads_unsigned (by decide)))))
  have hparse := parse_of_reads hread (List.replicate 40 0)
  unfold decode
  rw [if_neg (by rw [List.size_toArray, bytes_length]; exact Nat.lt_irrefl _), ← hparse, bytes,
    hzeros]
  simp only [List.append_assoc]

end RuntimeHeader
end AssemblyBrowser
