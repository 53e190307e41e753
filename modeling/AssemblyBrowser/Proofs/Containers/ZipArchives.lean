import Mathlib.Algebra.Ring.Nat
import AssemblyBrowser.Proofs.Containers.PackedFiles
import AssemblyBrowser.Proofs.Containers.ZipRecords

/-!
# Zip archives are read back

A writer puts a record with the contents of each file one after another, behind
them a central directory that says where these records begin, and at the end a
record that says where the directory is. The end of the archive is searched
first, so nothing that stands in the files can be taken for its end record. A
name that ends in a slash is that of a directory and is not listed; so is one
that ends in a backslash.
-/

namespace AssemblyBrowser
namespace Zip

open Bytes (ofLittleEndian)
open PackedFile (deflateLetters)

variable (deflate : Bytes → Bytes)

/-!
## How archives are written
-/

/-- The number that stands for how a file is compressed. -/
def methodOf (file : PackedFile) : Nat := if file.deflated then 8 else 0

/-- What stands between the signature of a file's own header and the length of its name. -/
def localHead (file : PackedFile) : List UInt8 :=
  ofLittleEndian 2 20 ++ ofLittleEndian 2 0 ++ ofLittleEndian 2 (methodOf file) ++
    List.replicate 8 0 ++ ofLittleEndian 4 (file.stored deflate).size ++
    ofLittleEndian 4 file.contents.size

/-- A file's own header, with its contents behind it. -/
def localRecord (file : PackedFile) : List UInt8 :=
  ofLittleEndian 4 localHeaderSignature ++ localHead deflate file ++
    ofLittleEndian 2 file.nameBytes.length ++ ofLittleEndian 2 0 ++ file.nameBytes ++
    (file.stored deflate).toList

/-- The versions and flags between the signature of a central header and the method. -/
def centralHead : List UInt8 := ofLittleEndian 2 20 ++ ofLittleEndian 2 20 ++ ofLittleEndian 2 0

/-- The header of a file in the central directory; its own header begins at the offset. -/
def centralRecord (file : PackedFile) (offset : Nat) : List UInt8 :=
  ofLittleEndian 4 centralHeaderSignature ++ centralHead ++
    ofLittleEndian 2 (methodOf file) ++ List.replicate 8 0 ++
    ofLittleEndian 4 (file.stored deflate).size ++ ofLittleEndian 4 file.contents.size ++
    ofLittleEndian 2 file.nameBytes.length ++ ofLittleEndian 2 0 ++ ofLittleEndian 2 0 ++
    List.replicate 8 0 ++ ofLittleEndian 4 offset ++ file.nameBytes

/-- The files, each with where its record begins. -/
def placed (files : List PackedFile) : List (PackedFile × Nat) :=
  withOffsets (localRecord deflate) 0 files

def localRecords (files : List PackedFile) : List UInt8 := files.flatMap (localRecord deflate)

def centralRecords (files : List PackedFile) : List UInt8 :=
  (placed deflate files).flatMap fun (file, offset) => centralRecord deflate file offset

/-- The record at the end of an archive, without a comment. -/
def endRecord (count size offset : Nat) : List UInt8 :=
  ofLittleEndian 4 endSignature ++ List.replicate 4 0 ++ ofLittleEndian 2 count ++
    ofLittleEndian 2 count ++ ofLittleEndian 4 size ++ ofLittleEndian 4 offset ++
    ofLittleEndian 2 0

def archive (files : List PackedFile) : List UInt8 :=
  localRecords deflate files ++ centralRecords deflate files ++
    endRecord files.length (centralRecords deflate files).length (localRecords deflate files).length

/-- The numbers of an archive have room in its records, and no wider ones are asked for. -/
structure Fits (files : List PackedFile) : Prop where
  count : files.length < 65535
  names : ∀ file ∈ files, file.nameBytes.length < 65536
  contents : ∀ file ∈ files, file.contents.size < 2 ^ 32
  size : (archive deflate files).length < 2 ^ 32 - 1

/-- A name that ends in a slash, or in a backslash, is that of a directory. -/
def isDirectory (file : PackedFile) : Bool := (ContainerEntry.slashed file.path).endsWith "/"

/-!
## Records
-/

variable {deflate} {files : List PackedFile}

theorem localHead_length (file : PackedFile) : (localHead deflate file).length = 22 := by
  simp only [localHead, List.length_append, Bytes.ofLittleEndian_length, List.length_replicate]

theorem endRecord_eq (count size offset : Nat) :
    endRecord count size offset = commentedEndRecord count size offset [] := by
  rw [endRecord, commentedEndRecord, List.append_nil, List.length_nil]

/-!
## The central directory
-/

variable (deflate) in
/-- What is listed for a file: nothing for a directory. -/
def listed (file : PackedFile) (offset : Nat) : Option ContainerEntry :=
  if isDirectory file then none
  else some (file.entryAt deflate offset (.ofName (ContainerEntry.slashed file.path)))

theorem compressionOf_methodOf (file : PackedFile) :
    compressionOf (methodOf file) = file.compression := by
  unfold methodOf PackedFile.compression
  cases file.deflated with
  | false => rfl
  | true => rfl

theorem methodOf_lt (file : PackedFile) : methodOf file < Nat.pow 256 2 := by
  unfold methodOf
  split <;> decide

variable (deflate) in
/-- The parts of the header of a file. -/
def centralHeader (file : PackedFile) (offset : Nat) : CentralHeader where
  versions := centralHead
  method := methodOf file
  stamp := List.replicate 8 0
  compressedLength := (file.stored deflate).size
  length := file.contents.size
  attributes := List.replicate 8 0
  offset := offset
  name := file.nameBytes
  extra := []
  remark := []

theorem bytes_centralHeader (file : PackedFile) (offset : Nat) :
    (centralHeader deflate file offset).bytes = centralRecord deflate file offset := by
  unfold CentralHeader.bytes centralHeader centralRecord
  simp only [List.length_nil, List.append_nil]

theorem listed_centralHeader (file : PackedFile) (offset : Nat) :
    (centralHeader deflate file offset).listed = listed deflate file offset := by
  have hpath : (centralHeader deflate file offset).path = ContainerEntry.slashed file.path :=
    congrArg ContainerEntry.slashed file.decodeLossy_nameBytes
  unfold CentralHeader.listed listed isDirectory
  rw [hpath]
  simp only [centralHeader, compressionOf_methodOf]
  rfl

theorem reads_entry (file : PackedFile) {offset : Nat} (hname : file.nameBytes.length < 65536)
    (hcontents : file.contents.size < 2 ^ 32) (hstored : (file.stored deflate).size < 2 ^ 32)
    (hoffset : offset < 2 ^ 32) :
    Decoder.Reads entry (centralRecord deflate file offset) (listed deflate file offset) := by
  have hfits : (centralHeader deflate file offset).Fits :=
    { versions := rfl
      method := methodOf_lt file
      stamp := List.length_replicate
      compressedLength := hstored
      length := hcontents
      attributes := List.length_replicate
      offset := hoffset
      name := hname
      extra := Nat.zero_lt_succ _
      remark := Nat.zero_lt_succ _
      plain := .inl rfl }
  rw [← bytes_centralHeader, ← listed_centralHeader]
  exact hfits.reads

/-!
## Stored contents
-/

theorem extract_record {before after : List UInt8} {file : PackedFile} {kind : EntryKind}
    {entry : ContainerEntry} (hentry : file.ShowsAs deflate before.length kind entry)
    (hname : file.nameBytes.length < 65536) (hrestored : file.IsRestored deflate) :
    extract (before ++ localRecord deflate file ++ after).toArray entry = .ok file.contents := by
  have hreads : Decoder.Reads
      (do
        if (← Decoder.unsigned 4) ≠ localHeaderSignature then
          Decoder.malformed (.localHeader entry.path)
        Decoder.advance 22
        let nameLength ← Decoder.unsigned 2
        let extraLength ← Decoder.unsigned 2
        Decoder.advance (nameLength + extraLength)
        Decoder.take entry.compressedLength)
      (localRecord deflate file) (file.stored deflate) := by
    unfold localRecord
    simp only [List.append_assoc]
    refine Decoder.reads_bind (Decoder.reads_unsigned (by decide)) ?_
    rw [if_neg (by simp)]
    refine Decoder.reads_bind (Decoder.reads_advance_of_length (localHead_length file)) ?_
    refine Decoder.reads_bind (Decoder.reads_unsigned hname) ?_
    refine Decoder.reads_bind (Decoder.reads_unsigned (by decide)) ?_
    refine Decoder.reads_bind (Decoder.reads_advance file.nameBytes) ?_
    exact Decoder.reads_take_of_length hentry.compressedLength.symm
  have hraw := Decoder.parse_seek before after hentry.offset hreads
  unfold extract rawBytes
  rw [hraw, hentry.compression]
  exact PackedFile.decompress_stored hrestored

/-!
## Archives
-/

theorem stored_size_le (file : PackedFile) :
    (file.stored deflate).size ≤ (localRecord deflate file).length := by
  simp only [localRecord, List.length_append, Array.length_toList]
  omega

/-- What a file and its record take has room in the archive that fits. -/
theorem Fits.of_mem_placed (hfits : Fits deflate files) {file : PackedFile} {offset : Nat}
    (h : (file, offset) ∈ placed deflate files) :
    offset < 2 ^ 32 ∧ (file.stored deflate).size < 2 ^ 32 := by
  rcases record_of_mem_withOffsets h with ⟨before, after, hrecords, hoffset⟩
  have hsize := hfits.size
  have hstored : (file.stored deflate).size ≤ (localRecord deflate file).length :=
    stored_size_le file
  simp only [archive, localRecords, hrecords, List.length_append] at hsize
  omega

theorem reads_centralRecords (hfits : Fits deflate files) :
    Decoder.Reads (Decoder.repeated entry files.length) (centralRecords deflate files)
      ((placed deflate files).map fun (file, offset) => listed deflate file offset) := by
  have hforms : List.Forall₂ (fun value bytes => Decoder.Reads entry bytes value)
      ((placed deflate files).map fun (file, offset) => listed deflate file offset)
      ((placed deflate files).map fun (file, offset) => centralRecord deflate file offset) := by
    rw [List.forall₂_map_left_iff, List.forall₂_map_right_iff, List.forall₂_same]
    rintro ⟨file, offset⟩ hmem
    have hfile := mem_of_mem_withOffsets hmem
    obtain ⟨hoffset, hstored⟩ := hfits.of_mem_placed hmem
    exact reads_entry file (hfits.names file hfile) (hfits.contents file hfile) hstored hoffset
  have hrepeated := Decoder.reads_repeated hforms fun _ _ _ h => h
  rwa [List.length_map, placed, length_withOffsets, ← List.flatMap_def] at hrepeated

theorem entries_archive (hfits : Fits deflate files) :
    entries (archive deflate files).toArray =
      .ok ((placed deflate files).filterMap fun (file, offset) => listed deflate file offset) := by
  have hlocals : (localRecords deflate files).length < 2 ^ 32 - 1 := by
    have hsize := hfits.size
    simp only [archive, List.length_append] at hsize
    omega
  have hend : findEndRecord (archive deflate files).toArray =
      .ok (localRecords deflate files ++ centralRecords deflate files).length := by
    rw [archive, endRecord_eq]
    exact findEndRecord_append _
  have hdirectory : (directory
        (localRecords deflate files ++ centralRecords deflate files).length).parse
        (archive deflate files).toArray =
      .ok { count := files.length, offset := (localRecords deflate files).length } := by
    rw [archive, endRecord_eq]
    exact parse_directory _ [] hfits.count hlocals
  have hfound := entriesBy_eq hdirectory
    (Decoder.parse_seek _ _ rfl (reads_centralRecords hfits))
  rw [entries_of_findEndRecord hend]
  rwa [List.filterMap_map, Function.id_comp] at hfound

/-- The entries that are listed are those of the files that are no directories. -/
theorem forall₂_listed {numbered : List (PackedFile × Nat)}
    {shows : PackedFile × Nat → ContainerEntry → Prop}
    (h : ∀ file offset, (file, offset) ∈ numbered →
      shows (file, offset)
        (file.entryAt deflate offset (.ofName (ContainerEntry.slashed file.path)))) :
    List.Forall₂ shows (numbered.filter fun (file, _) => !isDirectory file)
      (numbered.filterMap fun (file, offset) => listed deflate file offset) := by
  induction numbered with
  | nil => exact .nil
  | cons first rest ih =>
      rcases first with ⟨file, offset⟩
      have hrest := ih fun file offset hmem => h file offset (List.mem_cons_of_mem _ hmem)
      have hfirst := h file offset List.mem_cons_self
      cases hdirectory : isDirectory file with
      | true => simpa [listed, hdirectory] using hrest
      | false => simpa [listed, hdirectory] using ⟨hfirst, hrest⟩

/-- An archive lists its files in order, directories left out, and gives their contents again. A
name that ends in a backslash is taken for that of a directory too. -/
theorem written_archives_read_back (deflate : Bytes → Bytes) (files : List PackedFile)
    (hfits : Fits deflate files) (hrestored : ∀ file ∈ files, file.IsRestored deflate) :
    ∃ found, entries (archive deflate files).toArray = .ok found ∧
      List.Forall₂
        (fun (file, offset) entry =>
          file.ShowsAs deflate offset (.ofName entry.path) entry ∧
            extract (archive deflate files).toArray entry = .ok file.contents)
        ((placed deflate files).filter fun (file, _) => !isDirectory file) found := by
  refine ⟨_, entries_archive hfits, forall₂_listed ?_⟩
  intro file offset hmem
  have hfile := mem_of_mem_withOffsets hmem
  refine ⟨file.showsAs_entryAt offset _, ?_⟩
  rcases record_of_mem_withOffsets hmem with ⟨before, after, hrecords, hoffset⟩
  rw [Nat.zero_add] at hoffset
  rw [archive, localRecords, hrecords, hoffset, List.append_assoc, List.append_assoc]
  exact extract_record (file.showsAs_entryAt before.length _) (hfits.names file hfile)
    (hrestored file hfile)

/-- A directory, a stored file and a compressed one. -/
def sampleFiles : List PackedFile :=
  [⟨"lib/", #[], false⟩, ⟨"lib/Plain.txt", #[0x70, 0x6C], false⟩,
    ⟨"content\\Packed.DLL", Array.replicate 12 0x61, true⟩]

theorem written_archives_read_back_sample :
    Fits deflateLetters sampleFiles ∧
      (∀ file ∈ sampleFiles, file.IsRestored deflateLetters) ∧
      ∃ found, entries (archive deflateLetters sampleFiles).toArray = .ok found ∧
        List.Forall₂
          (fun (file, offset) entry =>
            file.ShowsAs deflateLetters offset (.ofName entry.path) entry ∧
              extract (archive deflateLetters sampleFiles).toArray entry = .ok file.contents)
          ((placed deflateLetters sampleFiles).filter fun (file, _) => !isDirectory file)
          found := by
  have hfits : Fits deflateLetters sampleFiles := by constructor <;> decide +kernel
  have hrestored : ∀ file ∈ sampleFiles, file.IsRestored deflateLetters := by
    unfold PackedFile.IsRestored
    decide +kernel
  exact ⟨hfits, hrestored, written_archives_read_back deflateLetters sampleFiles hfits hrestored⟩

/-- A file whose name ends in a backslash, and in no slash, is not listed. -/
theorem backslash_name_not_listed :
    Fits id [⟨"a\\", #[], false⟩] ∧ (PackedFile.mk "a\\" #[] false).IsRestored id ∧
      "a\\".endsWith "/" = false ∧ entries (archive id [⟨"a\\", #[], false⟩]).toArray = .ok [] := by
  have hfits : Fits id [⟨"a\\", #[], false⟩] := by constructor <;> decide +kernel
  have hdirectory : isDirectory ⟨"a\\", #[], false⟩ = true := by decide +kernel
  refine ⟨hfits, fun hdeflated => absurd hdeflated Bool.false_ne_true, by decide +kernel, ?_⟩
  rw [entries_archive hfits]
  simp only [placed, withOffsets, List.filterMap_cons, listed, hdirectory, if_true,
    List.filterMap_nil]

end Zip
end AssemblyBrowser
