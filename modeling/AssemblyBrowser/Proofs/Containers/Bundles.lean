import AssemblyBrowser.Container.Bundle
import AssemblyBrowser.Proofs.Codec.Heaps
import AssemblyBrowser.Proofs.Containers.PackedFiles

/-!
# Bundles are read back

A writer puts the offset of the manifest and the signature behind an executable,
then the files one after another, and the manifest last. The first place where
the signature stands is the one that was written, if it does not stand in the
executable and the offset already: it cannot begin there and end in itself, since
its first byte occurs in it only once.
-/

namespace AssemblyBrowser

/-- A file of a bundle with the mark of its type. -/
structure MarkedFile extends PackedFile where
  mark : UInt8

/-- What a writer makes a bundle of. -/
structure BundleDraft where
  /-- The executable up to the offset of the manifest. -/
  host : List UInt8
  majorVersion : Nat
  minorVersion : Nat
  id : String
  /-- Where files stand that the host reads by itself; nothing is made of it here. -/
  locations : List UInt8
  flags : Nat
  files : List MarkedFile

namespace BundleDraft

open Bytes (ofLittleEndian)
open PackedFile (deflateLetters)
open TextField (encodeSevenBitPrefixed)

variable (deflate : Bytes → Bytes) (draft : BundleDraft)

/-!
## How bundles are written
-/

def storedBytes (file : MarkedFile) : List UInt8 := (file.stored deflate).toList

def fileData : List UInt8 := draft.files.flatMap (storedBytes deflate)

/-- The files begin behind the host, the offset of the manifest and the signature. -/
def dataOffset : Nat := draft.host.length + 40

/-- The files, each with where its contents are stored. -/
def placed : List (MarkedFile × Nat) :=
  withOffsets (storedBytes deflate) draft.dataOffset draft.files

def manifestOffset : Nat := draft.dataOffset + (fileData deflate draft).length

/-- The length of what is stored; zero says that the file is stored as it is. -/
def compressedNumber (file : MarkedFile) : Nat :=
  if file.deflated then (file.stored deflate).size else 0

def compressedField (majorVersion : Nat) (file : MarkedFile) : List UInt8 :=
  if BundleManifest.compressionSince ≤ majorVersion then
    ofLittleEndian 8 (compressedNumber deflate file)
  else []

def entryBytes (majorVersion : Nat) (file : MarkedFile) (offset : Nat) : List UInt8 :=
  ofLittleEndian 8 offset ++ ofLittleEndian 8 file.contents.size ++
    compressedField deflate majorVersion file ++ [file.mark] ++ encodeSevenBitPrefixed file.path

/-- The locations and the flags, where versions have them. -/
def flagsField : List UInt8 :=
  if BundleManifest.flagsSince ≤ draft.majorVersion then
    draft.locations ++ ofLittleEndian 8 draft.flags
  else []

def entriesBytes : List UInt8 :=
  (placed deflate draft).flatMap fun (file, offset) =>
    entryBytes deflate draft.majorVersion file offset

def manifestBytes : List UInt8 :=
  ofLittleEndian 4 draft.majorVersion ++ ofLittleEndian 4 draft.minorVersion ++
    ofLittleEndian 4 draft.files.length ++ encodeSevenBitPrefixed draft.id ++ flagsField draft ++
    entriesBytes deflate draft

def bytes : List UInt8 :=
  draft.host ++ ofLittleEndian 8 (manifestOffset deflate draft) ++ BundleManifest.signature ++
    fileData deflate draft ++ manifestBytes deflate draft

/-- A file has room in an entry of a version. -/
structure FileFits (majorVersion : Nat) (file : MarkedFile) : Prop where
  contents : file.contents.size < 2 ^ 63
  path : (Utf8.encode file.path).size < 2 ^ 32
  version : file.deflated = true → BundleManifest.compressionSince ≤ majorVersion
  nonempty : file.deflated = true → deflate file.contents ≠ #[]

/-- The numbers of a bundle have room in its fields. -/
structure Sized : Prop where
  host : [0x4D, 0x5A] <+: draft.host
  majorVersion : draft.majorVersion < 2 ^ 32
  minorVersion : draft.minorVersion < 2 ^ 32
  count : draft.files.length ≤ BundleManifest.maxFiles
  id : (Utf8.encode draft.id).size < 2 ^ 32
  locations : draft.locations.length = 32
  flags : draft.flags < 2 ^ 64
  files : ∀ file ∈ draft.files, FileFits deflate draft.majorVersion file
  size : (bytes deflate draft).length < 2 ^ 63

/-- Beside that, the signature does not stand in the host with the offset of the manifest. -/
structure Fits : Prop extends Sized deflate draft where
  free : ¬ BundleManifest.signature <:+:
    draft.host ++ ofLittleEndian 8 (manifestOffset deflate draft)

/-- The flags that a reader finds. -/
def shownFlags : Nat :=
  if BundleManifest.flagsSince ≤ draft.majorVersion then draft.flags else 0

variable {deflate} {draft}

/-!
## The signature
-/

/-- What begins in front of a pattern does not end in it, if the first byte of the pattern does not
occur in it again. -/
theorem not_prefix_of_free {first : UInt8} {rest : List UInt8} (hfirst : first ∉ rest)
    {byte : UInt8} {before : List UInt8} (hfree : ¬ first :: rest <:+: byte :: before)
    (after : List UInt8) : ¬ first :: rest <+: byte :: before ++ (first :: rest ++ after) := by
  rintro ⟨tail, htail⟩
  rcases List.append_eq_append_iff.mp htail with ⟨middle, hbefore, _⟩ | ⟨middle, hpattern, hafter⟩
  · exact hfree ⟨[], middle, hbefore.symm⟩
  · cases middle with
    | nil =>
        rw [List.append_nil] at hpattern
        exact hfree (hpattern ▸ List.infix_refl _)
    | cons next middle =>
        obtain ⟨rfl, _⟩ := List.cons.inj hafter
        obtain ⟨_, rfl⟩ := List.cons.inj hpattern
        exact hfirst (List.mem_append_right before List.mem_cons_self)

/-- A pattern whose first byte does not occur in it again is found where it first stands. -/
theorem findPattern?_append {first : UInt8} {rest : List UInt8} (hfirst : first ∉ rest)
    {before : List UInt8} (hfree : ¬ first :: rest <:+: before) (after : List UInt8) (index : Nat) :
    BundleManifest.findPattern? (first :: rest) index (before ++ (first :: rest ++ after)) =
      some (index + before.length) := by
  induction before generalizing index with
  | nil =>
      have hfound : (first :: rest).isPrefixOf (first :: (rest ++ after)) = true :=
        List.isPrefixOf_iff_prefix.mpr (List.prefix_append (first :: rest) after)
      rw [List.nil_append, List.cons_append, BundleManifest.findPattern?, if_pos hfound]
      rfl
  | cons byte before ih =>
      have hrest : ¬ first :: rest <:+: before :=
        fun h => hfree (h.trans (List.suffix_cons byte before).isInfix)
      have hnot :
          ¬ (first :: rest).isPrefixOf (byte :: (before ++ (first :: rest ++ after))) = true :=
        fun h => not_prefix_of_free hfirst hfree after (List.isPrefixOf_iff_prefix.mp h)
      rw [List.cons_append, BundleManifest.findPattern?, if_neg hnot, ih hrest, List.length_cons,
        Nat.add_assoc, Nat.add_comm 1]

theorem bytes_length :
    (bytes deflate draft).length =
      manifestOffset deflate draft + (manifestBytes deflate draft).length := by
  simp only [bytes, manifestOffset, dataOffset, List.length_append, Bytes.ofLittleEndian_length]
  rfl

theorem manifestOffset_lt : manifestOffset deflate draft < (bytes deflate draft).length := by
  rw [bytes_length]
  simp only [manifestBytes, List.length_append, Bytes.ofLittleEndian_length]
  omega

theorem findSignature (hfits : Fits deflate draft) :
    BundleManifest.findPattern? BundleManifest.signature 0 (bytes deflate draft) =
      some (draft.host.length + 8) := by
  obtain ⟨first, rest, hsignature, hfirst⟩ :
      ∃ first rest, BundleManifest.signature = first :: rest ∧ first ∉ rest :=
    ⟨_, _, rfl, by decide⟩
  have hfree := hfits.free
  rw [hsignature] at hfree
  have hfound := findPattern?_append hfirst hfree
    (fileData deflate draft ++ manifestBytes deflate draft) 0
  rw [Nat.zero_add, List.length_append, Bytes.ofLittleEndian_length] at hfound
  rw [← hfound, hsignature, bytes, hsignature]
  simp only [List.append_assoc]

theorem find?_bytes (hfits : Fits deflate draft) :
    BundleManifest.find? (bytes deflate draft).toArray = some (manifestOffset deflate draft) := by
  have hlt : manifestOffset deflate draft < (bytes deflate draft).length := manifestOffset_lt
  have hsize := hfits.size
  have hstart : Bytes.slice? (bytes deflate draft).toArray 0 2 = some #[0x4D, 0x5A] := by
    obtain ⟨rest, hhost⟩ := hfits.host
    have hslice := Bytes.slice?_middle [] [0x4D, 0x5A] (rest ++ ofLittleEndian 8
      (manifestOffset deflate draft) ++ BundleManifest.signature ++ fileData deflate draft ++
      manifestBytes deflate draft)
    simp only [bytes, ← hhost, List.append_assoc] at hslice ⊢
    exact hslice
  have hoffset : Bytes.uintAt? (bytes deflate draft).toArray (draft.host.length + 8 - 8) 8 =
      some (manifestOffset deflate draft) := by
    have hnumber := Bytes.uintAt?_middle draft.host (BundleManifest.signature ++
      fileData deflate draft ++ manifestBytes deflate draft) 8
      (Nat.lt_trans (Nat.lt_trans hlt hsize) (by decide))
    simpa only [bytes, List.append_assoc, Nat.add_sub_cancel] using hnumber
  have hpositive : 0 < manifestOffset deflate draft := by
    unfold manifestOffset dataOffset
    omega
  unfold BundleManifest.find?
  dsimp only
  rw [if_neg (not_not.mpr hstart), findSignature hfits]
  rw [Option.bind_eq_bind, Option.bind_some, if_neg (by omega), hoffset, Option.bind_some,
    if_pos ⟨hpositive, hlt, Nat.lt_trans hlt hsize⟩]

/-!
## The manifest
-/

theorem reads_sizeDecoder {n : Nat} (h : n < 2 ^ 63) :
    Decoder.Reads BundleManifest.sizeDecoder (ofLittleEndian 8 n) n := by
  refine Decoder.reads_bind_last
    (Decoder.reads_signed 8 (Nat.lt_trans h (by decide)) h) ?_
  rw [if_neg (Int.not_lt.mpr (Int.natCast_nonneg n))]
  exact Decoder.reads_pure n

/-- The number tells how long what is stored is, and whether it is compressed. -/
theorem compressedNumber_spec {file : MarkedFile} {majorVersion : Nat}
    (hfile : FileFits deflate majorVersion file) :
    (if compressedNumber deflate file = 0 then file.contents.size
      else compressedNumber deflate file) = (file.stored deflate).size ∧
    (if compressedNumber deflate file = 0 then Compression.stored else .deflate) =
      file.compression := by
  unfold compressedNumber PackedFile.compression PackedFile.stored
  cases hdeflated : file.deflated with
  | false => exact ⟨rfl, rfl⟩
  | true =>
      have hne : (deflate file.contents).size ≠ 0 := fun hzero =>
        hfile.nonempty hdeflated (Array.eq_empty_of_size_eq_zero hzero)
      simp only [if_true, if_neg hne, and_self]

theorem reads_entryDecoder {file : MarkedFile} {majorVersion offset : Nat}
    (hfile : FileFits deflate majorVersion file) (hstored : (file.stored deflate).size < 2 ^ 63)
    (hoffset : offset < 2 ^ 63) :
    Decoder.Reads (BundleManifest.entryDecoder majorVersion)
      (entryBytes deflate majorVersion file offset)
      (file.entryAt deflate offset
        (BundleManifest.kindOf file.mark.toNat (ContainerEntry.slashed file.path))) := by
  have hcompressed : compressedNumber deflate file < 2 ^ 63 := by
    unfold compressedNumber
    split <;> omega
  unfold BundleManifest.entryDecoder entryBytes
  simp only [List.append_assoc]
  refine Decoder.reads_bind (reads_sizeDecoder hoffset) ?_
  refine Decoder.reads_bind (reads_sizeDecoder hfile.contents) ?_
  have hfield : BundleManifest.compressionSince ≤ majorVersion →
      Decoder.Reads BundleManifest.sizeDecoder (compressedField deflate majorVersion file)
        (compressedNumber deflate file) := by
    intro hversion
    rw [compressedField, if_pos hversion]
    exact reads_sizeDecoder hcompressed
  have habsent : ¬ BundleManifest.compressionSince ≤ majorVersion →
      compressedField deflate majorVersion file = [] ∧ compressedNumber deflate file = 0 := by
    intro hversion
    have hstored : file.deflated = false :=
      Bool.eq_false_iff.mpr fun hdeflated => hversion (hfile.version hdeflated)
    rw [compressedField, if_neg hversion, compressedNumber, hstored]
    exact ⟨rfl, rfl⟩
  refine Decoder.reads_optional_bind hfield habsent ?_
  refine Decoder.reads_bind (Decoder.reads_byte file.mark) ?_
  refine Decoder.reads_bind_last (TextField.reads_sevenBitPrefixed hfile.path) ?_
  obtain ⟨hlength, hcompression⟩ := compressedNumber_spec hfile
  rw [hlength, hcompression]
  exact Decoder.reads_pure _

/-- What a file takes has room in a bundle that fits. -/
theorem Sized.of_mem_placed (hfits : Sized deflate draft) {file : MarkedFile} {offset : Nat}
    (h : (file, offset) ∈ placed deflate draft) :
    offset < 2 ^ 63 ∧ (file.stored deflate).size < 2 ^ 63 := by
  rcases record_of_mem_withOffsets h with ⟨before, after, hdata, hoffset⟩
  have hsize := hfits.size
  rw [bytes_length] at hsize
  simp only [manifestOffset, fileData, hdata, List.length_append, storedBytes,
    Array.length_toList] at hsize
  omega

theorem reads_entriesBytes (hfits : Sized deflate draft) :
    Decoder.Reads
      (Decoder.repeated (BundleManifest.entryDecoder draft.majorVersion) draft.files.length)
      (entriesBytes deflate draft)
      ((placed deflate draft).map fun (file, offset) =>
        file.entryAt deflate offset
          (BundleManifest.kindOf file.mark.toNat (ContainerEntry.slashed file.path))) := by
  have hforms : List.Forall₂
      (fun value bytes =>
        Decoder.Reads (BundleManifest.entryDecoder draft.majorVersion) bytes value)
      ((placed deflate draft).map fun (file, offset) =>
        file.entryAt deflate offset
          (BundleManifest.kindOf file.mark.toNat (ContainerEntry.slashed file.path)))
      ((placed deflate draft).map fun (file, offset) =>
        entryBytes deflate draft.majorVersion file offset) := by
    rw [List.forall₂_map_left_iff, List.forall₂_map_right_iff, List.forall₂_same]
    rintro ⟨file, offset⟩ hmem
    obtain ⟨hoffset, hstored⟩ := hfits.of_mem_placed hmem
    exact reads_entryDecoder (hfits.files file (mem_of_mem_withOffsets hmem)) hstored hoffset
  have hrepeated := Decoder.reads_repeated hforms fun _ _ _ h => h
  rwa [List.length_map, placed, length_withOffsets, ← List.flatMap_def] at hrepeated

/-- The manifest that a reader finds. -/
def shownManifest (deflate : Bytes → Bytes) (draft : BundleDraft) : BundleManifest where
  majorVersion := draft.majorVersion
  minorVersion := draft.minorVersion
  id := draft.id
  flags := draft.shownFlags
  entries := (placed deflate draft).map fun (file, offset) =>
    file.entryAt deflate offset
      (BundleManifest.kindOf file.mark.toNat (ContainerEntry.slashed file.path))

theorem reads_manifestBytes (hfits : Sized deflate draft) :
    Decoder.Reads BundleManifest.decoder (manifestBytes deflate draft)
      (shownManifest deflate draft) := by
  have hcount := hfits.count
  unfold BundleManifest.maxFiles at hcount
  unfold BundleManifest.decoder manifestBytes
  simp only [List.append_assoc]
  refine Decoder.reads_bind (Decoder.reads_unsigned hfits.majorVersion) ?_
  refine Decoder.reads_bind (Decoder.reads_unsigned hfits.minorVersion) ?_
  refine Decoder.reads_bind (Decoder.reads_signed 4
    (Nat.lt_of_le_of_lt hcount (by decide)) (Nat.lt_of_le_of_lt hcount (by decide))) ?_
  rw [if_neg (by unfold BundleManifest.maxFiles; omega)]
  refine Decoder.reads_bind (TextField.reads_sevenBitPrefixed hfits.id) ?_
  have hentries (flags : Nat) := Decoder.reads_map
    (fun entries => BundleManifest.mk draft.majorVersion draft.minorVersion draft.id flags entries)
    (reads_entriesBytes hfits)
  rw [Int.toNat_natCast, shownManifest, shownFlags, flagsField]
  split
  case isTrue =>
    rw [List.append_assoc]
    refine Decoder.reads_bind (Decoder.reads_advance_of_length hfits.locations) ?_
    exact Decoder.reads_bind (Decoder.reads_unsigned hfits.flags) (hentries draft.flags)
  case isFalse => exact hentries 0

/-!
## Contents
-/

theorem extract_bytes {file : MarkedFile} {offset : Nat} (h : (file, offset) ∈ placed deflate draft)
    (hrestored : file.IsRestored deflate) {kind : EntryKind} {entry : ContainerEntry}
    (hentry : file.ShowsAs deflate offset kind entry) :
    BundleManifest.extract (bytes deflate draft).toArray entry = .ok file.contents := by
  rcases record_of_mem_withOffsets h with ⟨before, after, hdata, hoffset⟩
  have hslice := Bytes.slice?_middle
    (draft.host ++ ofLittleEndian 8 (manifestOffset deflate draft) ++ BundleManifest.signature ++
      before) (storedBytes deflate file) (after ++ manifestBytes deflate draft)
  have hplace : (draft.host ++ ofLittleEndian 8 (manifestOffset deflate draft) ++
      BundleManifest.signature ++ before).length = offset := by
    rw [hoffset, List.length_append, List.length_append, List.length_append,
      Bytes.ofLittleEndian_length]
    rfl
  rw [hplace, storedBytes, Array.length_toList, Array.toArray_toList] at hslice
  have hbytes : bytes deflate draft =
      draft.host ++ ofLittleEndian 8 (manifestOffset deflate draft) ++ BundleManifest.signature ++
        before ++ (file.stored deflate).toList ++ (after ++ manifestBytes deflate draft) := by
    rw [bytes, fileData, hdata]
    simp only [List.append_assoc]
    rfl
  unfold BundleManifest.extract
  rw [hentry.offset, hentry.compressedLength, hentry.compression, hbytes, hslice]
  exact PackedFile.decompress_stored hrestored

/-- The manifest of a bundle is found and lists its files in order, and they give their contents
again, unless the signature already stands in the host together with the offset of the manifest. -/
theorem written_bundles_read_back (deflate : Bytes → Bytes) (draft : BundleDraft)
    (hfits : Fits deflate draft) (hrestored : ∀ file ∈ draft.files, file.IsRestored deflate) :
    BundleManifest.find? (bytes deflate draft).toArray = some (manifestOffset deflate draft) ∧
      ∃ manifest,
        BundleManifest.decodeAt (bytes deflate draft).toArray (manifestOffset deflate draft) =
            .ok manifest ∧
          manifest.majorVersion = draft.majorVersion ∧
          manifest.minorVersion = draft.minorVersion ∧ manifest.id = draft.id ∧
          manifest.flags = draft.shownFlags ∧
          List.Forall₂
            (fun (file, offset) entry =>
              file.ShowsAs deflate offset (BundleManifest.kindOf file.mark.toNat entry.path) entry ∧
                BundleManifest.extract (bytes deflate draft).toArray entry = .ok file.contents)
            (placed deflate draft) manifest.entries := by
  refine ⟨find?_bytes hfits, shownManifest deflate draft, ?_, rfl, rfl, rfl, rfl, ?_⟩
  · have hplace : manifestOffset deflate draft =
        (draft.host ++ ofLittleEndian 8 (manifestOffset deflate draft) ++
          BundleManifest.signature ++ fileData deflate draft).length := by
      simp only [manifestOffset, dataOffset, List.length_append, Bytes.ofLittleEndian_length]
      rfl
    have hparse := Decoder.parse_seek _ [] hplace (reads_manifestBytes hfits.toSized)
    rwa [List.append_nil] at hparse
  · rw [shownManifest, List.forall₂_map_right_iff, List.forall₂_same]
    rintro ⟨file, offset⟩ hmem
    let kind := BundleManifest.kindOf file.mark.toNat (ContainerEntry.slashed file.path)
    have hshows : file.ShowsAs deflate offset kind (file.entryAt deflate offset kind) :=
      file.showsAs_entryAt offset kind
    exact ⟨hshows, extract_bytes hmem (hrestored file (mem_of_mem_withOffsets hmem)) hshows⟩

/-- A version with flags and compression, and files of both kinds. -/
def sampleDraft : BundleDraft where
  host := [0x4D, 0x5A, 0x90]
  majorVersion := 6
  minorVersion := 0
  id := "bundle"
  locations := List.replicate 32 0
  flags := 1
  files := [⟨⟨"lib\\App.bin", #[0x4D, 0x5A], false⟩, 1⟩,
    ⟨⟨"notes.txt", Array.replicate 12 0x61, true⟩, 4⟩]

theorem written_bundles_read_back_sample :
    Fits deflateLetters sampleDraft ∧
      (∀ file ∈ sampleDraft.files, file.IsRestored deflateLetters) ∧
      BundleManifest.find? (bytes deflateLetters sampleDraft).toArray =
        some (manifestOffset deflateLetters sampleDraft) ∧
      ∃ manifest,
        BundleManifest.decodeAt (bytes deflateLetters sampleDraft).toArray
            (manifestOffset deflateLetters sampleDraft) = .ok manifest ∧
          manifest.majorVersion = 6 ∧ manifest.minorVersion = 0 ∧ manifest.id = "bundle" ∧
          manifest.flags = 1 ∧
          List.Forall₂
            (fun (file, offset) entry =>
              file.ShowsAs deflateLetters offset
                  (BundleManifest.kindOf file.mark.toNat entry.path) entry ∧
                BundleManifest.extract (bytes deflateLetters sampleDraft).toArray entry =
                  .ok file.contents)
            (placed deflateLetters sampleDraft) manifest.entries := by
  have hfiles : ∀ file ∈ sampleDraft.files, FileFits deflateLetters 6 file := by
    rintro file (_ | ⟨_, _ | ⟨_, hnone⟩⟩)
    · constructor <;> decide +kernel
    · constructor <;> decide +kernel
    · cases hnone
  have hfits : Fits deflateLetters sampleDraft := by
    refine ⟨⟨?_, ?_, ?_, ?_, ?_, ?_, ?_, hfiles, ?_⟩, ?_⟩ <;> decide +kernel
  have hrestored : ∀ file ∈ sampleDraft.files, file.IsRestored deflateLetters := by
    unfold PackedFile.IsRestored
    decide +kernel
  exact ⟨hfits, hrestored, written_bundles_read_back deflateLetters sampleDraft hfits hrestored⟩

/-- A host that ends in all of the signature but its last byte. The offset of the manifest, 174,
begins with that byte. -/
def interruptedDraft : BundleDraft where
  host := [0x4D, 0x5A] ++ List.replicate 101 0 ++ BundleManifest.signature.dropLast
  majorVersion := 6
  minorVersion := 0
  id := ""
  locations := List.replicate 32 0
  flags := 0
  files := []

theorem size_encode_replicate (n : Nat) :
    (Utf8.encode (String.ofList (List.replicate n 'a'))).size = n := by
  have hsize : (String.ofList (List.replicate n 'a')).toByteArray.size = n := by
    induction n with
    | zero => rfl
    | succ n ih =>
        rw [List.replicate_succ, String.ofList_cons, String.toByteArray_append,
          ByteArray.size_append, ih, Nat.add_comm]
        rfl
  exact hsize

theorem reads_lengthBeyondWords : Decoder.Reads SevenBitNumber.decode
    (SevenBitNumber.encode (2 ^ 32)) 0 := by
  show Decoder.Reads _ [0x80, 0x80, 0x80, 0x80, 0x10] 0
  refine Decoder.reads_byte_bind (Decoder.reads_byte_bind (Decoder.reads_byte_bind
    (Decoder.reads_byte_bind (Decoder.reads_byte_bind ?_))))
  exact Decoder.reads_pure 0

/-- The signature is found too early if the offset completes it, even though it does not stand in
the host; and the length of a text that exceeds a machine word is read as a shorter one. -/
theorem bundles_not_read_back :
    (Sized deflateLetters interruptedDraft ∧ ¬ BundleManifest.signature <:+: interruptedDraft.host ∧
      manifestOffset deflateLetters interruptedDraft = 174 ∧
      BundleManifest.find? (bytes deflateLetters interruptedDraft).toArray = none) ∧
    ∃ text, (Utf8.encode text).size = 2 ^ 32 ∧
      TextField.sevenBitPrefixed.parse (encodeSevenBitPrefixed text).toArray = .ok "" := by
  have hsized : Sized deflateLetters interruptedDraft := by
    refine ⟨?_, ?_, ?_, ?_, ?_, ?_, ?_, ?_, ?_⟩
    case refine_8 =>
      intro file hfile
      cases hfile
    all_goals decide +kernel
  refine ⟨⟨hsized, by decide +kernel, by decide +kernel, by decide +kernel⟩, ?_⟩
  refine ⟨_, size_encode_replicate (2 ^ 32), ?_⟩
  unfold encodeSevenBitPrefixed TextField.sevenBitPrefixed
  dsimp only
  rw [size_encode_replicate]
  refine Decoder.parse_of_reads (Decoder.reads_bind_last reads_lengthBeyondWords ?_) _
  refine Decoder.reads_position_bind fun start => ?_
  refine Decoder.reads_bind_last (Decoder.reads_take []) ?_
  rw [show Utf8.decode #[] = .ok "" from Utf8.decode_encode ""]
  exact Decoder.reads_pure ""

end BundleDraft
end AssemblyBrowser
