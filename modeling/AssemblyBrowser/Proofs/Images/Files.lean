import AssemblyBrowser.Image.Basic
import AssemblyBrowser.Proofs.Images.Drafts

/-!
# Image files

A file begins with headers for the systems that may load it. They say that there
is one section, where it stands, and that it begins with the runtime header.
-/

namespace AssemblyBrowser

open Bytes (ofLittleEndian)

namespace ImageDraft

/-!
## What is written
-/

/-- The stub for systems that cannot load the file; it says where the headers begin. -/
def stub : List UInt8 :=
  ofLittleEndian 2 0x5A4D ++ List.replicate 58 0 ++ ofLittleEndian 4 0x80 ++ List.replicate 64 0

/-- The file header: a library for 32-bit machines, with one section. -/
def fileHeader : List UInt8 :=
  ofLittleEndian 4 0x4550 ++ ofLittleEndian 2 0x14C ++ ofLittleEndian 2 1 ++
    List.replicate 12 0 ++ ofLittleEndian 2 0xE0 ++ ofLittleEndian 2 0x2102

/-- The size and the place of the code, and where the image is loaded. -/
def codeFields (draft : ImageDraft) : List UInt8 :=
  [8, 0] ++ ofLittleEndian 4 draft.rawText.length ++ List.replicate 12 0 ++
    ofLittleEndian 4 textRva ++ List.replicate 4 0 ++ ofLittleEndian 4 0x400000 ++
      ofLittleEndian 4 textRva

/-- The fields for the system that loads the image. -/
def systemFields (draft : ImageDraft) : List UInt8 :=
  [4, 0, 0, 0, 0, 0, 0, 0, 4, 0, 0, 0] ++ List.replicate 4 0 ++
    ofLittleEndian 4 (textRva + draft.text.length + padding textRva draft.text.length) ++
      ofLittleEndian 4 fileAlignment ++ List.replicate 4 0 ++ ofLittleEndian 2 3 ++
        ofLittleEndian 2 0x8540 ++ [0x100000, 0x1000, 0x100000, 0x1000].flatMap
          (ofLittleEndian 4) ++ List.replicate 4 0

/-- The data directory; of its entries only the one for the runtime header is set. -/
def directory : List DirectoryEntry :=
  List.replicate 14 ⟨0, 0⟩ ++
    [⟨UInt32.ofNat textRva, UInt32.ofNat RuntimeHeader.length⟩, ⟨0, 0⟩]

def entryBytes (entry : DirectoryEntry) : List UInt8 :=
  ofLittleEndian 4 entry.rva.toNat ++ ofLittleEndian 4 entry.size.toNat

def optionalHeader (draft : ImageDraft) : List UInt8 :=
  ofLittleEndian 2 0x10B ++ (draft.codeFields ++ (ofLittleEndian 4 fileAlignment ++
    (draft.systemFields ++ (ofLittleEndian 4 directory.length ++
      (directory.map entryBytes).flatten))))

def sectionName : List UInt8 := [0x2E, 0x74, 0x65, 0x78, 0x74, 0, 0, 0]

def sectionBytes (s : Section) : List UInt8 :=
  sectionName ++ (ofLittleEndian 4 s.virtualSize.toNat ++
    (ofLittleEndian 4 s.virtualAddress.toNat ++ (ofLittleEndian 4 s.rawSize.toNat ++
      (ofLittleEndian 4 s.rawPointer.toNat ++
        (List.replicate 12 0 ++ ofLittleEndian 4 0x60000020)))))

def headers (draft : ImageDraft) : List UInt8 :=
  stub ++ (fileHeader ++ (draft.optionalHeader ++ (sectionBytes draft.textSection ++
    List.replicate 96 0)))

/-- The complete file. -/
def bytes (draft : ImageDraft) : List UInt8 := draft.headers ++ draft.rawText

variable {draft : ImageDraft}

theorem length_codeFields (draft : ImageDraft) : draft.codeFields.length = 34 := by
  simp [codeFields, Bytes.ofLittleEndian_length]

theorem length_systemFields (draft : ImageDraft) : draft.systemFields.length = 52 := by
  simp [systemFields, Bytes.ofLittleEndian_length]

theorem length_optionalHeader (draft : ImageDraft) : draft.optionalHeader.length = 0xE0 := by
  simp [optionalHeader, length_codeFields, length_systemFields, Bytes.ofLittleEndian_length,
    directory, entryBytes]

theorem length_sectionBytes (s : Section) : (sectionBytes s).length = 40 := by
  simp [sectionBytes, sectionName, Bytes.ofLittleEndian_length]

theorem length_headers (draft : ImageDraft) : draft.headers.length = fileAlignment := by
  have hstub : stub.length = 0x80 := rfl
  have hfileHeader : fileHeader.length = 24 := rfl
  rw [headers, List.length_append, List.length_append, List.length_append, List.length_append,
    hstub, hfileHeader, length_optionalHeader, length_sectionBytes, List.length_replicate]
  rfl

end ImageDraft

namespace ImageHeader

open Decoder ImageDraft

/-!
## The headers
-/

theorem reads_word (value : UInt32) : Reads word (ofLittleEndian 4 value.toNat) value := by
  have hread := reads_map UInt32.ofNat (@reads_unsigned 4 value.toNat value.toNat_lt)
  rwa [UInt32.ofNat_toNat] at hread

theorem reads_directoryEntry (entry : DirectoryEntry) :
    Reads directoryEntry (entryBytes entry) entry :=
  reads_bind (reads_word _) (reads_map (DirectoryEntry.mk entry.rva) (reads_word _))

theorem reads_sectionEntry (s : Section) : Reads sectionEntry (sectionBytes s) s := by
  refine reads_bind (reads_advance_of_length rfl) (reads_bind (reads_word _)
    (reads_bind (reads_word _) (reads_bind (reads_word _) (reads_bind (reads_word _) ?_))))
  exact reads_map (fun _ => s) (reads_advance_of_length (by decide))

theorem reads_optionalHeader (draft : ImageDraft) :
    Reads ImageHeader.optionalHeader draft.optionalHeader (fileAlignment, directory) := by
  have hentries : Reads (repeated directoryEntry directory.length)
      (directory.map entryBytes).flatten directory := by
    have hforms : List.Forall₂ (fun entry bytes => bytes = entryBytes entry) directory
        (directory.map entryBytes) := by
      rw [List.forall₂_map_right_iff, List.forall₂_same]
      exact fun _ _ => rfl
    refine reads_repeated hforms fun entry _ bytes hbytes => ?_
    rw [hbytes]
    exact reads_directoryEntry entry
  refine reads_bind (reads_unsigned (by decide)) (reads_bind (reads_advance_of_length
    (length_codeFields draft)) (reads_bind (reads_unsigned (by decide)) ?_))
  rw [if_pos rfl]
  refine reads_bind (reads_advance_of_length (length_systemFields draft))
    (reads_bind (reads_unsigned (by decide)) ?_)
  rw [if_neg (by decide)]
  exact reads_map (fun entries => (fileAlignment, entries)) hentries

/-- The parts of the headers that matter. -/
def headerOf (draft : ImageDraft) : Header where
  hasOptionalHeader := true
  fileAlignment := fileAlignment
  runtimeHeader := some (draft.image draft.headers).runtimeHeader
  sections := [draft.textSection]

/-- A cursor moves from a place between two parts of the data to another one. -/
theorem run_seek_between {done todo before after : List UInt8} {place : Nat}
    (hdata : done ++ todo = before ++ after) (hplace : place = before.length) :
    (seek place).run (.between done todo) = .ok () (.between before after) :=
  run_seek hdata hplace

/-- The headers are read from the start of the file. -/
theorem run_header (draft : ImageDraft) : ∃ before after, before ++ after = draft.bytes ∧
    header.run (.between [] draft.bytes) = .ok (headerOf draft) (.between before after) := by
  obtain ⟨rest, hrest⟩ : ∃ rest, rest = List.replicate 96 0 ++ draft.rawText := ⟨_, rfl⟩
  obtain ⟨behind, hbehind⟩ : ∃ behind, behind = fileHeader ++ (draft.optionalHeader ++
    (sectionBytes draft.textSection ++ rest)) := ⟨_, rfl⟩
  have hbytes : draft.bytes = stub ++ behind := by
    simp only [bytes, headers, hbehind, hrest, List.append_assoc]
  have hstub : stub = ofLittleEndian 2 0x5A4D ++ (List.replicate 58 0 ++
      (ofLittleEndian 4 0x80 ++ List.replicate 64 0)) := by decide
  have hsections : Reads (repeated sectionEntry 1) (sectionBytes draft.textSection)
      [draft.textSection] := by
    rw [← List.append_nil (sectionBytes draft.textSection)]
    exact reads_bind (reads_sectionEntry _) (reads_map _ (reads_pure _))
  -- The stub leads to the file header.
  have hmagic : (unsigned 2).run (.between [] draft.bytes) = .ok 0x5A4D
      (.between (ofLittleEndian 2 0x5A4D) (List.replicate 58 0 ++
        (ofLittleEndian 4 0x80 ++ List.replicate 64 0) ++ behind)) := by
    rw [hbytes, hstub, List.append_assoc]
    exact reads_unsigned (by decide) [] _
  have hplace : (seek 0x3C).run (.between (ofLittleEndian 2 0x5A4D) (List.replicate 58 0 ++
      (ofLittleEndian 4 0x80 ++ List.replicate 64 0) ++ behind)) = .ok ()
        (.between (ofLittleEndian 2 0x5A4D ++ List.replicate 58 0)
          (ofLittleEndian 4 0x80 ++ (List.replicate 64 0 ++ behind))) :=
    run_seek_between (by simp only [List.append_assoc]) rfl
  have hjump : (seek 0x80).run (.between (ofLittleEndian 2 0x5A4D ++ List.replicate 58 0 ++
      ofLittleEndian 4 0x80) (List.replicate 64 0 ++ behind)) = .ok () (.between stub behind) :=
    run_seek_between (by rw [hstub]; simp only [List.append_assoc]) rfl
  have hfields : behind = ofLittleEndian 4 0x4550 ++ (ofLittleEndian 2 0x14C ++
      (ofLittleEndian 2 1 ++ (List.replicate 12 0 ++ (ofLittleEndian 2 0xE0 ++
        (ofLittleEndian 2 0x2102 ++ (draft.optionalHeader ++
          (sectionBytes draft.textSection ++ rest))))))) := by
    rw [hbehind, fileHeader]
    simp only [List.append_assoc]
  have hmachine : Reads (advance 2) (ofLittleEndian 2 0x14C) () := reads_advance_of_length rfl
  have hstamps : Reads (advance 12) (List.replicate 12 0) () := reads_advance_of_length rfl
  have hkind : Reads (advance 2) (ofLittleEndian 2 0x2102) () := reads_advance_of_length rfl
  refine ⟨stub ++ fileHeader ++ draft.optionalHeader ++ sectionBytes draft.textSection, rest,
    ?_, ?_⟩
  · rw [hbytes, hbehind]
    simp only [List.append_assoc]
  unfold header
  rw [run_bind hmagic]
  dsimp only
  rw [if_neg (fun hne => hne rfl), run_bind hplace,
    run_bind (reads_unsigned (by decide) (ofLittleEndian 2 0x5A4D ++ List.replicate 58 0) _),
    run_bind hjump, hfields, run_bind (reads_unsigned (by decide) stub _),
    if_neg (fun hne => hne rfl), run_bind (hmachine _ _), run_bind (reads_unsigned (by decide) _ _),
    run_bind (hstamps _ _), run_bind (reads_unsigned (by decide) _ _), run_bind (hkind _ _),
    run_bind (show position.run (.between (stub ++ ofLittleEndian 4 0x4550 ++
      ofLittleEndian 2 0x14C ++ ofLittleEndian 2 1 ++ List.replicate 12 0 ++
        ofLittleEndian 2 0xE0 ++ ofLittleEndian 2 0x2102) _) = .ok 0x98 _ from rfl),
    if_neg (by decide), run_bind (reads_optionalHeader draft _ _)]
  have hhere : (seek (0x98 + 0xE0)).run (.between (stub ++ ofLittleEndian 4 0x4550 ++
      ofLittleEndian 2 0x14C ++ ofLittleEndian 2 1 ++ List.replicate 12 0 ++
        ofLittleEndian 2 0xE0 ++ ofLittleEndian 2 0x2102 ++ draft.optionalHeader)
          (sectionBytes draft.textSection ++ rest)) = .ok ()
        (.between (stub ++ fileHeader ++ draft.optionalHeader)
          (sectionBytes draft.textSection ++ rest)) := by
    refine run_seek_between (by simp only [fileHeader, List.append_assoc]) ?_
    rw [List.length_append, length_optionalHeader]
    rfl
  have hroom : ¬ (Cursor.between (stub ++ fileHeader ++ draft.optionalHeader)
      (sectionBytes draft.textSection ++ rest)).data.size / sectionEntrySize < 1 := by
    have hsize : (Cursor.between (stub ++ fileHeader ++ draft.optionalHeader)
        (sectionBytes draft.textSection ++ rest)).data.size = draft.bytes.length := by
      rw [hbytes, hbehind]
      simp only [Cursor.between, List.size_toArray, List.append_assoc]
    rw [hsize, bytes, List.length_append, length_headers, Nat.not_lt,
      Nat.le_div_iff_mul_le (by decide)]
    exact Nat.le_trans (by decide) (Nat.le_add_right _ _)
  dsimp only
  rw [run_bind hhere, run_get, if_neg hroom, run_bind (hsections _ _)]
  rfl

/-!
## The runtime header
-/

theorem length_rawText (draft : ImageDraft) :
    draft.text.length ≤ draft.rawText.length ∧
      draft.rawText.length < draft.text.length + fileAlignment ∧
      draft.rawText.length % fileAlignment = 0 := by
  have halignment : fileAlignment = 0x200 := rfl
  rw [rawText, padded, List.length_append, List.length_replicate, padding, halignment]
  omega

/-- With its extent rounded to pages, the section has all of its places. -/
theorem pageOffset?_text {draft : ImageDraft} (hfits : draft.Fits) {place : Nat}
    (hplace : place < draft.text.length) :
    pageOffset? (headerOf draft) (textRva + place) = some (fileAlignment + place) := by
  have hraw := length_rawText draft
  have hlt := hfits.text_lt
  have hrva : textRva = 0x2000 := rfl
  have halignment : fileAlignment = 0x200 := rfl
  rw [halignment] at hraw
  have hfirst : draft.textSection.virtualAddress.toNat = textRva := rfl
  have hpointer : draft.textSection.rawPointer.toNat = 0x200 := rfl
  have hsize : draft.textSection.virtualSize.toNat = draft.text.length :=
    UInt32.toNat_ofNat_of_lt' (show _ < 2 ^ 32 by omega)
  have hrawSize : draft.textSection.rawSize.toNat = draft.rawText.length :=
    UInt32.toNat_ofNat_of_lt' (show _ < 2 ^ 32 by omega)
  have hnonempty : draft.textSection.virtualSize ≠ 0 := by
    intro hzero
    rw [hzero] at hsize
    change 0 = _ at hsize
    omega
  have hextent : place < extent fileAlignment draft.textSection := by
    unfold extent roundUp alignedPointer
    dsimp only
    rw [if_neg hnonempty, hpointer, hrawSize, hsize, halignment]
    omega
  have hpower : isPowerOfTwo fileAlignment = true := by decide
  have hfind : (headerOf draft).sections.find? (fun s => s.virtualAddress.toNat ≤ textRva + place &&
      textRva + place < s.virtualAddress.toNat + extent fileAlignment s) =
        some draft.textSection := by
    refine List.find?_cons_of_pos ?_
    rw [hfirst, Bool.and_eq_true, decide_eq_true_iff, decide_eq_true_iff]
    omega
  unfold pageOffset?
  rw [show (headerOf draft).fileAlignment = fileAlignment from rfl, hpower, hfind]
  refine congrArg some ?_
  rw [hfirst, hpointer, halignment]
  omega

/-- What the runtime header says about the metadata. -/
def metadataEntry (draft : ImageDraft) : DirectoryEntry where
  rva := UInt32.ofNat (textRva + RuntimeHeader.length)
  size := UInt32.ofNat draft.metadata.length

/-- The runtime header, around what it says about the metadata. -/
theorem runtimeHeader_eq {draft : ImageDraft} (hfits : draft.Fits) :
    ∃ front back, draft.runtimeHeader = front ++ (entryBytes (metadataEntry draft) ++ back) ∧
      front.length = 8 ∧ back.length = 56 := by
  have hsize : (metadataEntry draft).size.toNat = draft.metadata.length :=
    UInt32.toNat_ofNat_of_lt' (metadata_length_lt hfits)
  have hrva : (metadataEntry draft).rva.toNat = textRva + RuntimeHeader.length := rfl
  refine ⟨ofLittleEndian 4 RuntimeHeader.length ++ ofLittleEndian 2 2 ++ ofLittleEndian 2 5,
    ofLittleEndian 4 1 ++ ofLittleEndian 4 draft.entryPoint.toNat ++ List.replicate 48 0,
    ?_, rfl, ?_⟩
  · rw [entryBytes, hsize, hrva, runtimeHeader, RuntimeHeader.bytes]
    simp only [List.append_assoc]
  · simp only [List.length_append, Bytes.ofLittleEndian_length, List.length_replicate]

/-- The metadata, around the version of the runtime. -/
theorem metadata_eq (draft : ImageDraft) : ∃ front counts streams,
    draft.metadata = front ++ (ofLittleEndian 4 MetadataRoot.versionBytes.length ++
      (MetadataRoot.versionBytes ++ (counts ++ streams))) ∧
      front.length = 12 ∧ counts.length = 4 := by
  refine ⟨ofLittleEndian 4 MetadataRoot.signature ++ ofLittleEndian 2 1 ++ ofLittleEndian 2 1 ++
      ofLittleEndian 4 0, ofLittleEndian 2 0 ++ ofLittleEndian 2 draft.streams.length,
    (MetadataRoot.placed draft.streams).flatMap MetadataRoot.streamHeaderBytes ++
      draft.streams.flatMap NamedStream.data, ?_, rfl, rfl⟩
  simp only [metadata, MetadataRoot.bytes, MetadataRoot.headBytes, List.append_assoc]

theorem version_decoded : Utf8.decode MetadataRoot.versionBytes.toArray =
    .ok (MetadataRoot.writtenVersion ++ "\x00\x00") := by
  decide +kernel

/-- The runtime header leads to the metadata, which begins with a version. -/
theorem checkRuntimeHeader_text {draft : ImageDraft} (hfits : draft.Fits)
    {before after : List UInt8} (hdata : before ++ after = draft.bytes) :
    ∃ cursor, (checkRuntimeHeader (headerOf draft) (draft.image draft.headers).runtimeHeader).run
      (.between before after) = .ok () cursor := by
  obtain ⟨front, back, hruntimeHeader, hfront, hback⟩ := runtimeHeader_eq hfits
  obtain ⟨root, counts, streams, hmetadata, hroot, hcounts⟩ := metadata_eq draft
  obtain ⟨rest, hrest⟩ : ∃ rest, rest = draft.metadata ++
    List.replicate (padding fileAlignment draft.text.length) 0 := ⟨_, rfl⟩
  obtain ⟨done, hdone⟩ : ∃ done, done =
    draft.headers ++ front ++ entryBytes (metadataEntry draft) ++ back := ⟨_, rfl⟩
  have hlength := length_text draft
  have hpositive := metadata_length_pos draft
  have hplace : RuntimeHeader.length < draft.text.length := by omega
  have hheader : pageOffset? (headerOf draft)
      (draft.image draft.headers).runtimeHeader.rva.toNat = some fileAlignment := by
    have hrva : (draft.image draft.headers).runtimeHeader.rva.toNat = textRva + 0 := rfl
    rw [hrva, pageOffset?_text hfits (Nat.zero_lt_of_lt hplace), Nat.add_zero]
  have hinner : pageOffset? (headerOf draft) (metadataEntry draft).rva.toNat =
      some (fileAlignment + RuntimeHeader.length) := by
    have hrva : (metadataEntry draft).rva.toNat = textRva + RuntimeHeader.length := rfl
    rw [hrva, pageOffset?_text hfits hplace]
  have hstart : (seek fileAlignment).run (.between before after) = .ok () (.between draft.headers
      (front ++ (entryBytes (metadataEntry draft) ++ (back ++ rest)))) := by
    refine run_seek_between (hdata.trans ?_) (length_headers draft).symm
    simp only [bytes, rawText, padded, text, hrest, hruntimeHeader, List.append_assoc]
  have hdoneLength : done.length = fileAlignment + RuntimeHeader.length := by
    rw [← length_headers draft, ← length_runtimeHeader draft, ← List.length_append,
      hruntimeHeader, hdone]
    simp only [List.append_assoc]
  have hsize : ¬ (Cursor.between done rest).data.size <
      fileAlignment + RuntimeHeader.length + (metadataEntry draft).size.toNat := by
    have hentry : (metadataEntry draft).size.toNat = draft.metadata.length :=
      UInt32.toNat_ofNat_of_lt' (metadata_length_lt hfits)
    simp only [hentry, Cursor.between, List.size_toArray, List.length_append, hdoneLength, hrest]
    omega
  have hjump : (seek (fileAlignment + RuntimeHeader.length)).run (.between done rest) =
      .ok () (.between done (root ++ (ofLittleEndian 4 MetadataRoot.versionBytes.length ++
        (MetadataRoot.versionBytes ++ (counts ++ (streams ++
          List.replicate (padding fileAlignment draft.text.length) 0)))))) := by
    refine run_seek_between ?_ hdoneLength.symm
    rw [hrest, hmetadata]
    simp only [List.append_assoc]
  unfold checkRuntimeHeader
  rw [hheader]
  dsimp only
  rw [run_bind hstart, run_bind (reads_advance_of_length hfront _ _),
    run_bind (reads_directoryEntry _ _ _), run_bind (reads_advance_of_length hback _ _), ← hdone,
    hinner]
  dsimp only
  rw [run_get, if_neg hsize, run_bind hjump, run_bind (reads_advance_of_length hroot _ _),
    run_bind (reads_unsigned (by decide) _ _), run_bind (reads_take _ _ _), version_decoded]
  exact ⟨_, reads_advance_of_length hcounts _ _⟩

/-- The file is read as an image with one section, where the runtime header is. -/
theorem decode_bytes {draft : ImageDraft} (hfits : draft.Fits) :
    Image.decode draft.bytes.toArray = .ok (draft.image draft.headers) := by
  obtain ⟨before, after, hdata, hheader⟩ := run_header draft
  obtain ⟨cursor, hcheck⟩ := checkRuntimeHeader_text hfits hdata
  have hparse : ImageHeader.decoder.parse draft.bytes.toArray = .ok (headerOf draft) := by
    refine parse_of_run ⟨cursor, ?_⟩
    unfold ImageHeader.decoder
    rw [run_bind hheader]
    have hentry : (headerOf draft).runtimeHeader =
        some (draft.image draft.headers).runtimeHeader := rfl
    rw [hentry]
    dsimp only
    rw [run_bind hcheck]
    rfl
  have hnonempty : draft.bytes.toArray.isEmpty = false := by
    rw [List.isEmpty_toArray, List.isEmpty_eq_false_iff]
    intro hnil
    have hlength := length_headers draft
    rw [bytes] at hnil
    rw [(List.append_eq_nil_iff.mp hnil).1] at hlength
    cases hlength
  unfold Image.decode
  rw [hnonempty, hparse]
  rfl

end ImageHeader
end AssemblyBrowser
