import AssemblyBrowser.Module.Metadata
import AssemblyBrowser.Proofs.Codec.MetadataRoots
import AssemblyBrowser.Proofs.Codec.TableStreams

/-!
# The metadata of small images

A writer of small images keeps the rows of every table and puts those tables
into the stream that have rows. It writes every index in two bytes and does not
look whether they are enough. Where they are, the stream is one of those that
are read back, whatever the rows say.

A small image has one section. It begins with the runtime header, and the
metadata stands right behind that. What is read from such an image is what was
written: the cells of all rows, the heaps, and where a program starts.
-/

namespace AssemblyBrowser

open Bytes (ofLittleEndian)

/-- The heaps and the rows of an image in the making. -/
structure ImageDraft where
  strings : List UInt8
  blobs : List UInt8
  rows : TableId → List (List Nat)
  mvid : Vector UInt8 16
  entryPoint : UInt32

/-- The width of a column where every index takes two bytes. -/
def Column.smallWidth : Column → Nat
  | .double => 4
  | _ => 2

def TableId.smallWidths (table : TableId) : List Nat := table.columns.map Column.smallWidth

namespace ImageDraft

/-!
## The rows
-/

/-- The tables that have rows. -/
def present (draft : ImageDraft) : List TableId :=
  TableId.all.filter fun table => !(draft.rows table).isEmpty

/-- A set of tables as a number. -/
def tableSet (tables : List TableId) : Nat :=
  tables.foldl (fun set table => set ||| 2 ^ table.number) 0

def rowCountBytes (draft : ImageDraft) (table : TableId) : List UInt8 :=
  ofLittleEndian 4 (draft.rows table).length

def tableBytes (draft : ImageDraft) (table : TableId) : List UInt8 :=
  (draft.rows table).flatMap (rowBytes table.smallWidths)

def tableStream (draft : ImageDraft) : List UInt8 :=
  padded 4 ([0, 0, 0, 0, 2, 0, 0, 1] ++ ofLittleEndian 8 (tableSet draft.present) ++
    ofLittleEndian 8 0 ++ draft.present.flatMap draft.rowCountBytes ++
    draft.present.flatMap draft.tableBytes)

/-- Two bytes are enough for the indexes of a column. -/
def IndexFits (draft : ImageDraft) : Column → Prop
  | .row table => (draft.rows table).length < 2 ^ 16
  | .coded kind => ∀ table, some table ∈ kind.tables →
      (draft.rows table).length < 2 ^ (16 - kind.tagBits)
  | _ => True

instance (draft : ImageDraft) : (column : Column) → Decidable (draft.IndexFits column)
  | .row _ => inferInstanceAs (Decidable (_ < _))
  | .coded kind =>
      decidable_of_iff' (∀ target ∈ kind.tables, ∀ table ∈ target,
          (draft.rows table).length < 2 ^ (16 - kind.tagBits))
        ⟨fun h _ hmem table heq => h table (heq ▸ hmem), fun h table hmem => h _ hmem table rfl⟩
  | .word | .double | .string | .guid | .blob => isTrue trivial

/-- The rows can be written: they can be counted, indexes fit, and so do the cells. -/
structure RowsFit (draft : ImageDraft) : Prop where
  rowCount_lt : ∀ table, (draft.rows table).length < 2 ^ 32
  index : ∀ table, draft.rows table ≠ [] → ∀ column ∈ table.columns, draft.IndexFits column
  cell_lt : ∀ table, ∀ row ∈ draft.rows table,
    List.Forall₂ (fun width cell => cell < Nat.pow 256 width) table.smallWidths row

/-!
## The content of the stream
-/

theorem testBit_tableSet (tables : List TableId) (i : Nat) :
    (tableSet tables).testBit i = tables.any (·.number == i) := by
  have hfold : ∀ set : Nat,
      (tables.foldl (fun set table => set ||| 2 ^ table.number) set).testBit i =
        (set.testBit i || tables.any (·.number == i)) := by
    induction tables with
    | nil => simp
    | cons first rest ih =>
        intro set
        rw [List.foldl_cons, ih, Nat.testBit_or, Nat.testBit_two_pow, List.any_cons,
          Bool.or_assoc]
        rfl
  rw [tableSet, hfold, Nat.zero_testBit, Bool.false_or]

theorem testBit_present (draft : ImageDraft) (table : TableId) :
    (tableSet draft.present).testBit table.number = !(draft.rows table).isEmpty := by
  rw [testBit_tableSet, Bool.eq_iff_iff, List.any_eq_true]
  constructor
  · rintro ⟨other, hmem, hsame⟩
    rw [← TableId.number_injective (beq_iff_eq.mp hsame)]
    exact (List.mem_filter.mp hmem).2
  · intro hrows
    exact ⟨table, List.mem_filter.mpr ⟨table.mem_all, hrows⟩, beq_self_eq_true _⟩

theorem tableSet_lt (tables : List TableId) : tableSet tables < 2 ^ 45 := by
  refine Nat.lt_pow_two_of_testBit _ fun i hi => ?_
  rw [testBit_tableSet, List.any_eq_false]
  rintro table - hsame
  have hlt := table.number_lt
  rw [beq_iff_eq.mp hsame] at hlt
  exact absurd hlt (Nat.not_lt.mpr hi)

/-- The draft as the content of a table stream. -/
def content (draft : ImageDraft) : TableContent where
  reserved := 0
  majorVersion := 2
  minorVersion := 0
  largeStrings := false
  largeGuids := false
  largeBlobs := false
  filler := 1
  present := tableSet draft.present
  sorted := 0
  extraData := none
  rows number := (TableId.all[number]?.map draft.rows).getD []

theorem rows_content (draft : ImageDraft) (number : Nat) :
    draft.content.rows number = (TableId.all[number]?.map draft.rows).getD [] := rfl

theorem content_rows (draft : ImageDraft) (table : TableId) :
    draft.content.rows table.number = draft.rows table := by
  rw [rows_content, TableId.all_getElem?]
  rfl

/-- Only the numbers of tables have rows. -/
theorem exists_table {draft : ImageDraft} {number : Nat} (h : draft.content.rows number ≠ []) :
    ∃ table : TableId, table.number = number := by
  have hlt : number < TableId.all.length := by
    refine Nat.lt_of_not_le fun hle => h ?_
    rw [rows_content, List.getElem?_eq_none hle]
    rfl
  refine ⟨TableId.all[number], ?_⟩
  have hnumber : (TableId.all.map TableId.number)[number]? = some TableId.all[number].number := by
    rw [List.getElem?_map, List.getElem?_eq_getElem hlt]
    rfl
  have hrange : (List.range 45)[number]? = some number := List.getElem?_range hlt
  rw [TableId.numbers_all, hrange] at hnumber
  exact (Option.some.inj hnumber).symm

/-- Where two bytes are enough, the widths are those of the standard. -/
theorem widths_content {draft : ImageDraft} (hfits : draft.RowsFit) {table : TableId}
    (hrows : draft.rows table ≠ []) :
    draft.content.widths table.number = table.smallWidths := by
  rw [TableContent.widths, ← table.columns_standard, List.map_map, TableId.smallWidths]
  refine List.map_congr_left fun column hmem => ?_
  have hindex := hfits.index table hrows column hmem
  cases column with
  | word | double | string | guid | blob => rfl
  | row target =>
      have hcount : draft.content.shape.rowCount target.number = (draft.rows target).length :=
        congrArg List.length (draft.content_rows target)
      have hsmall : ¬ 2 ^ 16 ≤ draft.content.shape.rowCount target.number := by
        rw [hcount]
        exact Nat.not_le.mpr hindex
      exact if_neg hsmall
  | coded kind =>
      have hsmall : ¬ ∃ number ∈ (kind.tables.filterMap id).map TableId.number,
          2 ^ (16 - kind.tagBits) ≤ draft.content.shape.rowCount number := by
        rintro ⟨number, hmem, hle⟩
        obtain ⟨target, htarget, rfl⟩ := List.mem_map.mp hmem
        have hcount : draft.content.shape.rowCount target.number = (draft.rows target).length :=
          congrArg List.length (draft.content_rows target)
        obtain ⟨some_target, hin, rfl⟩ := List.mem_filterMap.mp htarget
        rw [hcount] at hle
        exact Nat.not_le.mpr (hindex target hin) hle
      exact if_neg hsmall

theorem fits_content {draft : ImageDraft} (hfits : draft.RowsFit) : draft.content.Fits where
  present_lt := tableSet_lt draft.present
  present_of_rows number hrows := by
    obtain ⟨table, rfl⟩ := exists_table hrows
    rw [content_rows] at hrows
    refine (draft.testBit_present table).trans ?_
    rw [Bool.not_eq_true', List.isEmpty_eq_false_iff]
    exact hrows
  rowCount_lt number := by
    by_cases hrows : draft.content.rows number = []
    · rw [hrows]
      exact Nat.two_pow_pos 32
    · obtain ⟨table, rfl⟩ := exists_table hrows
      rw [content_rows]
      exact hfits.rowCount_lt table
  cell_lt number row hmem := by
    obtain ⟨table, rfl⟩ := exists_table (List.ne_nil_of_mem hmem)
    rw [content_rows] at hmem
    rw [widths_content hfits (List.ne_nil_of_mem hmem)]
    exact hfits.cell_lt table row hmem

/-- Tables that are left out have nothing to write. -/
theorem flatMap_present (draft : ImageDraft) {write : Nat → List UInt8}
    {writeTable : TableId → List UInt8}
    (hsame : ∀ table, draft.rows table ≠ [] → write table.number = writeTable table)
    (hnone : ∀ table, draft.rows table = [] → write table.number = []) :
    (List.range 45).flatMap write = draft.present.flatMap writeTable := by
  have hfilter : ∀ tables : List TableId, (tables.map TableId.number).flatMap write =
      (tables.filter fun table => !(draft.rows table).isEmpty).flatMap writeTable := by
    intro tables
    induction tables with
    | nil => rfl
    | cons first rest ih =>
        rw [List.map_cons, List.flatMap_cons, ih]
        by_cases hrows : draft.rows first = []
        · rw [hnone first hrows, List.filter_cons_of_neg (by simp [hrows]), List.nil_append]
        · rw [hsame first hrows, List.filter_cons_of_pos (by simp [hrows]), List.flatMap_cons]
  rw [← TableId.numbers_all, hfilter, present]

/-- The stream is the content with its padding. -/
theorem tableStream_eq {draft : ImageDraft} (hfits : draft.RowsFit) :
    draft.tableStream = padded 4 draft.content.bytes := by
  have hcounts : (List.range 45).flatMap draft.content.countBytes =
      draft.present.flatMap draft.rowCountBytes := by
    refine draft.flatMap_present (fun table hrows => ?_) fun table hrows => ?_
    · have hpresent : draft.content.present.testBit table.number = true := by
        refine (draft.testBit_present table).trans ?_
        simp [hrows]
      rw [TableContent.countBytes, if_pos hpresent, content_rows, rowCountBytes]
    · have habsent : ¬ draft.content.present.testBit table.number = true := by
        refine fun h => absurd ((draft.testBit_present table).symm.trans h) ?_
        simp [hrows]
      rw [TableContent.countBytes, if_neg habsent]
  have htables : (List.range 45).flatMap draft.content.tableBytes =
      draft.present.flatMap draft.tableBytes := by
    refine draft.flatMap_present (fun table hrows => ?_) fun table hrows => ?_
    · rw [TableContent.tableBytes, widths_content hfits hrows, content_rows, tableBytes]
    · rw [TableContent.tableBytes, content_rows, hrows, List.flatMap_nil]
  have hhead : ofLittleEndian 4 draft.content.reserved.toNat ++
      [draft.content.majorVersion, draft.content.minorVersion, draft.content.flags,
        draft.content.filler] = [0, 0, 0, 0, 2, 0, 0, 1] := by
    have hflags : draft.content.flags = 0 := rfl
    have hreserved : ofLittleEndian 4 draft.content.reserved.toNat = [0, 0, 0, 0] := by
      change ofLittleEndian 4 (0 : UInt32).toNat = _
      decide
    rw [hflags, hreserved]
    rfl
  have hextra : draft.content.extraBytes = [] := rfl
  rw [tableStream, TableContent.bytes, TableContent.headerBytes, hcounts, htables, hhead, hextra,
    List.nil_append]
  rfl

/-- The tables of a stream are those of a draft: as many rows, and the same cells in them. -/
structure TablesHold (tables : TableStream) (draft : ImageDraft) : Prop where
  rows : ∀ table, tables.rows table = (draft.rows table).length
  value : ∀ (table : TableId) (index column cell : Nat) (row : List Nat),
    (draft.rows table)[index]? = some row → row[column]? = some cell →
      tables.value table (index + 1) column = .ok cell

theorem decode_tableStream {draft : ImageDraft} (hfits : draft.RowsFit) :
    ∃ tables, TableStream.decode draft.tableStream.toArray = .ok tables ∧
      TablesHold tables draft := by
  have hcontent := fits_content hfits
  obtain ⟨tables, sizes, hdecode, hsizes, hdata, hstands⟩ := TableStream.decode_bytes hcontent
    (List.replicate (padding 4 draft.content.bytes.length) 0)
  rw [tableStream_eq hfits]
  refine ⟨tables, hdecode, fun table => ?_, fun table index column cell row hrow hcell => ?_⟩
  · obtain ⟨before, after, hall⟩ := List.append_of_mem table.mem_all
    rw [← content_rows]
    exact (hstands before table after hall).rows.trans (hsizes.rows table)
  · obtain ⟨before, after, hall⟩ := List.append_of_mem table.mem_all
    rw [← content_rows] at hrow
    exact TableStream.value_of_row hcontent hsizes hdata hall (hstands before table after hall)
      hrow hcell

/-!
## The image
-/

def streams (draft : ImageDraft) : List NamedStream :=
  [⟨"#~", draft.tableStream⟩, ⟨"#Strings", padded 4 draft.strings⟩,
    ⟨"#US", List.replicate 4 0⟩, ⟨"#GUID", draft.mvid.toList⟩, ⟨"#Blob", padded 4 draft.blobs⟩]

def metadata (draft : ImageDraft) : List UInt8 := MetadataRoot.bytes draft.streams

/-- Where the section appears in memory. -/
def textRva : Nat := 0x2000

/-- Where the section stands in the file; what stands there is padded to a multiple of it. -/
def fileAlignment : Nat := 0x200

/-- The header of the runtime, which says that the metadata stands behind it. -/
def runtimeHeader (draft : ImageDraft) : List UInt8 :=
  RuntimeHeader.bytes (textRva + RuntimeHeader.length) draft.metadata.length
    draft.entryPoint.toNat

/-- The content of the section. -/
def text (draft : ImageDraft) : List UInt8 := draft.runtimeHeader ++ draft.metadata

def rawText (draft : ImageDraft) : List UInt8 := padded fileAlignment draft.text

def textSection (draft : ImageDraft) : Section where
  virtualAddress := UInt32.ofNat textRva
  virtualSize := UInt32.ofNat draft.text.length
  rawPointer := UInt32.ofNat fileAlignment
  rawSize := UInt32.ofNat draft.rawText.length

/-- The image behind headers that name its section and its runtime header. -/
def image (draft : ImageDraft) (headers : List UInt8) : Image where
  data := (headers ++ draft.rawText).toArray
  sections := [draft.textSection]
  runtimeHeader := { rva := UInt32.ofNat textRva, size := UInt32.ofNat RuntimeHeader.length }

/-- The draft can be written: its rows fit, and its section has room in memory. -/
structure Fits (draft : ImageDraft) : Prop extends RowsFit draft where
  text_lt : textRva + draft.text.length < 2 ^ 32

/-!
## What is read
-/

variable {draft : ImageDraft} {headers : List UInt8}

theorem length_runtimeHeader (draft : ImageDraft) :
    draft.runtimeHeader.length = RuntimeHeader.length := RuntimeHeader.bytes_length ..

theorem length_text (draft : ImageDraft) :
    draft.text.length = RuntimeHeader.length + draft.metadata.length := by
  rw [text, List.length_append, length_runtimeHeader]

theorem metadata_length_lt (hfits : draft.Fits) : draft.metadata.length < 2 ^ 32 := by
  have hlt := hfits.text_lt
  rw [length_text] at hlt
  omega

theorem metadata_length_pos (draft : ImageDraft) : 0 < draft.metadata.length := by
  rw [metadata, MetadataRoot.bytes, List.length_append, List.length_append,
    MetadataRoot.headBytes_length]
  omega

theorem fits_streams (hfits : draft.Fits) : MetadataRoot.Fits draft.streams where
  ne_nil := List.cons_ne_nil _ _
  count_lt := by
    rw [show draft.streams.length = 5 from rfl]
    decide
  plain stream hmem := by
    have hname : stream.name ∈ ["#~", "#Strings", "#US", "#GUID", "#Blob"] :=
      List.mem_map_of_mem (f := NamedStream.name) hmem
    revert hname
    generalize stream.name = name
    revert name
    decide
  length_lt := metadata_length_lt hfits

/-- A place of the section is found by its address. -/
theorem rvaToOffset_text (hfits : draft.Fits) (place : Nat) (hplace : place < draft.text.length) :
    (draft.image headers).rvaToOffset (textRva + place) = .ok (fileAlignment + place) := by
  have hlt := hfits.text_lt
  have hword : UInt32.size = 2 ^ 32 := rfl
  have hfirst : (UInt32.ofNat textRva).toNat = textRva := rfl
  have hsize : (UInt32.ofNat draft.text.length).toNat = draft.text.length :=
    UInt32.toNat_ofNat_of_lt' (by omega)
  have hpointer : (UInt32.ofNat fileAlignment).toNat = fileAlignment := rfl
  have hpositions : Bounded.positions = 2 ^ 64 := rfl
  have halignment : fileAlignment = 0x200 := rfl
  unfold Image.rvaToOffset
  rw [if_neg (by omega), image]
  simp only [Image.offsetIn, textSection, hfirst, hsize, hpointer]
  rw [if_neg (by omega), if_pos (by omega), Bounded.subtract_eq_ok (Nat.le_add_right _ _),
    Outcome.ok_bind, Nat.add_sub_cancel_left, Bounded.add_eq_ok (by omega), Nat.add_comm]

/-- A part of the section is cut out of the file. -/
theorem slice_text {before middle after : List UInt8} (hheaders : headers.length = fileAlignment)
    (htext : draft.text = before ++ middle ++ after) :
    (draft.image headers).slice (fileAlignment + before.length) middle.length =
      .ok middle.toArray := by
  have hslice := Bounded.slice_middle (headers ++ before) middle
    (after ++ List.replicate (padding fileAlignment draft.text.length) 0)
  rw [List.length_append, hheaders] at hslice
  unfold Image.slice image rawText padded
  rw [htext] at hslice ⊢
  simpa only [List.append_assoc] using hslice

/-- The token of the method that a program starts with. -/
def startToken (draft : ImageDraft) : Option Token :=
  (if draft.entryPoint = 0 then none else some ⟨draft.entryPoint⟩).filter
    (·.table == TableId.methodDef.number)

/-- The metadata of an image is that of a draft. -/
structure Holds (metadata : ImageMetadata) (draft : ImageDraft) : Prop extends
    TablesHold metadata.tables draft where
  strings : metadata.strings = (padded 4 draft.strings).toArray
  blobs : metadata.blobs = (padded 4 draft.blobs).toArray
  guids : metadata.guids = draft.mvid.toArray
  runtimeVersion : metadata.runtimeVersion = MetadataRoot.writtenVersion
  entryPoint : metadata.entryPoint = draft.startToken
  fits : draft.RowsFit

theorem managedEntryPoint_eq (draft : ImageDraft) (size : Nat) :
    (RuntimeHeader.mk RuntimeHeader.length 2 5 (textRva + RuntimeHeader.length) size 1
      draft.entryPoint.toNat 0 0).managedEntryPoint? =
        if draft.entryPoint = 0 then none else some ⟨draft.entryPoint⟩ := by
  have hzero : draft.entryPoint.toNat = 0 ↔ draft.entryPoint = 0 :=
    ⟨fun h => UInt32.toNat_inj.mp h, fun h => congrArg UInt32.toNat h⟩
  have hflag : Nat.testBit 1 4 = false := by decide
  simp only [RuntimeHeader.managedEntryPoint?, hzero, hflag, Bool.false_eq_true, false_or,
    Token.ofNat, UInt32.ofNat_toNat]

/-- The metadata of an image, given its tables. -/
def opened (draft : ImageDraft) (headers : List UInt8) (tables : TableStream) : ImageMetadata where
  tables
  strings := (padded 4 draft.strings).toArray
  blobs := (padded 4 draft.blobs).toArray
  guids := draft.mvid.toArray
  runtimeVersion := MetadataRoot.writtenVersion
  entryPoint := draft.startToken
  image := draft.image headers
  resourcesBase := none

theorem ofImage_eq (hfits : draft.Fits) (hheaders : headers.length = fileAlignment) :
    ImageMetadata.ofImage (draft.image headers) =
      (TableStream.decode draft.tableStream.toArray).map (draft.opened headers) := by
  have hlength := length_text draft
  have hpositive := metadata_length_pos draft
  have hheaderLength : 0 < RuntimeHeader.length := by decide
  obtain ⟨root, hroot, hversion, hlisted⟩ : ∃ root,
      MetadataRoot.decode draft.metadata.toArray = .ok root ∧
        root.version = MetadataRoot.writtenVersion ∧
        root.streams = (MetadataRoot.placed draft.streams).map MetadataRoot.streamHeader :=
    MetadataRoot.decode_bytes (fits_streams hfits)
  have hstream (name : String) : root.stream? draft.metadata.toArray name =
      .ok ((draft.streams.find? (·.name == name)).map fun stream => stream.data.toArray) :=
    MetadataRoot.stream?_bytes (fits_streams hfits) hlisted name
  have hheaderSlice := slice_text hheaders (show draft.text =
    [] ++ draft.runtimeHeader ++ draft.metadata from rfl)
  have hmetadataSlice := slice_text hheaders (show draft.text =
    draft.runtimeHeader ++ draft.metadata ++ [] from (List.append_nil _).symm)
  rw [length_runtimeHeader] at hheaderSlice hmetadataSlice
  rw [List.length_nil, Nat.add_zero] at hheaderSlice
  have hdecode : RuntimeHeader.decode draft.runtimeHeader.toArray = _ :=
    RuntimeHeader.decode_bytes (by decide) ⟨hpositive, metadata_length_lt hfits⟩
      draft.entryPoint.toNat_lt
  have hstart : (draft.image headers).rvaToOffset
      (draft.image headers).runtimeHeader.rva.toNat = .ok fileAlignment :=
    rvaToOffset_text hfits 0 (by omega)
  have hinner : (draft.image headers).rvaToOffset (textRva + RuntimeHeader.length) =
      .ok (fileAlignment + RuntimeHeader.length) :=
    rvaToOffset_text hfits RuntimeHeader.length (by omega)
  have htableStream : ImageMetadata.tableStream? root draft.metadata.toArray =
      .ok (some draft.tableStream.toArray) := by
    unfold ImageMetadata.tableStream?
    rw [hstream]
    rfl
  have hstrings : root.stream? draft.metadata.toArray "#Strings" =
      .ok (some (padded 4 draft.strings).toArray) := by
    rw [hstream]
    rfl
  have hblobs : root.stream? draft.metadata.toArray "#Blob" =
      .ok (some (padded 4 draft.blobs).toArray) := by
    rw [hstream]
    rfl
  have hguids : root.stream? draft.metadata.toArray "#GUID" = .ok (some draft.mvid.toArray) := by
    rw [hstream]
    exact congrArg (fun guids => Except.ok (some guids)) Array.toArray_toList
  unfold ImageMetadata.ofImage
  rw [hstart, Outcome.ok_bind, hheaderSlice, Outcome.ok_bind, hdecode, Outcome.ok_bind]
  dsimp only
  rw [hinner, Outcome.ok_bind, hmetadataSlice, Outcome.ok_bind, hroot, Outcome.ok_bind,
    htableStream, Outcome.ok_bind]
  dsimp only
  rw [hstrings, Outcome.ok_bind, hblobs, Outcome.ok_bind, hguids, Outcome.ok_bind]
  cases TableStream.decode draft.tableStream.toArray with
  | error error => rfl
  | ok tables =>
      rw [Outcome.ok_bind, if_pos rfl, managedEntryPoint_eq, hversion]
      rfl

theorem ofImage_image (hfits : draft.Fits) (hheaders : headers.length = fileAlignment) :
    ∃ metadata, ImageMetadata.ofImage (draft.image headers) = .ok metadata ∧
      Holds metadata draft := by
  obtain ⟨tables, htables, hhold⟩ := decode_tableStream hfits.toRowsFit
  refine ⟨draft.opened headers tables, ?_,
    { toTablesHold := hhold, strings := rfl, blobs := rfl, guids := rfl
      runtimeVersion := rfl, entryPoint := rfl, fits := hfits.toRowsFit }⟩
  rw [ofImage_eq hfits hheaders, htables]
  rfl

end ImageDraft

end AssemblyBrowser
