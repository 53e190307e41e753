import AssemblyBrowser.Module.Metadata
import AssemblyBrowser.Proofs.Safety.Decoding

/-!
# Opening metadata answers

Whatever the sections of an image and the bytes behind them are, opening the
metadata gives an error or a table stream whose rows all lie inside it.
-/

namespace AssemblyBrowser

open Decoder (Safe safe_bind safe_pure safe_get safe_ofExcept safe_check safe_unsigned safe_join)

/-- Positions have room for many numbers of 32 bits. -/
theorem Bounded.lt_positions_of_lt {n : Nat} (h : n < 65536 * UInt32.size) :
    n < Bounded.positions :=
  Nat.lt_trans h (by decide)

/-!
## Images
-/

namespace Image

theorem answers_offsetIn {rva : Nat} (_ : rva < UInt32.size) (sections : List Section) :
    Answers (· < 2 * UInt32.size) (offsetIn rva sections) := by
  induction sections with
  | nil => exact rfl
  | cons s rest ih =>
      simp only [offsetIn]
      split
      · exact rfl
      · split
        case isTrue hinside =>
          have hpointer : s.rawPointer.toNat < UInt32.size := s.rawPointer.toNat_lt
          apply (Bounded.answers_subtract hinside.1).bind
          intro distance hdistance
          have hroom : distance + s.rawPointer.toNat < 2 * UInt32.size := by omega
          apply (Bounded.answers_add (Bounded.lt_positions_of_lt (by omega))).mono
          intro offset hoffset
          rw [hoffset]
          exact hroom
        case isFalse => exact ih

theorem answers_rvaToOffset (image : Image) (rva : Nat) :
    Answers (· < 2 * UInt32.size) (image.rvaToOffset rva) := by
  unfold rvaToOffset
  split
  case isTrue => exact rfl
  case isFalse h => exact answers_offsetIn (Nat.not_le.mp h) image.sections

theorem answers_slice (image : Image) (offset length : Nat) :
    Answers (fun bytes => bytes.size = length) (image.slice offset length) :=
  (Bounded.answers_slice image.data offset length).mono fun _ h => h.1

end Image

/-!
## Headers
-/

namespace RuntimeHeader

theorem safe_decoder :
    Safe (fun header => header.metadataSize < UInt32.size) decoder := by
  refine safe_bind (safe_unsigned 4) fun size _ => safe_check rfl fun _ => ?_
  refine safe_bind (safe_unsigned 2) fun majorVersion _ => ?_
  refine safe_bind (safe_unsigned 2) fun minorVersion _ => ?_
  refine safe_bind (safe_unsigned 4) fun metadataRva _ => ?_
  refine safe_bind (safe_unsigned 4) fun metadataSize hmetadataSize => ?_
  refine safe_check rfl fun _ => ?_
  refine safe_bind (safe_unsigned 4) fun flags _ => ?_
  refine safe_bind (safe_unsigned 4) fun entryPoint _ => ?_
  refine safe_bind (safe_unsigned 4) fun resourcesRva _ => ?_
  refine safe_bind (safe_unsigned 4) fun resourcesSize _ => ?_
  exact safe_pure hmetadataSize

theorem answers_decode {data : Bytes} (h : data.size < UInt32.size) :
    Answers (fun header => header.metadataSize < UInt32.size) (decode data) := by
  unfold decode
  split
  · exact rfl
  · exact Decoder.answers_parse safe_decoder h

end RuntimeHeader

namespace MetadataRoot

/-- Every listed stream ends where a machine word can say. -/
def StreamsFit (root : MetadataRoot) : Prop :=
  ∀ header ∈ root.streams, header.offset + header.size < UInt32.size

theorem safe_streamDecoder :
    Safe (fun header => header.offset + header.size < UInt32.size) streamDecoder := by
  refine safe_bind (safe_unsigned 4) fun offset _ => ?_
  refine safe_bind (safe_unsigned 4) fun size _ => ?_
  refine safe_bind TextField.safe_terminated fun name _ => ?_
  refine safe_bind (Decoder.safe_align (by decide)) fun _ _ => ?_
  refine safe_bind safe_get fun cursor _ => ?_
  refine Decoder.safe_ite (fun _ => Decoder.safe_malformed _) fun hfits => ?_
  refine Decoder.safe_ite (fun _ => Decoder.safe_throw rfl) fun _ => ?_
  exact safe_pure (Nat.not_le.mp hfits)

theorem safe_decoder : Safe StreamsFit decoder := by
  refine safe_bind (safe_unsigned 4) fun found _ => safe_check rfl fun _ => ?_
  refine safe_bind (safe_unsigned 2) fun majorVersion _ => ?_
  refine safe_bind (safe_unsigned 2) fun minorVersion _ => ?_
  refine safe_bind (safe_unsigned 4) fun reserved _ => ?_
  refine safe_bind (safe_unsigned 4) fun versionLength _ => ?_
  refine safe_bind (Decoder.safe_take versionLength) fun versionBytes _ => ?_
  refine safe_bind (safe_unsigned 2) fun flags _ => ?_
  refine safe_bind (safe_unsigned 2) fun count _ => safe_check rfl fun _ => ?_
  refine safe_bind (Decoder.safe_repeated safe_streamDecoder count) fun streams hstreams => ?_
  exact safe_pure hstreams

theorem answers_stream? {root : MetadataRoot} (h : root.StreamsFit) {metadata : Bytes}
    (hsize : metadata.size < UInt32.size) (name : String) :
    Answers (fun stream? => ∀ stream ∈ stream?, stream.size < UInt32.size)
      (root.stream? metadata name) := by
  unfold stream?
  split
  case h_1 => exact Answers.pure (by simp)
  case h_2 header hfind =>
    refine (Bounded.answers_add (h header (List.mem_of_find?_eq_some hfind))).bind ?_
    intro stop _
    apply Answers.pure
    intro stream hstream
    unfold Bytes.between? at hstream
    split at hstream
    case isTrue hinside =>
      rw [← Option.some.inj hstream, Array.size_extract]
      omega
    case isFalse => cases hstream

/-- A stream that is not there is an empty one. -/
theorem size_getD_lt {stream? : Option Bytes} (h : ∀ stream ∈ stream?, stream.size < UInt32.size) :
    (stream?.getD #[]).size < UInt32.size := by
  cases stream? with
  | none => exact Nat.zero_lt_succ _
  | some stream => exact h stream rfl

end MetadataRoot

/-!
## Heaps
-/

namespace Heap

theorem answers_string (heap : Bytes) (index : Nat) :
    Answers (fun _ => True) (string heap index) := by
  unfold string
  split
  · exact trivial
  · split
    case isTrue => exact rfl
    case isFalse h =>
      apply (Bounded.answers_range (Nat.le_of_lt (Nat.not_le.mp h)) (Nat.le_refl _)).bind
      intro rest _
      split
      · exact rfl
      · split
        · exact trivial
        · exact rfl

theorem answers_blob {heap : Bytes} (hsize : heap.size < UInt32.size) (index : Nat) :
    Answers (fun bytes => bytes.size < UInt32.size) (blob heap index) := by
  unfold blob
  split
  · exact Nat.zero_lt_succ _
  · split
    case isTrue => exact rfl
    case isFalse h =>
      apply (Bounded.answers_range (Nat.le_of_lt (Nat.not_le.mp h)) (Nat.le_refl _)).bind
      intro rest hrest
      refine Decoder.answers_parse ?_ (by omega)
      refine safe_bind CompressedNumber.safe_decode fun length _ => ?_
      exact Decoder.safe_mono (Decoder.safe_take length) fun _ hbytes => hbytes.2

theorem answers_guid (heap : Bytes) {index : Nat} (hindex : index < UInt32.size) :
    Answers (fun _ => True) (guid heap index) := by
  have hsize : UInt32.size = 4294967296 := rfl
  unfold guid
  split
  case isTrue => exact trivial
  case isFalse h =>
    apply (Bounded.answers_subtract (Nat.pos_of_ne_zero h)).bind
    intro before hbefore
    apply (Bounded.answers_multiply (Bounded.lt_positions_of_lt (by omega))).bind
    intro start hstart
    apply (Bounded.answers_add (Bounded.lt_positions_of_lt (by omega))).bind
    intro stop _
    split
    · exact trivial
    · exact rfl

end Heap

/-!
## Table streams

The rows of a table stand inside the stream, one after another, and the columns
inside the rows. This is what makes every cell readable.
-/

/-- The columns of a table stand inside its rows, and its rows in front of `stop`. -/
structure TableLayout.Placed (layout : TableLayout) (stop : Nat) : Prop where
  rows_lt : layout.rows < UInt32.size
  rows_le : layout.start + layout.rowWidth * layout.rows ≤ stop
  column_le : ∀ column ∈ layout.columns,
    column.offset + column.width ≤ layout.rowWidth ∧ column.width ≤ 4

namespace TableLayout

theorem Placed.mono {layout : TableLayout} {stop later : Nat} (h : layout.Placed stop)
    (hle : stop ≤ later) : layout.Placed later :=
  ⟨h.rows_lt, Nat.le_trans h.rows_le hle, h.column_le⟩

theorem width_le (sizes : TableSizes) (column : Column) : sizes.width column ≤ 4 := by
  unfold TableSizes.width
  split <;> decide

theorem answers_placeColumns (sizes : TableSizes) (columns : List Column) (offset : Nat)
    (hroom : offset + 4 * columns.length < UInt32.size) :
    Answers
      (fun placed => offset ≤ placed.2 ∧ placed.2 ≤ offset + 4 * columns.length ∧
        ∀ column ∈ placed.1, column.offset + column.width ≤ placed.2 ∧ column.width ≤ 4)
      (placeColumns sizes offset columns) := by
  induction columns generalizing offset with
  | nil => exact ⟨Nat.le_refl _, Nat.le_refl _, by simp⟩
  | cons column rest ih =>
      have hwidth : sizes.width column ≤ 4 := width_le sizes column
      rw [List.length_cons] at hroom
      apply (Bounded.answers_add (Bounded.lt_positions_of_lt (by omega))).bind
      intro next hnext
      apply (ih next (by omega)).bind
      intro placed hplaced
      refine Answers.pure ⟨by omega, by rw [List.length_cons]; omega, ?_⟩
      intro other hmem
      rcases List.mem_cons.mp hmem with heq | hother
      · rw [heq]
        exact ⟨by rw [← hnext]; exact hplaced.1, hwidth⟩
      · exact hplaced.2.2 other hother

/-- No table is longer than the most rows of the widest kind. -/
def maxLength : Nat := 36 * UInt32.size

theorem columns_length_le (table : TableId) : table.columns.length ≤ 9 := by
  cases table <;> decide

theorem answers_ofTable {sizes : TableSizes} {table : TableId} {start : Nat}
    (hrows : sizes.rows table < UInt32.size) (hroom : start + maxLength < Bounded.positions) :
    Answers
      (fun placed => start ≤ placed.2 ∧ placed.2 ≤ start + maxLength ∧
        placed.1.Placed placed.2)
      (ofTable sizes start table) := by
  have hcount : table.columns.length ≤ 9 := columns_length_le table
  have hword : UInt32.size = 4294967296 := rfl
  apply (answers_placeColumns sizes table.columns 0 (by omega)).bind
  intro placed hplaced
  have hwidth : placed.2 ≤ 36 := by omega
  have hlength : placed.2 * sizes.rows table ≤ maxLength :=
    Nat.mul_le_mul hwidth (Nat.le_of_lt hrows)
  apply (Bounded.answers_multiply (by omega)).bind
  intro length heq
  apply (Bounded.answers_add (by omega)).bind
  intro stop hstop
  refine Answers.pure ⟨by omega, by omega, hrows, ?_, ?_⟩
  · change start + placed.2 * sizes.rows table ≤ stop
    omega
  · intro column hmem
    exact hplaced.2.2 column (by simpa using hmem)

/-- Placing a table keeps those that are placed already. -/
theorem answers_place {sizes : TableSizes} (hrows : ∀ table, sizes.rows table < UInt32.size)
    (tables : List TableId) (layouts : PerTable TableLayout) (start : Nat)
    (hroom : start + tables.length * maxLength < Bounded.positions) :
    Answers
      (fun placed => start ≤ placed.2 ∧ ∀ table,
        (table ∈ tables ∨ (layouts.look table).Placed start) →
          (placed.1.look table).Placed placed.2)
      (place sizes layouts start tables) := by
  induction tables generalizing layouts start with
  | nil =>
      refine Answers.pure ⟨Nat.le_refl _, ?_⟩
      intro table h
      rcases h with hmem | hplaced
      · cases hmem
      · exact hplaced
  | cons table rest ih =>
      rw [List.length_cons, Nat.add_one_mul] at hroom
      apply (answers_ofTable (hrows table) (by omega)).bind
      intro placed hplaced
      apply (ih (layouts.put table placed.1) placed.2 (by omega)).mono
      intro all hall
      refine ⟨Nat.le_trans hplaced.1 hall.1, ?_⟩
      intro other h
      apply hall.2 other
      by_cases heq : table = other
      · right
        rw [← heq, PerTable.look_put_self]
        exact hplaced.2.2
      · rcases h with hmem | hbefore
        · rcases List.mem_cons.mp hmem with hsame | hrest
          · exact absurd hsame.symm heq
          · exact Or.inl hrest
        · right
          rw [PerTable.look_put_of_ne _ _ heq]
          exact hbefore.mono hplaced.1

end TableLayout

namespace TableId

theorem mem_all (table : TableId) : table ∈ all := List.mem_of_getElem? (all_getElem? table)

end TableId

namespace TableStream

/-- Every table stands inside the data. -/
structure WellPlaced (stream : TableStream) : Prop where
  size_lt : stream.data.size < UInt32.size
  placed : ∀ table, (stream.layout table).Placed stream.data.size

theorem safe_decodeRowCounts (valid : Nat) (tables : List TableId) {counts : PerTable Nat}
    (h : ∀ table, counts.look table < UInt32.size) :
    Safe (fun counts => ∀ table, counts.look table < UInt32.size)
      (decodeRowCounts valid counts tables) := by
  induction tables generalizing counts with
  | nil => exact safe_pure h
  | cons table rest ih =>
      refine Decoder.safe_ite (fun _ => ?_) fun _ => ih h
      refine safe_bind (safe_unsigned 4) fun count hcount => ih ?_
      intro other
      by_cases heq : table = other
      · rw [← heq, PerTable.look_put_self]
        exact hcount
      · rw [PerTable.look_put_of_ne _ _ heq]
        exact h other

theorem look_replicate {α : Type} (part : α) (table : TableId) :
    PerTable.look (Vector.replicate TableId.count part) table = part := by
  simp [PerTable.look]

theorem safe_decoder : Safe WellPlaced decoder := by
  refine safe_bind (Decoder.safe_advance 4) fun _ _ => ?_
  refine safe_bind (safe_unsigned 1) fun majorVersion _ => ?_
  refine safe_bind (safe_unsigned 1) fun minorVersion _ => ?_
  refine safe_bind (safe_unsigned 1) fun heapSizes _ => ?_
  refine safe_bind (Decoder.safe_advance 1) fun _ _ => ?_
  refine safe_bind (safe_unsigned 8) fun valid _ => ?_
  refine safe_bind (safe_unsigned 8) fun sorted _ => safe_check rfl fun _ => ?_
  have hzero : ∀ table, PerTable.look (Vector.replicate TableId.count 0) table < UInt32.size := by
    intro table
    rw [look_replicate]
    decide
  refine safe_bind (safe_decodeRowCounts valid TableId.all hzero) fun rowCounts hrows => ?_
  refine safe_bind safe_get fun cursor hcursor => ?_
  have hsize : cursor.data.size < UInt32.size := hcursor.size_lt
  have hpos : cursor.pos ≤ cursor.data.size := hcursor.pos_le
  have hword : UInt32.size = 4294967296 := rfl
  refine safe_join (P := fun start => start < 2 * UInt32.size)
    (fun _ => safe_ofExcept ((Bounded.answers_add ?_).mono ?_))
    (fun _ => safe_pure (by omega)) fun start hstart => ?_
  · exact Bounded.lt_positions_of_lt (by omega)
  · intro start heq
    omega
  have hroom : start + TableId.all.length * TableLayout.maxLength < Bounded.positions := by
    have htables : TableId.all.length * TableLayout.maxLength = 45 * (36 * UInt32.size) := rfl
    apply Bounded.lt_positions_of_lt
    rw [htables]
    omega
  refine safe_bind
    (safe_ofExcept (TableLayout.answers_place ?_ TableId.all _ start hroom)) ?_
  · exact hrows
  intro placed hplaced
  refine safe_check rfl fun hfits => ?_
  refine safe_pure ⟨hsize, ?_⟩
  intro table
  exact (hplaced.2 table (Or.inl (TableId.mem_all table))).mono (Nat.not_lt.mp hfits)

theorem answers_decode {data : Bytes} (hsize : data.size < UInt32.size) :
    Answers WellPlaced (decode data) :=
  Decoder.answers_parse safe_decoder hsize

end TableStream

/-!
## Cells
-/

namespace TableStream

variable {stream : TableStream} (h : stream.WellPlaced)

include h

theorem rows_lt (table : TableId) : stream.rows table < UInt32.size := (h.placed table).rows_lt

/-- The row that a cell is in stands inside the data. -/
theorem answers_value (table : TableId) (row column : Nat) :
    Answers (· < UInt32.size) (stream.value table row column) := by
  have hplaced : (stream.layout table).Placed stream.data.size := h.placed table
  have hsize : stream.data.size < UInt32.size := h.size_lt
  unfold value
  dsimp only
  split
  case isTrue => exact rfl
  case isFalse hrow =>
    split
    case h_1 => exact rfl
    case h_2 placedColumn hcolumn =>
      have hwidths := hplaced.column_le placedColumn (Array.mem_of_getElem? hcolumn)
      apply (Bounded.answers_subtract (by omega)).bind
      intro before hbefore
      have hrows : (before + 1) * (stream.layout table).rowWidth ≤
          (stream.layout table).rowWidth * (stream.layout table).rows := by
        rw [Nat.mul_comm]
        exact Nat.mul_le_mul_left _ (by omega)
      rw [Nat.add_one_mul] at hrows
      have hstop := hplaced.rows_le
      apply (Bounded.answers_multiply (Bounded.lt_positions_of_lt (by omega))).bind
      intro distance hdistance
      apply (Bounded.answers_add (Bounded.lt_positions_of_lt (by omega))).bind
      intro rowStart hrowStart
      apply (Bounded.answers_add (Bounded.lt_positions_of_lt (by omega))).bind
      intro place _
      apply (Bounded.answers_unsignedAt stream.data place placedColumn.width).mono
      intro cell hcell
      exact Nat.lt_of_lt_of_le hcell (Nat.pow_le_pow_right (by decide) hwidths.2)

theorem answers_coded (table : TableId) (row column : Nat) (kind : CodedIndex) :
    Answers (fun _ => True) (stream.coded table row column kind) :=
  (answers_value h table row column).bind fun _ _ => Answers.pure trivial

/-- The rows that are listed end behind the last row of the target table. -/
theorem answers_listRange (table : TableId) (row column : Nat) {target : TableId}
    (hroom : stream.rows target + 1 < UInt32.size) :
    Answers (fun _ => True) (stream.listRange table row column target) := by
  apply (Bounded.answers_add hroom).bind
  intro stop _
  apply (answers_value h table row column).bind
  intro start _
  split
  case isTrue hrow =>
    have htable : stream.rows table < UInt32.size := rows_lt h table
    apply (Bounded.answers_add (by omega)).bind
    intro following _
    exact (answers_value h table following column).bind (Q := fun _ => True)
      fun _ _ => Answers.pure trivial
  case isFalse => exact Answers.pure trivial

theorem answers_indirect (pointers : TableId) (row : Nat) :
    Answers (fun _ => True) (stream.indirect pointers row) := by
  unfold indirect
  split
  · exact trivial
  · exact (answers_value h pointers row 0).mono fun _ _ => trivial

end TableStream

/-!
## Opening metadata
-/

namespace ImageMetadata

/-- Tables and heaps as opening an image leaves them. -/
structure Opened (metadata : ImageMetadata) : Prop where
  tables : metadata.tables.WellPlaced
  blobs_lt : metadata.blobs.size < UInt32.size
  resourcesBase_lt : ∀ base ∈ metadata.resourcesBase, base < 2 * UInt32.size

theorem answers_tableStream? {root : MetadataRoot} (h : root.StreamsFit) {metadata : Bytes}
    (hsize : metadata.size < UInt32.size) :
    Answers (fun stream? => ∀ stream ∈ stream?, stream.size < UInt32.size)
      (tableStream? root metadata) := by
  apply (MetadataRoot.answers_stream? h hsize "#~").bind
  intro stream? hstream
  split
  case h_1 tables => exact Answers.pure (by simpa using hstream tables rfl)
  case h_2 => exact MetadataRoot.answers_stream? h hsize "#-"

/-- Whatever an image holds, opening its metadata answers. -/
theorem answers_ofImage (image : Image) : Answers Opened (ofImage image) := by
  apply (Image.answers_rvaToOffset image _).bind
  intro headerOffset _
  apply (Image.answers_slice image headerOffset RuntimeHeader.length).bind
  intro headerBytes hheaderBytes
  have hheaderSize : headerBytes.size < UInt32.size := by
    rw [hheaderBytes]
    decide
  apply (RuntimeHeader.answers_decode hheaderSize).bind
  intro header hheader
  apply (Image.answers_rvaToOffset image header.metadataRva).bind
  intro metadataOffset _
  apply (Image.answers_slice image metadataOffset header.metadataSize).bind
  intro metadata hmetadata
  have hsize : metadata.size < UInt32.size := by
    rw [hmetadata]
    exact hheader
  apply (Decoder.answers_parse MetadataRoot.safe_decoder hsize).bind
  intro root hroot
  apply (answers_tableStream? hroot hsize).bind
  intro tables? htables
  split
  case h_1 => exact rfl
  case h_2 tables =>
    apply (MetadataRoot.answers_stream? hroot hsize "#Strings").bind
    intro strings _
    apply (MetadataRoot.answers_stream? hroot hsize "#Blob").bind
    intro blobs hblobs
    apply (MetadataRoot.answers_stream? hroot hsize "#GUID").bind
    intro guids _
    apply (TableStream.answers_decode (htables tables rfl)).bind
    intro stream hstream
    refine Answers.join (P := fun base? => ∀ base ∈ base?, base < 2 * UInt32.size)
      (fun _ => Answers.pure (by simp))
      (fun _ => (Image.answers_rvaToOffset image header.resourcesRva).attempt) ?_
    intro resourcesBase hresources
    exact Answers.pure ⟨hstream, MetadataRoot.size_getD_lt hblobs, hresources⟩

variable {metadata : ImageMetadata} (h : metadata.Opened)

include h

theorem answers_value (table : TableId) (row column : Nat) :
    Answers (· < UInt32.size) (metadata.tables.value table row column) :=
  TableStream.answers_value h.tables table row column

theorem answers_coded (table : TableId) (row column : Nat) (kind : CodedIndex) :
    Answers (fun _ => True) (metadata.tables.coded table row column kind) :=
  TableStream.answers_coded h.tables table row column kind

theorem answers_string (table : TableId) (row column : Nat) :
    Answers (fun _ => True) (metadata.string table row column) :=
  (answers_value h table row column).bind fun index _ =>
    Heap.answers_string metadata.strings index

theorem answers_blob (table : TableId) (row column : Nat) :
    Answers (fun bytes => bytes.size < UInt32.size) (metadata.blob table row column) :=
  (answers_value h table row column).bind fun index _ => Heap.answers_blob h.blobs_lt index

theorem answers_resourceLength {offset : Nat} (hoffset : offset < UInt32.size) :
    Answers (fun _ => True) (metadata.resourceLength offset) := by
  unfold resourceLength
  split
  case h_1 => exact Answers.pure trivial
  case h_2 base hbase =>
    have hbaseLt : base < 2 * UInt32.size := h.resourcesBase_lt base hbase
    apply (Bounded.answers_add (Bounded.lt_positions_of_lt (by omega))).bind
    intro place _
    refine (Answers.attempt (P := fun _ => True) ?_).mono fun _ _ => trivial
    apply (Image.answers_slice metadata.image place 4).bind
    intro bytes hbytes
    have hbytesLt : bytes.size < UInt32.size := by
      rw [hbytes]
      decide
    exact (Decoder.answers_parse (safe_unsigned 4) hbytesLt).mono fun _ _ => trivial

theorem answers_listedRows (table : TableId) (row column : Nat) {target : TableId}
    (hroom : metadata.tables.rows target + 1 < UInt32.size) (pointers : TableId) :
    Answers (fun _ => True) (metadata.listedRows table row column target pointers) := by
  apply (TableStream.answers_listRange h.tables table row column hroom).bind
  intro range _
  refine (Answers.mapM (Q := fun _ => True) ?_).mono fun _ _ => trivial
  intro listed _
  exact TableStream.answers_indirect h.tables pointers listed

end ImageMetadata
end AssemblyBrowser
