import AssemblyBrowser.Proofs.Containment.Agreement
import AssemblyBrowser.Proofs.Images.Loading
import AssemblyBrowser.Proofs.Safety.Reading

/-!
# Redirecting a signature

Images may differ in one cell of one table, and in nothing else that is read. If the
cell is the index of a signature, everything but signatures is read alike. Two files
that are written from the same rows, but for one cell, are such images.
-/

namespace AssemblyBrowser

/-- The metadata in a file. -/
def ImageMetadata.ofBytes (data : Bytes) : Except Error ImageMetadata := do
  ImageMetadata.ofImage (← Image.decode data)

theorem CodeModule.ofBytes_eq (name : String) (data : Bytes) :
    CodeModule.ofBytes name data =
      (ImageMetadata.ofBytes data >>= fun metadata => metadata.toModule name) := by
  unfold CodeModule.ofBytes ImageMetadata.ofBytes
  cases Image.decode data <;> rfl

namespace ImageMetadata

theorem opened_of_ofBytes {data : Bytes} {metadata : ImageMetadata}
    (h : ofBytes data = .ok metadata) : metadata.Opened := by
  obtain ⟨image, -, hmetadata⟩ := Outcome.bind_eq_ok.mp h
  have hanswers := answers_ofImage image
  rwa [hmetadata] at hanswers

/-- What is read from the rows of constructed types is as long as a heap at most. -/
theorem signaturesFit_of_constructed {metadata : ImageMetadata} (h : metadata.Opened)
    {blobs : List Bytes} (hblobs : metadata.constructed = .ok blobs)
    (definitions references : Array TypeName) :
    TypeScope.SignaturesFit ⟨definitions, references, blobs.toArray⟩ := by
  have hanswers : Answers _ metadata.constructed :=
    Answers.mapM fun row _ => answers_blob h .typeSpec row 0
  rw [hblobs] at hanswers
  exact fun blob hblob => hanswers.2 blob (List.mem_toArray.mp hblob)

/-- A cell beyond the rows of its table is out of bounds. -/
theorem value_of_no_row {stream : TableStream} {table : TableId} {row : Nat}
    (h : row = 0 ∨ stream.rows table < row) (column : Nat) :
    stream.value table row column = .error .outOfBounds := by
  unfold TableStream.value
  exact if_pos h

/-- A cell of the table holds an index, and the metadata agree in everything else. -/
structure Redirected (metadata changed : ImageMetadata) (table : TableId)
    (row column index : Nat) : Prop where
  rowCount : ∀ other, changed.tables.rows other = metadata.tables.rows other
  cell : changed.tables.value table row column = .ok index
  others : ∀ other place number, 1 ≤ place → place ≤ metadata.tables.rows other →
    number < other.columns.length → (other, place, number) ≠ (table, row, column) →
      changed.tables.value other place number = metadata.tables.value other place number
  strings : changed.strings = metadata.strings
  blobs : changed.blobs = metadata.blobs
  guids : changed.guids = metadata.guids
  runtimeVersion : changed.runtimeVersion = metadata.runtimeVersion
  entryPoint : changed.entryPoint = metadata.entryPoint
  resourceLength : ∀ place offset, metadata.tables.value .manifestResource place 0 = .ok offset →
    changed.resourceLength offset = metadata.resourceLength offset

namespace Redirected

variable {metadata changed : ImageMetadata} {table : TableId} {row column index : Nat}
  (h : metadata.Redirected changed table row column index)

include h

theorem row_bounds : 1 ≤ row ∧ row ≤ metadata.tables.rows table := by
  by_contra hout
  have hvalue := h.cell
  rw [value_of_no_row (by rw [h.rowCount]; omega)] at hvalue
  cases hvalue

/-- Every cell but the one is read alike, whether there is one or not. -/
theorem value {other : TableId} {number : Nat} (hnumber : number < other.columns.length)
    (place : Nat) (hne : (other, place, number) ≠ (table, row, column)) :
    changed.tables.value other place number = metadata.tables.value other place number := by
  by_cases hplace : 1 ≤ place ∧ place ≤ metadata.tables.rows other
  · exact h.others other place number hplace.1 hplace.2 hnumber hne
  · rw [value_of_no_row (by rw [h.rowCount]; omega), value_of_no_row (by omega)]

theorem sameButSignatures (hsignature : table.signatureColumn? = some column) :
    metadata.SameButSignatures changed where
  rowCount := h.rowCount
  value := by
    intro other number hplain place
    refine h.value hplain.1 place fun heq => ?_
    cases heq
    exact hplain.2 hsignature
  strings := h.strings
  blobs := h.blobs
  guids := h.guids
  runtimeVersion := h.runtimeVersion
  entryPoint := h.entryPoint
  resourceLength := h.resourceLength

/-- The other signatures are read alike. -/
theorem blob {other : TableId} {number : Nat} (hnumber : number < other.columns.length)
    (place : Nat) (hne : (other, place, number) ≠ (table, row, column)) :
    changed.blob other place number = metadata.blob other place number := by
  rw [ImageMetadata.blob, h.value hnumber place hne, h.blobs]
  rfl

theorem blob_cell : changed.blob table row column = Heap.blob metadata.blobs index := by
  rw [ImageMetadata.blob, h.cell, h.blobs]
  rfl

end Redirected
end ImageMetadata

/-!
## Files in the making
-/

namespace ImageDraft

/-- The draft with another value in one cell. -/
def redirect (draft : ImageDraft) (table : TableId) (row column index : Nat) : ImageDraft :=
  { draft with
    rows := fun other =>
      if other = table then (draft.rows other).modify (row - 1) fun cells => cells.set column index
      else draft.rows other }

/-- Whether a draft fits can be tried table by table. -/
theorem Fits.of_all {draft : ImageDraft}
    (hrows : ∀ table ∈ TableId.all, (draft.rows table).length < 2 ^ 32 ∧
      (draft.rows table ≠ [] → ∀ column ∈ table.columns, draft.IndexFits column) ∧
      ∀ row ∈ draft.rows table,
        List.Forall₂ (fun width cell => cell < Nat.pow 256 width) table.smallWidths row)
    (htext : textRva + draft.text.length < 2 ^ 32) : draft.Fits where
  rowCount_lt table := (hrows table table.mem_all).1
  index table := (hrows table table.mem_all).2.1
  cell_lt table := (hrows table table.mem_all).2.2
  text_lt := htext

/-- What is read from the file of a draft depends on nothing but its rows and heaps. -/
theorem ofBytes_eq {draft : ImageDraft} (hfits : draft.Fits) :
    ImageMetadata.ofBytes draft.bytes.toArray =
      (TableStream.decode draft.tableStream.toArray).map (draft.opened draft.headers) := by
  rw [ImageMetadata.ofBytes, ImageHeader.decode_bytes hfits, Outcome.ok_bind,
    ofImage_eq hfits (length_headers draft)]

theorem exists_ofBytes {draft : ImageDraft} (hfits : draft.Fits) :
    ∃ metadata, ImageMetadata.ofBytes draft.bytes.toArray = .ok metadata ∧
      Holds metadata draft := by
  obtain ⟨metadata, hmetadata, hholds⟩ := ofImage_image hfits (length_headers draft)
  refine ⟨metadata, ?_, hholds⟩
  rw [ImageMetadata.ofBytes, ImageHeader.decode_bytes hfits, Outcome.ok_bind, hmetadata]

variable {draft : ImageDraft} {table : TableId} {row column index : Nat}

theorem length_rows_redirect (other : TableId) :
    ((draft.redirect table row column index).rows other).length = (draft.rows other).length := by
  unfold redirect
  dsimp only
  split <;> simp

/-- The cell is there and has the other value. -/
theorem rows_redirect_self {cells : List Nat} (hcells : (draft.rows table)[row - 1]? = some cells) :
    ((draft.redirect table row column index).rows table)[row - 1]? =
      some (cells.set column index) := by
  simp [redirect, hcells]

/-- Every other cell has its value. -/
theorem rows_redirect {other : TableId} {place number : Nat} {cells : List Nat} {cell : Nat}
    (hplace : 1 ≤ place) (hrow : 1 ≤ row) (hcells : (draft.rows other)[place - 1]? = some cells)
    (hcell : cells[number]? = some cell) (hne : (other, place, number) ≠ (table, row, column)) :
    ∃ kept, ((draft.redirect table row column index).rows other)[place - 1]? = some kept ∧
      kept[number]? = some cell := by
  by_cases htable : other = table ∧ place = row
  · obtain ⟨rfl, rfl⟩ := htable
    have hnumber : column ≠ number := by
      rintro rfl
      exact hne rfl
    exact ⟨_, rows_redirect_self hcells, by rw [List.getElem?_set_ne hnumber, hcell]⟩
  · refine ⟨cells, ?_, hcell⟩
    unfold redirect
    dsimp only
    split
    case isTrue hother =>
      have hplaces : row - 1 ≠ place - 1 := fun heq => htable ⟨hother, by omega⟩
      simp [hplaces, hcells]
    case isFalse => exact hcells

/-- Metadata of two drafts differ in the cell that the drafts differ in. -/
theorem Holds.redirected {metadata changed : ImageMetadata} (holds : Holds metadata draft)
    (others : Holds changed (draft.redirect table row column index)) (hrow : 1 ≤ row)
    (hcount : row ≤ (draft.rows table).length) (hcolumn : column < table.columns.length)
    (hresources : draft.rows .manifestResource = []) :
    metadata.Redirected changed table row column index := by
  have hlength {other : TableId} {place : Nat} {cells : List Nat}
      (hcells : (draft.rows other)[place]? = some cells) :
      cells.length = other.columns.length := by
    have hall := holds.fits.cell_lt other cells (List.mem_of_getElem? hcells)
    rw [← hall.length_eq, TableId.smallWidths, List.length_map]
  have hcount' (other : TableId) : changed.tables.rows other = metadata.tables.rows other := by
    rw [others.rows, holds.rows, length_rows_redirect]
  constructor
  case rowCount => exact hcount'
  case cell =>
    obtain ⟨cells, hat⟩ : ∃ cells, (draft.rows table)[row - 1]? = some cells :=
      ⟨_, List.getElem?_eq_getElem (by omega)⟩
    refine (others.rowHolds hrow (rows_redirect_self hat)).value ?_
    rw [List.getElem?_set_self (by rw [hlength hat]; exact hcolumn)]
  case others =>
    intro other place number hplace hbound hnumber hne
    rw [holds.rows] at hbound
    obtain ⟨cells, hat⟩ : ∃ cells, (draft.rows other)[place - 1]? = some cells :=
      ⟨_, List.getElem?_eq_getElem (by omega)⟩
    obtain ⟨cell, hcell⟩ : ∃ cell, cells[number]? = some cell :=
      ⟨_, List.getElem?_eq_getElem (by rw [hlength hat]; exact hnumber)⟩
    obtain ⟨kept, hkept, hsame⟩ : ∃ kept,
        ((draft.redirect table row column index).rows other)[place - 1]? = some kept ∧
          kept[number]? = some cell := rows_redirect hplace hrow hat hcell hne
    rw [(holds.rowHolds hplace hat).value hcell, (others.rowHolds hplace hkept).value hsame]
  case strings => exact others.strings.trans holds.strings.symm
  case blobs => exact others.blobs.trans holds.blobs.symm
  case guids => exact others.guids.trans holds.guids.symm
  case runtimeVersion => exact others.runtimeVersion.trans holds.runtimeVersion.symm
  case entryPoint => exact others.entryPoint.trans holds.entryPoint.symm
  case resourceLength =>
    intro place offset hvalue
    rw [ImageMetadata.value_of_no_row (by rw [holds.rows, hresources, List.length_nil]; omega)]
      at hvalue
    cases hvalue

/-- Two files that are written from the same rows, but for one cell. -/
theorem exists_redirected (hfits : draft.Fits)
    (hchanged : (draft.redirect table row column index).Fits) (hrow : 1 ≤ row)
    (hcount : row ≤ (draft.rows table).length) (hcolumn : column < table.columns.length)
    (hresources : draft.rows .manifestResource = []) :
    ∃ metadata changed, ImageMetadata.ofBytes draft.bytes.toArray = .ok metadata ∧
      ImageMetadata.ofBytes (draft.redirect table row column index).bytes.toArray = .ok changed ∧
      Holds metadata draft ∧ Holds changed (draft.redirect table row column index) ∧
      metadata.Redirected changed table row column index := by
  obtain ⟨metadata, hmetadata, holds⟩ := exists_ofBytes hfits
  obtain ⟨changed, hother, others⟩ := exists_ofBytes hchanged
  exact ⟨metadata, changed, hmetadata, hother, holds, others,
    holds.redirected others hrow hcount hcolumn hresources⟩

end ImageDraft
end AssemblyBrowser
