import AssemblyBrowser.Proofs.Codec.CodedIndexes
import AssemblyBrowser.Proofs.Images.Encoding
import AssemblyBrowser.Proofs.Images.Lists

/-!
# Rows are read as items

Tables are read row by row. Where the rows of a table encode items, what is done
for every row is done for every item, and a step that reads a row may rely on
the cells that the item has put there.

What a module says about itself, about its assembly and about the assemblies
that it refers to.
-/

namespace AssemblyBrowser

/-!
## Written rows
-/

namespace Written

variable {α : Type} {rows : List (List Nat)} {form : Nat → α → List Nat → Prop} {items : List α}

theorem length_eq (h : Written rows form items) : rows.length = items.length := by
  rw [← length_numbered items]
  exact (List.Forall₂.length_eq h).symm

/-- Every item has its row. -/
theorem exists_cells (h : Written rows form items) {row : Nat} {item : α}
    (hitem : itemAt? items row = some item) :
    ∃ cells, rows[row - 1]? = some cells ∧ form row item cells := by
  obtain ⟨hone, hat⟩ := itemAt?_eq_some.mp hitem
  have hlt := (List.getElem?_eq_some_iff.mp hat).1
  have hforms := List.forall₂_iff_get.mp h
  have hrow : row - 1 < rows.length := by
    rw [h.length_eq]
    exact hlt
  refine ⟨rows[row - 1], List.getElem?_eq_getElem hrow, ?_⟩
  have hform := hforms.2 (row - 1) (by rw [length_numbered]; exact hlt) hrow
  have hnumber : 1 + (row - 1) = row := by omega
  simpa only [numbered, List.get_eq_getElem, List.getElem_zipIdx, hnumber,
    (List.getElem?_eq_some_iff.mp hat).2] using hform

end Written

namespace ImageDraft

/-- A row of a table has these cells, and each has room in its column. -/
structure RowHolds (metadata : ImageMetadata) (table : TableId) (row : Nat) (cells : List Nat) :
    Prop where
  value : ∀ {column cell : Nat}, cells[column]? = some cell →
    metadata.tables.value table row column = .ok cell
  cell_lt : List.Forall₂ (fun width cell => cell < Nat.pow 256 width) table.smallWidths cells

variable {metadata : ImageMetadata} {draft : ImageDraft}

theorem Holds.rowHolds (holds : Holds metadata draft) {table : TableId} {row : Nat}
    {cells : List Nat} (hone : 1 ≤ row) (hcells : (draft.rows table)[row - 1]? = some cells) :
    RowHolds metadata table row cells where
  value hcell := by
    have hvalue := holds.value table (row - 1) _ _ _ hcells hcell
    rwa [Nat.sub_add_cancel hone] at hvalue
  cell_lt := holds.fits.cell_lt table cells (List.mem_of_getElem? hcells)

/-- A cell of a narrow column is below 2^16. -/
theorem RowHolds.word_lt {table : TableId} {row cell : Nat} {cells : List Nat}
    (h : RowHolds metadata table row cells) (column : Nat) (hcell : cells[column]? = some cell)
    (hwidth : table.smallWidths[column]? = some 2) : cell < UInt16.size := by
  obtain ⟨hcolumn, rfl⟩ := List.getElem?_eq_some_iff.mp hcell
  obtain ⟨hwidths, hnarrow⟩ := List.getElem?_eq_some_iff.mp hwidth
  have hlt := (List.forall₂_iff_get.mp h.cell_lt).2 column hwidths hcolumn
  rw [List.get_eq_getElem, List.get_eq_getElem, hnarrow] at hlt
  exact hlt

/-- A table has few rows if a row somewhere has room in two bytes for the index of any of them. -/
theorem Holds.rows_lt_of_row (holds : Holds metadata draft) {table target : TableId}
    (hrows : draft.rows table ≠ []) (hcolumn : Column.row target ∈ table.columns) :
    (draft.rows target).length < 0x10000 :=
  holds.fits.index table hrows _ hcolumn

theorem Holds.rows_lt_of_coded (holds : Holds metadata draft) {table target : TableId}
    (kind : CodedIndex) (hrows : draft.rows table ≠ [])
    (hcolumn : Column.coded kind ∈ table.columns) (htarget : some target ∈ kind.tables) :
    (draft.rows target).length < 0x10000 :=
  Nat.lt_of_lt_of_le (holds.fits.index table hrows _ hcolumn target htarget)
    (Nat.pow_le_pow_right (by decide) (Nat.sub_le 16 kind.tagBits))

section Reading

variable {table : TableId} {row column index : Nat} (holds : Holds metadata draft)

include holds

theorem Holds.string {text : String} (hindex : metadata.tables.value table row column = .ok index)
    (htext : draft.TextAt index text) (hplain : Plain text) :
    metadata.string table row column = .ok text := by
  unfold ImageMetadata.string
  rw [hindex, Outcome.ok_bind, holds.strings]
  exact Heap.string_of_textAt (htext.append _) hplain

theorem Holds.blob {bytes : List UInt8}
    (hindex : metadata.tables.value table row column = .ok index)
    (hblob : draft.BlobAt index bytes) : metadata.blob table row column = .ok bytes.toArray := by
  unfold ImageMetadata.blob
  rw [hindex, Outcome.ok_bind, holds.blobs]
  exact Heap.blob_of_blobAt (hblob.append _)

end Reading

/-!
## Whole tables
-/

section Tables

variable {α β : Type} {table : TableId} {items : List α} {form : Nat → α → List Nat → Prop}
  (holds : Holds metadata draft) (hwritten : Written (draft.rows table) form items)

include holds hwritten

theorem rows_written : metadata.rows table = (numbered items).map Prod.snd := by
  rw [ImageMetadata.rows, holds.rows, hwritten.length_eq, map_snd_numbered]

/-- What is read in every row is read for every item. -/
theorem mapM_written {f : Nat → Except Error β} {g : α → Nat → β}
    (hstep : ∀ row item cells, itemAt? items row = some item → form row item cells →
      RowHolds metadata table row cells → f row = .ok (g item row)) :
    (metadata.rows table).mapM f = .ok ((numbered items).map fun (item, row) => g item row) := by
  rw [rows_written holds hwritten, List.mapM_map]
  refine Outcome.mapM_of_forall fun (item, row) hmem => ?_
  have hitem := mem_numbered.mp hmem
  obtain ⟨cells, hcells, hform⟩ := hwritten.exists_cells hitem
  exact hstep row item cells hitem hform (holds.rowHolds (itemAt?_le hitem).1 hcells)

/-- What every row adds is added for every item. -/
theorem foldlM_written {f : β → Nat → Except Error β} {g : β → α → β}
    (hstep : ∀ row item cells, itemAt? items row = some item → form row item cells →
      RowHolds metadata table row cells → ∀ b, f b row = .ok (g b item)) (start : β) :
    (metadata.rows table).foldlM f start = .ok (items.foldl g start) := by
  rw [rows_written holds hwritten, List.foldlM_map]
  have hfold : (numbered items).foldlM (fun b item => f b item.2) start =
      .ok ((numbered items).foldl (fun b item => g b item.1) start) := by
    refine Outcome.foldlM_of_forall (fun (item, row) hmem b => ?_) start
    have hitem := mem_numbered.mp hmem
    obtain ⟨cells, hcells, hform⟩ := hwritten.exists_cells hitem
    exact hstep row item cells hitem hform (holds.rowHolds (itemAt?_le hitem).1 hcells) b
  rw [hfold, ← List.foldl_map (f := Prod.fst) (g := g), map_fst_numbered]

end Tables

/-- A table without rows gives nothing. -/
theorem rows_unused (holds : Holds metadata draft) {table : TableId}
    (h : draft.rows table = []) : metadata.rows table = [] := by
  rw [ImageMetadata.rows, holds.rows, h]
  rfl

end ImageDraft

/-!
## Identities are read back
-/

namespace ImageDraft

variable {metadata : ImageMetadata} {draft : ImageDraft} {table : TableId} {row : Nat}

/-!
## Versions and keys
-/

theorem RowHolds.versionPart {cells : List Nat} {column part : Nat}
    (h : RowHolds metadata table row cells) (hcell : cells[column]? = some part)
    (hwidth : table.smallWidths[column]? = some 2) :
    metadata.versionPart table row column = .ok part := by
  have hlt := h.word_lt column hcell hwidth
  have hword : UInt16.size = 0x10000 := rfl
  unfold ImageMetadata.versionPart
  rw [h.value hcell, Outcome.ok_bind, Nat.min_eq_left (by omega)]
  rfl

/-- A version stands in four columns side by side. -/
theorem RowHolds.version {cells before after : List Nat} {version : Version} {first : Nat}
    (h : RowHolds metadata table row cells)
    (hcells : cells = before ++
      version.major :: version.minor :: version.build :: version.revision :: after)
    (hfirst : before.length = first)
    (hwidths : ∀ column, first ≤ column → column < first + 4 →
      table.smallWidths[column]? = some 2) :
    metadata.version table row first = .ok version := by
  subst hcells hfirst
  have hpart (place part : Nat) (hplace : place < 4)
      (hat : (version.major :: version.minor :: version.build :: version.revision ::
        after)[place]? = some part) :
      metadata.versionPart table row (before.length + place) = .ok part := by
    refine h.versionPart ?_ (hwidths _ (Nat.le_add_right _ _) (by omega))
    rw [List.getElem?_append_right (Nat.le_add_right _ _), Nat.add_sub_cancel_left, hat]
  unfold ImageMetadata.version
  rw [← Nat.add_zero before.length, hpart 0 _ (by decide) rfl, Outcome.ok_bind, Nat.add_zero,
    hpart 1 _ (by decide) rfl, Outcome.ok_bind, hpart 2 _ (by decide) rfl, Outcome.ok_bind,
    hpart 3 _ (by decide) rfl, Outcome.ok_bind]
  rfl

/-- A key in the form of a reference is what its token is told from. -/
theorem publicKeyToken_of_form {key : KeyDraft} {flags : Nat} {bytes : List UInt8}
    (h : KeyForm key flags bytes) :
    (if flags.testBit ImageMetadata.wholeKeyBit then publicKeyToken? bytes.toArray
      else if bytes.toArray.size = 8 then some bytes.toArray else none) =
        key.publicKeyToken := by
  cases h with
  | absent hflag => simp [ImageMetadata.wholeKeyBit, hflag, KeyDraft.publicKeyToken]
  | token hflag =>
      simp only [ImageMetadata.wholeKeyBit, hflag, Bool.false_eq_true, if_false,
        List.size_toArray, Vector.length_toList, if_true, KeyDraft.publicKeyToken]
      rfl
  | whole hflag => simp [ImageMetadata.wholeKeyBit, hflag, KeyDraft.publicKeyToken]

theorem reference_eq (holds : Holds metadata draft) {reference : ReferenceDraft}
    {cells : List Nat} (hplain : Plain reference.name ∧ Plain reference.culture)
    (hform : draft.ReferenceRow reference cells)
    (hrow : RowHolds metadata .assemblyRef row cells) :
    metadata.reference row = .ok (ModuleDraft.shownReference reference row) := by
  cases hform with
  | @mk flags _ _ _ _ keyBytes hkeyForm hkey hname hculture =>
      have hversion : metadata.version .assemblyRef row 0 = .ok reference.version :=
        hrow.version (List.nil_append _).symm rfl (by decide)
      have hflags : metadata.tables.value .assemblyRef row 4 = .ok flags := hrow.value rfl
      unfold ImageMetadata.reference
      rw [hflags, Outcome.ok_bind, holds.blob (hrow.value rfl) hkey, Outcome.ok_bind]
      dsimp only
      rw [publicKeyToken_of_form hkeyForm, holds.string (hrow.value rfl) hname hplain.1,
        Outcome.ok_bind, hversion, Outcome.ok_bind,
        holds.string (hrow.value rfl) hculture hplain.2, Outcome.ok_bind]
      rfl

/-!
## What stands in the rows
-/

section Module

variable {module : ModuleDraft} {order : List AccessorDraft} (holds : Holds metadata draft)
  (encodes : draft.Encodes module order) (wellFormed : module.WellFormed)

include holds encodes wellFormed

theorem moduleHead_eq (name : String) :
    metadata.moduleHead name =
      .ok (if name.isEmpty then module.name else name, some ⟨module.mvid.toArray⟩) := by
  have hrows : metadata.tables.rows .module = 1 := by
    rw [holds.rows, encodes.modules.length_eq]
    rfl
  obtain ⟨cells, hcells, hform⟩ := encodes.modules.exists_cells
    (show itemAt? [module] 1 = some module from rfl)
  have hrow := holds.rowHolds (Nat.le_refl 1) hcells
  have hguid : Heap.guid metadata.guids 1 = .ok (some ⟨module.mvid.toArray⟩) := by
    have hsize : module.mvid.toArray.size = 16 := module.mvid.size_toArray
    have hbytes : Bytes.between? module.mvid.toArray 0 16 = some module.mvid.toArray := by
      rw [Bytes.between?, if_pos ⟨Nat.zero_le 16, Nat.le_of_eq hsize.symm⟩,
        Array.extract_eq_self_of_le (Nat.le_of_eq hsize)]
    unfold Heap.guid
    rw [if_neg Nat.one_ne_zero, Bounded.subtract_eq_ok (Nat.le_refl 1), Outcome.ok_bind,
      Bounded.multiply_eq_ok (by decide), Outcome.ok_bind, Bounded.add_eq_ok (by decide),
      Outcome.ok_bind, holds.guids, encodes.mvid]
    simp only [Nat.sub_self, Nat.zero_mul, Nat.zero_add, hbytes]
  cases hform with
  | mk hname =>
      unfold ImageMetadata.moduleHead
      rw [if_neg (by rw [hrows]; exact Nat.one_ne_zero),
        holds.string (hrow.value rfl) hname wellFormed.name, Outcome.ok_bind, hrow.value rfl,
        Outcome.ok_bind, hguid]
      rfl

theorem assembly?_eq : metadata.assembly? = .ok (module.assembly.map AssemblyDraft.identity) := by
  have hrows : metadata.tables.rows .assembly = module.assembly.toList.length := by
    rw [holds.rows, encodes.assemblies.length_eq]
  unfold ImageMetadata.assembly?
  cases hassembly : module.assembly with
  | none =>
      rw [hassembly, Option.toList_none, List.length_nil] at hrows
      rw [if_pos hrows]
      rfl
  | some assembly =>
      rw [hassembly, Option.toList_some, List.length_singleton] at hrows
      have hplain := wellFormed.assembly assembly hassembly
      obtain ⟨cells, hcells, hform⟩ := encodes.assemblies.exists_cells
        (show itemAt? module.assembly.toList 1 = some assembly by rw [hassembly]; rfl)
      have hrow := holds.rowHolds (Nat.le_refl 1) hcells
      cases hform with
      | mk hkey hname hculture =>
          have hversion : metadata.version .assembly 1 1 = .ok assembly.version :=
            hrow.version (List.singleton_append).symm rfl (by decide)
          rw [if_neg (by rw [hrows]; exact Nat.one_ne_zero), holds.blob (hrow.value rfl) hkey,
            Outcome.ok_bind, holds.string (hrow.value rfl) hname hplain.1, Outcome.ok_bind,
            hversion, Outcome.ok_bind, holds.string (hrow.value rfl) hculture hplain.2,
            Outcome.ok_bind]
          rfl

theorem references_eq : (metadata.rows .assemblyRef).mapM metadata.reference =
    .ok module.shownReferences :=
  mapM_written holds encodes.references fun _ _ _ hitem hform hrow =>
    reference_eq holds (wellFormed.references _ (itemAt?_mem hitem)) hform hrow

end Module

end ImageDraft
end AssemblyBrowser
