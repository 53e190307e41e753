import Mathlib.Algebra.Group.Action.Defs
import Mathlib.Algebra.Order.BigOperators.Group.List
import Mathlib.Algebra.Order.Ring.Nat
import AssemblyBrowser.Proofs.Codec.Reads
import AssemblyBrowser.Proofs.Codec.TableSchema
import AssemblyBrowser.Proofs.Outcomes
import AssemblyBrowser.Proofs.Safety.Metadata

/-!
# Table streams are read back

A writer puts the cells of all tables one after another, each at the width that
the standard gives its column. The decoder only knows the numbers of rows and
three flags, and computes every place from them. The sums of widths that it
takes are the lengths of what the writer has put in front of a cell, so that
every cell is found, whatever tables there are and however wide their columns.
-/

namespace AssemblyBrowser

/-!
## What is written
-/

/-- What a writer puts into a table stream; tables go by their numbers. -/
structure TableContent where
  reserved : UInt32
  majorVersion : UInt8
  minorVersion : UInt8
  largeStrings : Bool
  largeGuids : Bool
  largeBlobs : Bool
  filler : UInt8
  /-- The set of the tables that the stream has, as a number. -/
  present : Nat
  sorted : UInt64
  extraData : Option UInt32
  rows : (table : Nat) → List (List Nat)

namespace TableContent

def shape (content : TableContent) : StreamShape where
  largeStrings := content.largeStrings
  largeGuids := content.largeGuids
  largeBlobs := content.largeBlobs
  rowCount table := (content.rows table).length

def widths (content : TableContent) (table : Nat) : List Nat :=
  (StandardColumn.ofTable table).map (StandardColumn.width content.shape)

/-- The content can be written: a stream has 45 tables, and what is counted or stored has room. -/
structure Fits (content : TableContent) : Prop where
  present_lt : content.present < 2 ^ 45
  present_of_rows : ∀ table, content.rows table ≠ [] → content.present.testBit table = true
  rowCount_lt : ∀ table, (content.rows table).length < 2 ^ 32
  cell_lt : ∀ table, ∀ row ∈ content.rows table,
    List.Forall₂ (fun width cell => cell < Nat.pow 256 width) (content.widths table) row

/-- The flags of large heaps and of extra data. -/
def flags (content : TableContent) : UInt8 :=
  UInt8.ofNat (0x01 * content.largeStrings.toNat + 0x02 * content.largeGuids.toNat
    + 0x04 * content.largeBlobs.toNat + 0x40 * content.extraData.isSome.toNat)

/-- The number of rows of a table, if the stream has the table. -/
def countBytes (content : TableContent) (table : Nat) : List UInt8 :=
  if content.present.testBit table then Bytes.ofLittleEndian 4 (content.rows table).length else []

def extraBytes (content : TableContent) : List UInt8 :=
  match content.extraData with
  | some extra => Bytes.ofLittleEndian 4 extra.toNat
  | none => []

end TableContent

/-- Cells side by side. -/
def rowBytes (widths row : List Nat) : List UInt8 :=
  (List.zipWith Bytes.ofLittleEndian widths row).flatten

namespace TableContent

def tableBytes (content : TableContent) (table : Nat) : List UInt8 :=
  (content.rows table).flatMap (rowBytes (content.widths table))

/-- All that stands in front of the extra data and the rows. -/
def headerBytes (content : TableContent) : List UInt8 :=
  Bytes.ofLittleEndian 4 content.reserved.toNat ++
    [content.majorVersion, content.minorVersion, content.flags, content.filler] ++
    Bytes.ofLittleEndian 8 content.present ++ Bytes.ofLittleEndian 8 content.sorted.toNat ++
    (List.range 45).flatMap content.countBytes

def bytes (content : TableContent) : List UInt8 :=
  content.headerBytes ++ (content.extraBytes ++ (List.range 45).flatMap content.tableBytes)

end TableContent

/-!
## Where cells stand in what is written
-/

theorem rowBytes_length {widths row : List Nat}
    (h : List.Forall₂ (fun width cell => cell < Nat.pow 256 width) widths row) :
    (rowBytes widths row).length = widths.sum := by
  induction h with
  | nil => rfl
  | cons _ _ ih =>
      rw [rowBytes, List.zipWith_cons_cons, List.flatten_cons, List.length_append,
        Bytes.ofLittleEndian_length, List.sum_cons]
      exact congrArg _ ih

/-- In front of a cell stand the columns before its own. -/
theorem rowBytes_split {widths row : List Nat}
    (h : List.Forall₂ (fun width cell => cell < Nat.pow 256 width) widths row) {i cell : Nat}
    (hcell : row[i]? = some cell) :
    ∃ width before after, widths[i]? = some width ∧ cell < Nat.pow 256 width ∧
      rowBytes widths row = before ++ Bytes.ofLittleEndian width cell ++ after ∧
      before.length = (widths.take i).sum := by
  induction h generalizing i with
  | nil => simp at hcell
  | @cons width value widths row hlt _ ih =>
      cases i with
      | zero =>
          rw [List.getElem?_cons_zero, Option.some.injEq] at hcell
          subst hcell
          exact ⟨width, [], rowBytes widths row, rfl, hlt, rfl, rfl⟩
      | succ i =>
          obtain ⟨found, before, after, hfound, hroom, hbytes, hbefore⟩ := ih hcell
          refine ⟨found, Bytes.ofLittleEndian width value ++ before, after, hfound, hroom, ?_, ?_⟩
          · simp only [List.append_assoc] at hbytes ⊢
            exact congrArg _ hbytes
          · rw [List.length_append, Bytes.ofLittleEndian_length, hbefore, List.take_succ_cons,
              List.sum_cons]

/-- In front of an item stand as many others of one length as its index says. -/
theorem flatMap_split {α : Type} {write : α → List UInt8} {length : Nat} {items : List α}
    (h : ∀ item ∈ items, (write item).length = length) {i : Nat} {item : α}
    (hitem : items[i]? = some item) :
    ∃ before after, items.flatMap write = before ++ write item ++ after ∧
      before.length = i * length := by
  induction items generalizing i with
  | nil => simp at hitem
  | cons first rest ih =>
      cases i with
      | zero =>
          rw [List.getElem?_cons_zero, Option.some.injEq] at hitem
          subst hitem
          exact ⟨[], rest.flatMap write, rfl, (Nat.zero_mul length).symm⟩
      | succ i =>
          obtain ⟨before, after, hbytes, hbefore⟩ :=
            ih (fun item hmem => h item (List.mem_cons_of_mem _ hmem)) hitem
          refine ⟨write first ++ before, after, ?_, ?_⟩
          · rw [List.flatMap_cons, hbytes]
            simp only [List.append_assoc]
          · rw [List.length_append, hbefore, h first List.mem_cons_self, Nat.add_one_mul,
              Nat.add_comm]

theorem flatMap_length {α : Type} {write : α → List UInt8} {length : Nat} {items : List α}
    (h : ∀ item ∈ items, (write item).length = length) :
    (items.flatMap write).length = length * items.length := by
  rw [List.length_flatMap, List.map_congr_left h, List.map_const', List.sum_replicate,
    smul_eq_mul, Nat.mul_comm]

theorem TableContent.Fits.tableBytes_length {content : TableContent} (h : content.Fits)
    (table : Nat) :
    (content.tableBytes table).length =
      (content.widths table).sum * (content.rows table).length :=
  flatMap_length fun row hmem => rowBytes_length (h.cell_lt table row hmem)

/-!
## Where the decoder looks
-/

namespace TableLayout

variable {sizes : TableSizes}

/-- The layout is the one of a table whose rows begin at `start`. -/
structure StandsAt (layout : TableLayout) (sizes : TableSizes) (table : TableId) (start : Nat) :
    Prop where
  rows : layout.rows = sizes.rows table
  start : layout.start = start
  rowWidth : layout.rowWidth = (sizes.widths table).sum
  columns_size : layout.columns.size = table.columns.length
  column : ∀ {i width : Nat}, (sizes.widths table)[i]? = some width →
    layout.columns[i]? = some ⟨((sizes.widths table).take i).sum, width⟩

theorem placeColumns_eq (sizes : TableSizes) (columns : List Column) (offset : Nat)
    (hroom : offset + 4 * columns.length < UInt32.size) :
    ∃ placed, placeColumns sizes offset columns =
        .ok (placed, offset + (columns.map sizes.width).sum) ∧
      placed.length = columns.length ∧
      ∀ {i width : Nat}, (columns.map sizes.width)[i]? = some width →
        placed[i]? = some ⟨offset + ((columns.map sizes.width).take i).sum, width⟩ := by
  induction columns generalizing offset with
  | nil => exact ⟨[], rfl, rfl, by simp⟩
  | cons column rest ih =>
      have hwidth : sizes.width column ≤ 4 := width_le sizes column
      rw [List.length_cons] at hroom
      obtain ⟨placed, hplaced, hlength, hcolumns⟩ := ih (offset + sizes.width column) (by omega)
      refine ⟨⟨offset, sizes.width column⟩ :: placed, ?_, congrArg (· + 1) hlength, ?_⟩
      · refine Outcome.bind_eq_ok.mpr
          ⟨_, Bounded.add_eq_ok (Bounded.lt_positions_of_lt (by omega)), ?_⟩
        refine Outcome.bind_eq_ok.mpr ⟨_, hplaced, ?_⟩
        rw [List.map_cons, List.sum_cons, ← Nat.add_assoc]
        rfl
      · intro i width hcolumn
        cases i with
        | zero =>
            rw [List.map_cons, List.getElem?_cons_zero, Option.some.injEq] at hcolumn
            subst hcolumn
            rfl
        | succ i =>
            rw [List.getElem?_cons_succ, hcolumns hcolumn, List.map_cons, List.take_succ_cons,
              List.sum_cons, Nat.add_assoc]

theorem sum_widths_le (sizes : TableSizes) (table : TableId) : (sizes.widths table).sum ≤ 36 := by
  have hcount : table.columns.length ≤ 9 := columns_length_le table
  have hsum := List.sum_le_card_nsmul (sizes.widths table) 4 (by
    intro width hmem
    obtain ⟨column, -, rfl⟩ := List.mem_map.mp hmem
    exact width_le sizes column)
  rw [TableSizes.widths, List.length_map, smul_eq_mul] at hsum
  unfold TableSizes.widths
  omega

/-- The number of bytes of a table. -/
def extent (sizes : TableSizes) (table : TableId) : Nat :=
  (sizes.widths table).sum * sizes.rows table

theorem extent_le {table : TableId} (hrows : sizes.rows table < UInt32.size) :
    extent sizes table ≤ maxLength :=
  Nat.mul_le_mul (sum_widths_le sizes table) (Nat.le_of_lt hrows)

theorem ofTable_eq {table : TableId} (start : Nat) (hrows : sizes.rows table < UInt32.size)
    (hroom : start + maxLength < Bounded.positions) :
    ∃ layout, ofTable sizes start table = .ok (layout, start + extent sizes table) ∧
      layout.StandsAt sizes table start := by
  have hcount : table.columns.length ≤ 9 := columns_length_le table
  have hword : UInt32.size = 4294967296 := rfl
  have hextent := extent_le hrows
  obtain ⟨placed, hplaced, hlength, hcolumns⟩ := placeColumns_eq sizes table.columns 0 (by omega)
  rw [Nat.zero_add] at hplaced
  refine ⟨⟨sizes.rows table, start, (sizes.widths table).sum, placed.toArray⟩, ?_,
    ⟨rfl, rfl, rfl, hlength, ?_⟩⟩
  · refine Outcome.bind_eq_ok.mpr ⟨_, hplaced, ?_⟩
    refine Outcome.bind_eq_ok.mpr ⟨extent sizes table, Bounded.multiply_eq_ok ?_, ?_⟩
    · change extent sizes table < _
      omega
    · exact Outcome.bind_eq_ok.mpr ⟨_, Bounded.add_eq_ok (by omega), rfl⟩
  · intro i width hwidth
    rw [List.getElem?_toArray, hcolumns hwidth, Nat.zero_add]
    rfl

/-- Tables stand one after another, and a table is placed once. -/
theorem place_eq (hrows : ∀ table, sizes.rows table < UInt32.size) {tables : List TableId}
    (hnodup : tables.Nodup) (layouts : PerTable TableLayout) (start : Nat)
    (hroom : start + tables.length * maxLength < Bounded.positions) :
    ∃ placed, place sizes layouts start tables =
        .ok (placed, start + (tables.map (extent sizes)).sum) ∧
      (∀ table, table ∉ tables → placed.look table = layouts.look table) ∧
      ∀ before table after, tables = before ++ table :: after →
        (placed.look table).StandsAt sizes table (start + (before.map (extent sizes)).sum) := by
  induction tables generalizing layouts start with
  | nil =>
      refine ⟨layouts, rfl, fun _ _ => rfl, ?_⟩
      intro before table after h
      exact absurd h (by simp)
  | cons first rest ih =>
      obtain ⟨hfirst, hrest⟩ := List.nodup_cons.mp hnodup
      rw [List.length_cons, Nat.add_one_mul] at hroom
      have hextent := extent_le (hrows first)
      obtain ⟨layout, hlayout, hstands⟩ :=
        ofTable_eq start (hrows first) (by omega)
      obtain ⟨placed, hplaced, hothers, hsplit⟩ :=
        ih hrest (layouts.put first layout) (start + extent sizes first) (by omega)
      refine ⟨placed, ?_, ?_, ?_⟩
      · refine Outcome.bind_eq_ok.mpr ⟨_, hlayout, ?_⟩
        rw [List.map_cons, List.sum_cons, ← Nat.add_assoc]
        exact hplaced
      · intro table hmem
        rw [List.mem_cons, not_or] at hmem
        rw [hothers table hmem.2, PerTable.look_put_of_ne _ _ (Ne.symm hmem.1)]
      · intro before table after h
        cases before with
        | nil =>
            obtain ⟨rfl, -⟩ := List.cons.inj h
            rw [hothers first hfirst, PerTable.look_put_self]
            exact hstands
        | cons other before =>
            obtain ⟨rfl, htail⟩ := List.cons.inj h
            rw [List.map_cons, List.sum_cons, ← Nat.add_assoc]
            exact hsplit before table after htail

end TableLayout

/-!
## The header
-/

theorem TableContent.flags_testBit (content : TableContent) :
    content.flags.toNat.testBit 0 = content.largeStrings ∧
      content.flags.toNat.testBit 1 = content.largeGuids ∧
      content.flags.toNat.testBit 2 = content.largeBlobs ∧
      content.flags.toNat.testBit 6 = content.extraData.isSome := by
  unfold flags
  generalize content.largeStrings = strings, content.largeGuids = guids,
    content.largeBlobs = blobs, content.extraData.isSome = extra
  revert strings guids blobs extra
  decide

theorem TableId.numbers_all : all.map number = List.range 45 := by decide

theorem TableId.nodup_all : all.Nodup := by decide

namespace TableStream

open Decoder

variable {content : TableContent}

/-- The counts of the tables that the stream has are read, and no others. -/
theorem reads_rowCounts (hfits : content.Fits) (tables : List TableId) (counts : PerTable Nat) :
    ∃ read, Reads (decodeRowCounts content.present counts tables)
        (tables.flatMap fun table => content.countBytes table.number) read ∧
      ∀ table, read.look table =
        if table ∈ tables ∧ content.present.testBit table.number = true then
          (content.rows table.number).length
        else counts.look table := by
  induction tables generalizing counts with
  | nil => exact ⟨counts, reads_pure counts, fun table => by simp⟩
  | cons first rest ih =>
      by_cases hpresent : content.present.testBit first.number = true
      · obtain ⟨read, hread, hlook⟩ := ih (counts.put first (content.rows first.number).length)
        refine ⟨read, ?_, fun table => ?_⟩
        · rw [decodeRowCounts, if_pos hpresent, List.flatMap_cons, TableContent.countBytes,
            if_pos hpresent]
          exact reads_bind (reads_unsigned (hfits.rowCount_lt first.number)) hread
        · rw [hlook]
          by_cases heq : first = table
          · subst heq
            simp [hpresent]
          · rw [PerTable.look_put_of_ne _ _ heq]
            simp [Ne.symm heq]
      · obtain ⟨read, hread, hlook⟩ := ih counts
        refine ⟨read, ?_, fun table => ?_⟩
        · rw [decodeRowCounts, if_neg hpresent, List.flatMap_cons, TableContent.countBytes,
            if_neg hpresent]
          exact hread
        · rw [hlook]
          by_cases heq : first = table
          · subst heq
            simp [hpresent]
          · simp [Ne.symm heq]

/-- The header tells how many rows each table has; one that it leaves out has none. -/
theorem reads_allRowCounts (hfits : content.Fits) :
    ∃ counts, Reads (decodeRowCounts content.present (Vector.replicate TableId.count 0)
        TableId.all) ((List.range 45).flatMap content.countBytes) counts ∧
      ∀ table, counts.look table = (content.rows table.number).length := by
  obtain ⟨counts, hcounts, hlook⟩ :=
    reads_rowCounts hfits TableId.all (Vector.replicate TableId.count 0)
  rw [← List.flatMap_map TableId.number content.countBytes, TableId.numbers_all] at hcounts
  refine ⟨counts, hcounts, fun table => ?_⟩
  rw [hlook]
  split
  case isTrue => rfl
  case isFalse h =>
    have hempty : content.rows table.number = [] := by
      by_contra hne
      exact h ⟨table.mem_all, hfits.present_of_rows _ hne⟩
    rw [hempty]
    exact look_replicate ..

/-- The sizes that a decoder takes from a header with the given row counts. -/
def sizesOf (content : TableContent) (rowCounts : PerTable Nat) : TableSizes :=
  ⟨content.largeStrings, content.largeGuids, content.largeBlobs, rowCounts⟩

/-- What the decoder does behind the row counts. -/
def placeTables (majorVersion minorVersion : Nat) (sizes : TableSizes) (extraData : Bool) :
    Decoder TableStream := do
  let cursor ← get
  let start ←
    if extraData then Decoder.ofExcept (Bounded.add Bounded.positions cursor.pos 4)
    else pure cursor.pos
  let (layouts, stop) ←
    Decoder.ofExcept
      (TableLayout.place sizes (Vector.replicate TableId.count {}) start TableId.all)
  if cursor.data.size < stop then throw .outOfBounds
  return { data := cursor.data, majorVersion, minorVersion, layouts }

theorem run_header (hfits : content.Fits) (after : List UInt8) :
    ∃ rowCounts, (sizesOf content rowCounts).Describes content.shape ∧
      decoder.run (.between [] (content.headerBytes ++ after)) =
        (placeTables content.majorVersion.toNat content.minorVersion.toNat
          (sizesOf content rowCounts) content.extraData.isSome).run
            (.between content.headerBytes after) := by
  obtain ⟨counts, hcounts, hrows⟩ := reads_allRowCounts hfits
  refine ⟨counts, ⟨rfl, rfl, rfl, hrows⟩, ?_⟩
  have hreserved : Reads (advance 4) (Bytes.ofLittleEndian 4 content.reserved.toNat) () :=
    reads_advance _
  have hbyte (b : UInt8) : Reads (unsigned 1) [b] b.toNat := reads_byte b
  have hfiller : Reads (advance 1) [content.filler] () := reads_advance _
  have hpresent : Reads (unsigned 8) (Bytes.ofLittleEndian 8 content.present) content.present :=
    reads_unsigned (Nat.lt_trans hfits.present_lt (by decide))
  have hsorted : Reads (unsigned 8) (Bytes.ofLittleEndian 8 content.sorted.toNat)
      content.sorted.toNat := reads_unsigned content.sorted.toNat_lt
  have hvalid : ¬ Nat.pow 2 TableId.count ≤ content.present := Nat.not_le.mpr hfits.present_lt
  obtain ⟨hstrings, hguids, hblobs, hflag⟩ := content.flags_testBit
  have hbytes : content.headerBytes ++ after = Bytes.ofLittleEndian 4 content.reserved.toNat ++
      ([content.majorVersion] ++ ([content.minorVersion] ++ ([content.flags] ++
        ([content.filler] ++ (Bytes.ofLittleEndian 8 content.present ++
          (Bytes.ofLittleEndian 8 content.sorted.toNat ++
            ((List.range 45).flatMap content.countBytes ++ after))))))) := by
    simp only [TableContent.headerBytes, List.append_assoc, List.cons_append, List.nil_append]
  rw [hbytes]
  unfold decoder
  rw [run_bind (hreserved _ _), run_bind (hbyte _ _ _), run_bind (hbyte _ _ _),
    run_bind (hbyte _ _ _), run_bind (hfiller _ _), run_bind (hpresent _ _),
    run_bind (hsorted _ _)]
  dsimp only
  rw [if_neg hvalid, run_bind (hcounts _ _), hstrings, hguids, hblobs, hflag]
  simp only [TableContent.headerBytes, List.append_assoc, List.cons_append, List.nil_append]
  rfl

theorem run_placeTables {majorVersion minorVersion start stop : Nat} {sizes : TableSizes}
    {extraData : Bool} {before after : List UInt8} {placed : PerTable TableLayout}
    (hstart : start = before.length + if extraData then 4 else 0)
    (hroom : start < Bounded.positions)
    (hplaced : TableLayout.place sizes (Vector.replicate TableId.count {}) start TableId.all =
      .ok (placed, stop))
    (hstop : stop ≤ (before ++ after).length) :
    (placeTables majorVersion minorVersion sizes extraData).run (.between before after) =
      .ok { data := (before ++ after).toArray, majorVersion, minorVersion, layouts := placed }
        (.between before after) := by
  have hsize : ¬ (Cursor.between before after).data.size < stop := by
    rw [Cursor.between, List.size_toArray]
    exact Nat.not_lt.mpr hstop
  unfold placeTables
  rw [run_get]
  cases extraData with
  | true =>
      have hbegin : (Bounded.add Bounded.positions (Cursor.between before after).pos 4) =
          .ok start := by
        rw [hstart] at hroom ⊢
        exact Bounded.add_eq_ok hroom
      dsimp only
      rw [if_pos rfl, run_bind (run_ofExcept hbegin _), run_bind (run_ofExcept hplaced _)]
      dsimp only
      rw [if_neg hsize]
      rfl
  | false =>
      have hbegin : (pure (Cursor.between before after).pos : Decoder Nat).run
          (.between before after) = .ok start (.between before after) := by
        rw [hstart]
        rfl
      dsimp only
      rw [if_neg (by decide), run_bind hbegin, run_bind (run_ofExcept hplaced _)]
      dsimp only
      rw [if_neg hsize]
      rfl

theorem extent_eq (hfits : content.Fits) {sizes : TableSizes}
    (hsizes : sizes.Describes content.shape) (table : TableId) :
    TableLayout.extent sizes table = (content.tableBytes table.number).length := by
  rw [hfits.tableBytes_length, TableLayout.extent, TableSizes.widths_eq hsizes, hsizes.rows]
  rfl

/-- Tables are as long together as their extents say. -/
theorem flatMap_tableBytes_length (hfits : content.Fits) {sizes : TableSizes}
    (hsizes : sizes.Describes content.shape) (tables : List TableId) :
    ((tables.map TableId.number).flatMap content.tableBytes).length =
      (tables.map (TableLayout.extent sizes)).sum := by
  rw [List.flatMap_map, List.length_flatMap]
  exact congrArg _ (List.map_congr_left fun table _ => (extent_eq hfits hsizes table).symm)

theorem start_le (content : TableContent) :
    content.headerBytes.length + (if content.extraData.isSome = true then 4 else 0) ≤ 208 := by
  have hcounts := List.sum_le_card_nsmul
    ((List.range 45).map fun table => (content.countBytes table).length) 4 (by
      intro length hmem
      obtain ⟨table, -, rfl⟩ := List.mem_map.mp hmem
      unfold TableContent.countBytes
      split
      · exact Nat.le_of_eq (Bytes.ofLittleEndian_length 4 _)
      · exact Nat.zero_le 4)
  rw [List.length_map, List.length_range, smul_eq_mul] at hcounts
  simp only [TableContent.headerBytes, List.length_append, Bytes.ofLittleEndian_length,
    List.length_flatMap, List.length_cons, List.length_nil]
  split <;> omega

theorem extraBytes_length (content : TableContent) :
    content.extraBytes.length = if content.extraData.isSome = true then 4 else 0 := by
  unfold TableContent.extraBytes
  cases content.extraData with
  | none => rfl
  | some extra => exact Bytes.ofLittleEndian_length 4 _

/-- The decoder accepts what is written, and places the tables where they stand. -/
theorem decode_bytes (hfits : content.Fits) (rest : List UInt8) :
    ∃ stream sizes, decode (content.bytes ++ rest).toArray = .ok stream ∧
      TableSizes.Describes sizes content.shape ∧
      stream.data = (content.bytes ++ rest).toArray ∧
      ∀ before table after, TableId.all = before ++ table :: after →
        (stream.layout table).StandsAt sizes table
          ((content.headerBytes ++ content.extraBytes).length +
            (before.map (TableLayout.extent sizes)).sum) := by
  let after := content.extraBytes ++ ((List.range 45).flatMap content.tableBytes ++ rest)
  obtain ⟨counts, hsizes, hheader⟩ := run_header hfits after
  have hrows (table : TableId) : (sizesOf content counts).rows table < UInt32.size := by
    rw [hsizes.rows]
    exact hfits.rowCount_lt table.number
  have hstart : (content.headerBytes ++ content.extraBytes).length =
      content.headerBytes.length + if content.extraData.isSome = true then 4 else 0 := by
    rw [List.length_append, extraBytes_length]
  have hle := hstart ▸ start_le content
  obtain ⟨placed, hplaced, -, hstands⟩ := TableLayout.place_eq hrows TableId.nodup_all
    (Vector.replicate TableId.count {}) (content.headerBytes ++ content.extraBytes).length
    (Nat.lt_of_le_of_lt (Nat.add_le_add_right hle _) (by decide))
  have hbytes : content.bytes ++ rest = content.headerBytes ++ after := by
    simp only [TableContent.bytes, after, List.append_assoc]
  have hstop : (content.headerBytes ++ content.extraBytes).length +
      (TableId.all.map (TableLayout.extent (sizesOf content counts))).sum ≤
        (content.headerBytes ++ after).length := by
    rw [← flatMap_tableBytes_length hfits hsizes, TableId.numbers_all]
    simp only [after, List.length_append]
    omega
  have hrun := hheader.trans
    (run_placeTables hstart (Nat.lt_of_le_of_lt hle (by decide)) hplaced hstop)
  rw [hbytes]
  exact ⟨_, sizesOf content counts, parse_of_run ⟨_, hrun⟩, hsizes, rfl, hstands⟩

/-!
## Cells
-/

theorem bytes_length_lt (hfits : content.Fits) {sizes : TableSizes}
    (hsizes : sizes.Describes content.shape) : content.bytes.length < Bounded.positions := by
  have hextents := List.sum_le_card_nsmul (TableId.all.map (TableLayout.extent sizes))
    TableLayout.maxLength (by
      intro extent hmem
      obtain ⟨table, -, rfl⟩ := List.mem_map.mp hmem
      refine TableLayout.extent_le ?_
      rw [hsizes.rows]
      exact hfits.rowCount_lt table.number)
  rw [← flatMap_tableBytes_length hfits hsizes, TableId.numbers_all, List.length_map,
    smul_eq_mul] at hextents
  have hstart := start_le content
  have hroom : 208 + TableId.all.length * TableLayout.maxLength < Bounded.positions := by decide
  rw [TableContent.bytes, List.length_append, List.length_append, extraBytes_length]
  omega

/-- A cell stands where the widths and the rows in front of it end. -/
theorem bytes_split (hfits : content.Fits) {table : TableId} {before after : List TableId}
    (hall : TableId.all = before ++ table :: after) {i j cell : Nat} {row : List Nat}
    (hrow : (content.rows table.number)[i]? = some row) (hcell : row[j]? = some cell) :
    ∃ width pre post, (content.widths table.number)[j]? = some width ∧
      cell < Nat.pow 256 width ∧
      content.bytes = pre ++ Bytes.ofLittleEndian width cell ++ post ∧
      pre.length = (content.headerBytes ++ content.extraBytes).length +
        ((before.map TableId.number).flatMap content.tableBytes).length +
          i * (content.widths table.number).sum + ((content.widths table.number).take j).sum := by
  have hrowFits := hfits.cell_lt table.number row (List.mem_of_getElem? hrow)
  obtain ⟨width, cellsBefore, cellsAfter, hwidth, hroom, hcells, hcellsBefore⟩ :=
    rowBytes_split hrowFits hcell
  obtain ⟨rowsBefore, rowsAfter, hrows, hrowsBefore⟩ := flatMap_split
    (fun row hmem => rowBytes_length (hfits.cell_lt table.number row hmem)) hrow
  let tablesBefore := (before.map TableId.number).flatMap content.tableBytes
  let tablesAfter := (after.map TableId.number).flatMap content.tableBytes
  have htables : (List.range 45).flatMap content.tableBytes =
      tablesBefore ++ content.tableBytes table.number ++ tablesAfter := by
    rw [← TableId.numbers_all, hall, List.map_append, List.map_cons, List.flatMap_append,
      List.flatMap_cons, List.append_assoc]
  refine ⟨width, content.headerBytes ++ content.extraBytes ++ tablesBefore ++ rowsBefore ++
    cellsBefore, cellsAfter ++ rowsAfter ++ tablesAfter, hwidth, hroom, ?_, ?_⟩
  · rw [TableContent.bytes, htables, TableContent.tableBytes, hrows, hcells]
    simp only [List.append_assoc]
  · simp only [List.length_append, hrowsBefore, hcellsBefore, tablesBefore]

/-- The place that is computed for a cell is the one behind all that is in front of it. -/
theorem value_of_standsAt {stream : TableStream} {sizes : TableSizes} {table : TableId}
    {start i j width : Nat} (hat : (stream.layout table).StandsAt sizes table start)
    (hi : i < sizes.rows table) (hwidth : (sizes.widths table)[j]? = some width)
    (hroom : start + i * (sizes.widths table).sum + ((sizes.widths table).take j).sum <
      Bounded.positions) :
    stream.value table (i + 1) j =
      Bounded.unsignedAt stream.data
        (start + i * (sizes.widths table).sum + ((sizes.widths table).take j).sum) width := by
  have hinside : ¬ (i + 1 = 0 ∨ (stream.layout table).rows < i + 1) := by
    rw [hat.rows]
    omega
  unfold value
  dsimp only
  rw [if_neg hinside, hat.column hwidth]
  dsimp only
  rw [Bounded.subtract_eq_ok (Nat.le_add_left 1 i), Outcome.ok_bind, Nat.add_sub_cancel,
    hat.rowWidth, Bounded.multiply_eq_ok (by omega), Outcome.ok_bind, hat.start,
    Bounded.add_eq_ok (by omega), Outcome.ok_bind, Bounded.add_eq_ok hroom, Outcome.ok_bind]

/-- A cell of a written row is read back by a decoder that has placed its table. -/
theorem value_of_row (hfits : content.Fits) {rest : List UInt8} {stream : TableStream}
    {sizes : TableSizes} (hsizes : sizes.Describes content.shape)
    (hdata : stream.data = (content.bytes ++ rest).toArray) {table : TableId}
    {before after : List TableId} (hall : TableId.all = before ++ table :: after)
    (hat : (stream.layout table).StandsAt sizes table
      ((content.headerBytes ++ content.extraBytes).length +
        (before.map (TableLayout.extent sizes)).sum))
    {i j cell : Nat} {row : List Nat} (hrow : (content.rows table.number)[i]? = some row)
    (hcell : row[j]? = some cell) : stream.value table (i + 1) j = .ok cell := by
  obtain ⟨width, pre, post, hwidth, hroom, hbytes, hpre⟩ := bytes_split hfits hall hrow hcell
  have hpositions : pre.length < Bounded.positions := by
    have hlt := bytes_length_lt hfits hsizes
    rw [hbytes, List.length_append, List.length_append] at hlt
    omega
  have hwidths : sizes.widths table = content.widths table.number :=
    TableSizes.widths_eq hsizes table
  have hi : i < (content.rows table.number).length := (List.getElem?_eq_some_iff.mp hrow).1
  rw [flatMap_tableBytes_length hfits hsizes] at hpre
  rw [value_of_standsAt hat (by rw [hsizes.rows]; exact hi) (hwidths ▸ hwidth)
    (by rw [hwidths, ← hpre]; exact hpositions), hwidths, ← hpre, hdata, hbytes, List.append_assoc]
  exact Bounded.unsignedAt_middle pre (post ++ rest) hroom

theorem written_tables_read_back (content : TableContent) (hfits : content.Fits)
    (rest : List UInt8) :
    ∃ stream, decode (content.bytes ++ rest).toArray = .ok stream ∧
      ∀ table : TableId, stream.rows table = (content.rows table.number).length ∧
        ∀ (i j : Nat) (row : List Nat) (cell : Nat),
          (content.rows table.number)[i]? = some row → row[j]? = some cell →
            stream.value table (i + 1) j = .ok cell := by
  obtain ⟨stream, sizes, hdecode, hsizes, hdata, hstands⟩ := decode_bytes hfits rest
  refine ⟨stream, hdecode, fun table => ?_⟩
  obtain ⟨before, after, hall⟩ := List.append_of_mem table.mem_all
  have hat := hstands before table after hall
  exact ⟨hat.rows.trans (hsizes.rows table), fun i j row cell hrow hcell =>
    value_of_row hfits hsizes hdata hall hat hrow hcell⟩

/-- A signature and a nested type behind extra data, in a stream with a large heap of blobs. -/
def nestedContent : TableContent where
  reserved := 0
  majorVersion := 2
  minorVersion := 0
  largeStrings := false
  largeGuids := false
  largeBlobs := true
  filler := 1
  present := 2 ^ 0x1B + 2 ^ 0x29
  sorted := 0
  extraData := some 7
  rows
    | 0x1B => [[0x12345]]
    | 0x29 => [[2, 1]]
    | _ => []

theorem nestedContent_fits : nestedContent.Fits where
  present_lt := by decide
  present_of_rows table h := by
    unfold nestedContent at h ⊢
    dsimp only at h ⊢
    split at h
    · decide
    · decide
    · exact absurd rfl h
  rowCount_lt table := by
    unfold nestedContent
    dsimp only
    split <;> decide
  cell_lt table row hmem := by
    unfold nestedContent at hmem
    dsimp only at hmem
    split at hmem
    · rw [List.mem_singleton.mp hmem]
      decide
    · rw [List.mem_singleton.mp hmem]
      decide
    · cases hmem

theorem nested_tables_read_back :
    nestedContent.Fits ∧ ∃ stream, decode (nestedContent.bytes ++ [0, 0]).toArray = .ok stream ∧
      stream.value .typeSpec 1 0 = .ok 0x12345 ∧ stream.value .nestedClass 1 1 = .ok 1 := by
  obtain ⟨stream, hdecode, hread⟩ :=
    written_tables_read_back nestedContent nestedContent_fits [0, 0]
  exact ⟨nestedContent_fits, stream, hdecode, (hread .typeSpec).2 0 0 [0x12345] 0x12345 rfl rfl,
    (hread .nestedClass).2 0 1 [2, 1] 1 rfl rfl⟩

end TableStream
end AssemblyBrowser
