import AssemblyBrowser.Proofs.Codec.TableStreams

/-!
# Cells of accepted table streams

A decoder accepts a table stream after one comparison: the data is not shorter
than the header and all tables together. That is enough for every cell there is.
Cells are read inside the data and behind the header, and no two of them share a
byte, whichever tables there are and however many rows they have.
-/

namespace AssemblyBrowser

/-!
## What has been read
-/

namespace Decoder

variable {α : Type} {cursor after : Cursor}

theorem eq_of_run_advance {count : Nat} {nothing : Unit}
    (h : (advance count).run cursor = .ok nothing after) :
    after = { cursor with pos := cursor.pos + count } := by
  unfold advance at h
  rw [run_get] at h
  unfold seek at h
  rw [run_get] at h
  split at h
  · cases h
    rfl
  · cases h

theorem exists_run_of_parse {decoder : Decoder α} {data : Bytes} {value : α}
    (h : decoder.parse data = .ok value) : ∃ after, decoder.run { data } = .ok value after := by
  unfold parse at h
  split at h
  case h_1 found after hrun =>
    cases h
    exact ⟨after, hrun⟩
  case h_2 => cases h

theorem eq_of_run_unsigned {width n : Nat} (h : (unsigned width).run cursor = .ok n after) :
    n = Bytes.littleEndian (cursor.data.extract cursor.pos (cursor.pos + width)).toList ∧
      n < Nat.pow 256 width ∧ after = { cursor with pos := cursor.pos + width } := by
  obtain ⟨bytes, middle, htake, hvalue⟩ := exists_of_run_bind h
  unfold take at htake
  rw [run_get] at htake
  obtain ⟨slice, same, hslice, hset⟩ := exists_of_run_bind htake
  obtain ⟨hslice, hsame⟩ := eq_of_run_ofExcept hslice
  subst same
  rw [Bounded.slice_eq] at hslice
  split at hslice
  case isTrue hstop =>
    cases hslice
    cases hset
    cases hvalue
    have hlt := Bytes.littleEndian_lt
      (cursor.data.extract cursor.pos (cursor.pos + width)).toList
    rw [Array.length_toList, Array.size_extract_of_le hstop, Nat.add_sub_cancel_left] at hlt
    exact ⟨rfl, hlt, rfl⟩
  case isFalse => cases hslice

end Decoder

/-!
## Where the rows of all tables begin
-/

namespace TableStream

open Decoder

/-- The number of tables among the given ones that a set has, by their numbers. -/
def presentCount (present : Nat) (tables : List TableId) : Nat :=
  tables.countP fun table => present.testBit table.number

/-- The length of what stands in front of the rows: 24 bytes, a row count for each table that the
stream has, and extra data, if a flag says so. -/
def headerLength (data : Bytes) : Nat :=
  let flags := Bytes.littleEndian (data.extract 6 7).toList
  let present := Bytes.littleEndian (data.extract 8 16).toList
  24 + 4 * presentCount present TableId.all + if flags.testBit 6 then 4 else 0

theorem headerLength_le (data : Bytes) : headerLength data ≤ 208 := by
  have hcount : presentCount (Bytes.littleEndian (data.extract 8 16).toList) TableId.all ≤ 45 :=
    List.countP_le_length
  unfold headerLength
  dsimp only
  split <;> omega

theorem presentCount_cons (present : Nat) (table : TableId) (rest : List TableId) :
    presentCount present (table :: rest) =
      presentCount present rest + if present.testBit table.number then 1 else 0 :=
  List.countP_cons

/-- A row count is read for each table that the stream has, four bytes each. -/
theorem eq_of_run_rowCounts {present : Nat} {tables : List TableId} {counts read : PerTable Nat}
    {cursor after : Cursor} (hcounts : ∀ table, counts.look table < UInt32.size)
    (h : (decodeRowCounts present counts tables).run cursor = .ok read after) :
    after = { cursor with pos := cursor.pos + 4 * presentCount present tables } ∧
      ∀ table, read.look table < UInt32.size := by
  induction tables generalizing counts cursor with
  | nil =>
      cases h
      exact ⟨rfl, hcounts⟩
  | cons table rest ih =>
      unfold decodeRowCounts at h
      rw [presentCount_cons]
      split at h
      case isTrue hpresent =>
        obtain ⟨count, middle, hcount, hrest⟩ := exists_of_run_bind h
        obtain ⟨hvalue, hlt, rfl⟩ := eq_of_run_unsigned hcount
        have hplaced (other : TableId) : (counts.put table count).look other < UInt32.size := by
          by_cases hother : table = other
          · rw [← hother, PerTable.look_put_self]
            exact hlt
          · rw [PerTable.look_put_of_ne _ _ hother]
            exact hcounts other
        obtain ⟨rfl, hread⟩ := ih hplaced hrest
        refine ⟨?_, hread⟩
        rw [if_pos hpresent, Cursor.mk.injEq]
        exact ⟨rfl, by dsimp only; omega⟩
      case isFalse habsent =>
        rw [if_neg habsent, Nat.add_zero]
        exact ih hcounts h

/-- Tables are placed behind the row counts and the extra data, and end in the data. -/
theorem eq_of_run_placeTables {majorVersion minorVersion : Nat} {sizes : TableSizes}
    {extraData : Bool} {cursor after : Cursor} {stream : TableStream}
    (h : (placeTables majorVersion minorVersion sizes extraData).run cursor = .ok stream after) :
    ∃ stop, stream.data = cursor.data ∧
      TableLayout.place sizes (Vector.replicate TableId.count {})
        (cursor.pos + if extraData then 4 else 0) TableId.all = .ok (stream.layouts, stop) ∧
      stop ≤ cursor.data.size := by
  have hplaced {start : Nat} (hrun : (do
      let placed ← Decoder.ofExcept
        (TableLayout.place sizes (Vector.replicate TableId.count {}) start TableId.all)
      if cursor.data.size < placed.2 then throw .outOfBounds
      return { data := cursor.data, majorVersion, minorVersion, layouts := placed.1 } :
        Decoder TableStream).run cursor = .ok stream after) :
      ∃ stop, stream.data = cursor.data ∧
        TableLayout.place sizes (Vector.replicate TableId.count {}) start TableId.all =
          .ok (stream.layouts, stop) ∧ stop ≤ cursor.data.size := by
    obtain ⟨⟨layouts, stop⟩, middle, hstep, hrest⟩ := exists_of_run_bind hrun
    have hplace := (eq_of_run_ofExcept hstep).1
    dsimp only at hrest
    split at hrest
    case isTrue => cases hrest
    case isFalse hstop =>
      cases hrest
      exact ⟨stop, rfl, hplace, Nat.not_lt.mp hstop⟩
  unfold placeTables at h
  rw [run_get] at h
  cases extraData with
  | true =>
      obtain ⟨start, middle, hstart, hrun⟩ := exists_of_run_bind h
      obtain ⟨hstart, hsame⟩ := eq_of_run_ofExcept hstart
      subst middle
      unfold Bounded.add at hstart
      split at hstart
      case isTrue =>
        cases hstart
        exact hplaced hrun
      case isFalse => cases hstart
  | false => exact hplaced h

/-- An accepted stream has its tables one after another behind the header, and they end in the
data. -/
theorem exists_sizes_of_decode {data : Bytes} {stream : TableStream}
    (h : decode data = .ok stream) :
    ∃ sizes : TableSizes, stream.data = data ∧ (∀ table, sizes.rows table < UInt32.size) ∧
      headerLength data + (TableId.all.map (TableLayout.extent sizes)).sum ≤ data.size ∧
      ∀ before table after, TableId.all = before ++ table :: after →
        (stream.layout table).StandsAt sizes table
          (headerLength data + (before.map (TableLayout.extent sizes)).sum) := by
  obtain ⟨last, hrun⟩ := exists_run_of_parse h
  unfold decoder at hrun
  obtain ⟨_, _, hstep, hrun⟩ := exists_of_run_bind hrun
  obtain rfl := eq_of_run_advance hstep
  obtain ⟨major, _, hstep, hrun⟩ := exists_of_run_bind hrun
  obtain ⟨-, -, rfl⟩ := eq_of_run_unsigned hstep
  obtain ⟨minor, _, hstep, hrun⟩ := exists_of_run_bind hrun
  obtain ⟨-, -, rfl⟩ := eq_of_run_unsigned hstep
  obtain ⟨flags, _, hstep, hrun⟩ := exists_of_run_bind hrun
  obtain ⟨hflags, -, rfl⟩ := eq_of_run_unsigned hstep
  obtain ⟨_, _, hstep, hrun⟩ := exists_of_run_bind hrun
  obtain rfl := eq_of_run_advance hstep
  obtain ⟨present, _, hstep, hrun⟩ := exists_of_run_bind hrun
  obtain ⟨hpresent, -, rfl⟩ := eq_of_run_unsigned hstep
  obtain ⟨sorted, _, hstep, hrun⟩ := exists_of_run_bind hrun
  obtain ⟨-, -, rfl⟩ := eq_of_run_unsigned hstep
  dsimp only at hrun
  split at hrun
  case isTrue => cases hrun
  case isFalse hknown =>
  obtain ⟨rowCounts, _, hstep, hrun⟩ := exists_of_run_bind hrun
  obtain ⟨rfl, hrows⟩ := eq_of_run_rowCounts
    (fun table => by rw [look_replicate]; decide) hstep
  let sizes : TableSizes :=
    ⟨flags.testBit 0, flags.testBit 1, flags.testBit 2, rowCounts⟩
  have hrows : ∀ table, sizes.rows table < UInt32.size := hrows
  change (placeTables major minor sizes (flags.testBit 6)).run _ = _ at hrun
  obtain ⟨stop, hdata, hplace, hstop⟩ := eq_of_run_placeTables hrun
  have hstart : 0 + 4 + 1 + 1 + 1 + 1 + 8 + 8 + 4 * presentCount present TableId.all +
      (if flags.testBit 6 then 4 else 0) = headerLength data := by
    unfold headerLength
    rw [hflags, hpresent]
  obtain ⟨placed, hplaced, -, hstands⟩ := TableLayout.place_eq hrows TableId.nodup_all
    (Vector.replicate TableId.count {}) (headerLength data)
    (Nat.lt_of_le_of_lt (Nat.add_le_add_right (headerLength_le data) _) (by decide))
  rw [hstart, hplaced] at hplace
  cases hplace
  exact ⟨sizes, hdata, hrows, hstop, hstands⟩

/-!
## Where cells stand
-/

/-- The row, counted from 1, and the column, counted from 0, exist. -/
def HasCell (stream : TableStream) (table : TableId) (row column : Nat) : Prop :=
  1 ≤ row ∧ row ≤ stream.rows table ∧ column < table.columns.length

/-- The place of the first byte of a cell. -/
def cellStart (stream : TableStream) (table : TableId) (row column : Nat) : Nat :=
  (stream.layout table).start + (row - 1) * (stream.layout table).rowWidth +
    ((stream.layout table).columns[column]?.map ColumnLayout.offset).getD 0

/-- The number of bytes of the cells of a column. -/
def cellWidth (stream : TableStream) (table : TableId) (column : Nat) : Nat :=
  ((stream.layout table).columns[column]?.map ColumnLayout.width).getD 0

/-- The place behind the last byte of a cell. -/
def cellStop (stream : TableStream) (table : TableId) (row column : Nat) : Nat :=
  stream.cellStart table row column + stream.cellWidth table column

theorem sum_take_add_le {widths : List Nat} {i j width : Nat} (hwidth : widths[i]? = some width)
    (h : i < j) : (widths.take i).sum + width ≤ (widths.take j).sum := by
  induction widths generalizing i j with
  | nil => cases hwidth
  | cons first rest ih =>
      obtain ⟨j, rfl⟩ := Nat.exists_eq_succ_of_ne_zero (Nat.ne_zero_of_lt h)
      cases i with
      | zero =>
          cases hwidth
          simp
      | succ i =>
          have hrest := ih hwidth (Nat.lt_of_succ_lt_succ h)
          simp only [List.take_succ_cons, List.sum_cons]
          omega

section Cells

variable {stream : TableStream} {sizes : TableSizes} {table : TableId} {start row column : Nat}
  (hat : (stream.layout table).StandsAt sizes table start)
  (hcell : stream.HasCell table row column)

include hat hcell

/-- A cell stands behind the rows and the columns in front of it. -/
theorem exists_cell_eq : ∃ width, (sizes.widths table)[column]? = some width ∧
    (width = 2 ∨ width = 4) ∧ stream.cellWidth table column = width ∧
    stream.cellStart table row column = start + (row - 1) * (sizes.widths table).sum +
      ((sizes.widths table).take column).sum := by
  obtain ⟨-, -, hcolumn⟩ := hcell
  have hwidth : (sizes.widths table)[column]? = some (sizes.width table.columns[column]) := by
    rw [TableSizes.widths, List.getElem?_map, List.getElem?_eq_getElem hcolumn]
    rfl
  refine ⟨_, hwidth, ?_, ?_, ?_⟩
  · unfold TableSizes.width
    split
    · exact .inr rfl
    · exact .inl rfl
  · rw [cellWidth, hat.column hwidth]
    rfl
  · rw [cellStart, hat.column hwidth, hat.start, hat.rowWidth]
    rfl

/-- A cell stands inside its row. -/
theorem cell_inside_row :
    start + (row - 1) * (sizes.widths table).sum ≤ stream.cellStart table row column ∧
      stream.cellStop table row column ≤ start + row * (sizes.widths table).sum := by
  obtain ⟨width, hwidth, -, hsame, hstart⟩ := exists_cell_eq hat hcell
  have hinside := sum_take_add_le hwidth (List.getElem?_eq_some_iff.mp hwidth).1
  rw [List.take_length] at hinside
  obtain ⟨row, rfl⟩ := Nat.exists_eq_add_of_le' hcell.1
  rw [cellStop, hsame, hstart, Nat.add_sub_cancel, Nat.add_one_mul]
  omega

/-- A cell stands inside its table. -/
theorem cell_inside_table : start ≤ stream.cellStart table row column ∧
    stream.cellStop table row column ≤ start + TableLayout.extent sizes table := by
  obtain ⟨hstart, hstop⟩ := cell_inside_row hat hcell
  have hrow : row ≤ sizes.rows table := hat.rows ▸ hcell.2.1
  have hrows := Nat.mul_le_mul_right (sizes.widths table).sum hrow
  rw [TableLayout.extent, Nat.mul_comm]
  omega

/-- The cells of a row stand in the order of the columns. -/
theorem cellStop_le_of_column_lt {other : Nat} (hother : stream.HasCell table row other)
    (h : column < other) :
    stream.cellStop table row column ≤ stream.cellStart table row other := by
  obtain ⟨width, hwidth, -, hsame, hstart⟩ := exists_cell_eq hat hcell
  obtain ⟨_, -, -, -, hlater⟩ := exists_cell_eq hat hother
  have hbefore := sum_take_add_le hwidth h
  rw [cellStop, hsame, hstart, hlater]
  omega

/-- The cells of a table stand in the order of the rows. -/
theorem cellStop_le_of_row_lt {later other : Nat} (hother : stream.HasCell table later other)
    (h : row < later) :
    stream.cellStop table row column ≤ stream.cellStart table later other := by
  have hstop := (cell_inside_row hat hcell).2
  have hstart := (cell_inside_row hat hother).1
  have hrows := Nat.mul_le_mul_right (sizes.widths table).sum (Nat.le_sub_one_of_lt h)
  omega

/-- A cell is read from its place. -/
theorem value_eq_of_hasCell (hroom : start + TableLayout.extent sizes table ≤ stream.data.size)
    (hpositions : start + TableLayout.extent sizes table < Bounded.positions) :
    stream.value table row column = .ok (Bytes.littleEndian
      (stream.data.extract (stream.cellStart table row column)
        (stream.cellStop table row column)).toList) := by
  obtain ⟨width, hwidth, hwidths, hsame, hstart⟩ := exists_cell_eq hat hcell
  have hinside := cell_inside_table hat hcell
  rw [cellStop, hsame] at hinside ⊢
  obtain ⟨row, rfl⟩ := Nat.exists_eq_add_of_le' hcell.1
  rw [Nat.add_sub_cancel] at hstart
  have hrow : row < sizes.rows table := hat.rows ▸ hcell.2.1
  rw [value_of_standsAt hat hrow hwidth (by omega), ← hstart, Bounded.unsignedAt,
    Bounded.slice_eq, if_pos (by omega)]
  rfl

end Cells

/-- What has no cell is out of bounds. -/
theorem value_of_not_hasCell {stream : TableStream} {table : TableId} {row column : Nat}
    (hsize : (stream.layout table).columns.size = table.columns.length)
    (h : ¬ stream.HasCell table row column) :
    stream.value table row column = .error .outOfBounds := by
  unfold value
  dsimp only
  split
  case isTrue => rfl
  case isFalse hrow =>
    have hcolumn : ¬ column < table.columns.length := fun hcolumn =>
      h ⟨by omega, by rw [rows]; omega, hcolumn⟩
    rw [Array.getElem?_eq_none (by omega)]

/-- Of two tables one comes first. -/
theorem exists_between {table other : TableId} (h : table ≠ other) :
    (∃ before middle after, TableId.all = before ++ table :: (middle ++ other :: after)) ∨
      ∃ before middle after, TableId.all = before ++ other :: (middle ++ table :: after) := by
  obtain ⟨before, after, hall⟩ := List.append_of_mem table.mem_all
  have hother := hall ▸ other.mem_all
  rcases List.mem_append.mp hother with hbefore | hafter
  · obtain ⟨first, middle, rfl⟩ := List.append_of_mem hbefore
    exact .inr ⟨first, middle, after, by simpa using hall⟩
  · rcases List.mem_cons.mp hafter with hsame | hafter
    · exact absurd hsame.symm h
    · obtain ⟨middle, last, rfl⟩ := List.append_of_mem hafter
      exact .inl ⟨before, middle, last, hall⟩

/-- The tables of an accepted stream stand apart, behind the header and inside the data. -/
theorem exists_starts_of_decode {data : Bytes} {stream : TableStream}
    (h : decode data = .ok stream) :
    ∃ sizes : TableSizes, stream.data = data ∧
      (∀ table, (stream.layout table).StandsAt sizes table (stream.layout table).start ∧
        headerLength data ≤ (stream.layout table).start ∧
        (stream.layout table).start + TableLayout.extent sizes table ≤ data.size ∧
        (stream.layout table).start + TableLayout.extent sizes table < Bounded.positions) ∧
      ∀ table other, table ≠ other →
        (stream.layout table).start + TableLayout.extent sizes table ≤
            (stream.layout other).start ∨
          (stream.layout other).start + TableLayout.extent sizes other ≤
            (stream.layout table).start := by
  obtain ⟨sizes, hdata, hrows, hroom, hstands⟩ := exists_sizes_of_decode h
  have hall {before after : List TableId} {table : TableId}
      (hsplit : TableId.all = before ++ table :: after) :
      headerLength data + (before.map (TableLayout.extent sizes)).sum =
        (stream.layout table).start := (hstands before table after hsplit).start.symm
  have hextents := List.sum_le_card_nsmul (TableId.all.map (TableLayout.extent sizes))
    TableLayout.maxLength (by
      intro extent hmem
      obtain ⟨table, -, rfl⟩ := List.mem_map.mp hmem
      exact TableLayout.extent_le (hrows table))
  rw [List.length_map, smul_eq_mul] at hextents
  have hhead := headerLength_le data
  have hpositions : 208 + TableId.all.length * TableLayout.maxLength < Bounded.positions := by
    decide
  refine ⟨sizes, hdata, fun table => ?_, fun table other hne => ?_⟩
  · obtain ⟨before, after, hsplit⟩ := List.append_of_mem table.mem_all
    have hstart := hall hsplit
    have hsum := congrArg (fun tables => (List.map (TableLayout.extent sizes) tables).sum) hsplit
    simp only [List.map_append, List.map_cons, List.sum_append, List.sum_cons] at hsum
    have hat := hstands before table after hsplit
    rw [hstart] at hat
    exact ⟨hat, by omega, by omega, by omega⟩
  · have hfollows {before middle after : List TableId} {table other : TableId}
        (hsplit : TableId.all = before ++ table :: (middle ++ other :: after)) :
        (stream.layout table).start + TableLayout.extent sizes table ≤
          (stream.layout other).start := by
      have hother : TableId.all = (before ++ table :: middle) ++ other :: after := by
        rw [hsplit, List.append_assoc, List.cons_append]
      rw [← hall hsplit, ← hall hother]
      simp only [List.map_append, List.map_cons, List.sum_append, List.sum_cons]
      omega
    rcases exists_between hne with ⟨before, middle, after, hsplit⟩ | ⟨before, middle, after, hsplit⟩
    · exact .inl (hfollows hsplit)
    · exact .inr (hfollows hsplit)

/-- In data that is accepted as a table stream every cell can be read, from two or four bytes of
its own that stand behind the header and inside the data, and all else is out of bounds. -/
theorem accepted_streams_readable {data : Bytes} {stream : TableStream}
    (h : decode data = .ok stream) :
    (∀ table row column,
      (stream.HasCell table row column →
        headerLength data ≤ stream.cellStart table row column ∧
        stream.cellStop table row column ≤ data.size ∧
        (stream.cellWidth table column = 2 ∨ stream.cellWidth table column = 4) ∧
        stream.value table row column = .ok (Bytes.littleEndian
          (data.extract (stream.cellStart table row column)
            (stream.cellStop table row column)).toList)) ∧
      (¬ stream.HasCell table row column →
        stream.value table row column = .error .outOfBounds)) ∧
    ∀ table row column other otherRow otherColumn, stream.HasCell table row column →
      stream.HasCell other otherRow otherColumn →
      (table, row, column) ≠ (other, otherRow, otherColumn) →
        stream.cellStop table row column ≤ stream.cellStart other otherRow otherColumn ∨
          stream.cellStop other otherRow otherColumn ≤ stream.cellStart table row column := by
  obtain ⟨sizes, hdata, hstands, hapart⟩ := exists_starts_of_decode h
  refine ⟨fun table row column => ?_, ?_⟩
  · obtain ⟨hat, hhead, hroom, hpositions⟩ := hstands table
    refine ⟨fun hcell => ?_, value_of_not_hasCell hat.columns_size⟩
    obtain ⟨hstart, hstop⟩ := cell_inside_table hat hcell
    obtain ⟨width, -, hwidths, hsame, -⟩ := exists_cell_eq hat hcell
    refine ⟨by omega, by omega, hsame ▸ hwidths, ?_⟩
    rw [← hdata] at hroom ⊢
    exact value_eq_of_hasCell hat hcell hroom hpositions
  · intro table row column other otherRow otherColumn hcell hother hne
    obtain ⟨hat, -⟩ := hstands table
    by_cases htable : table = other
    · subst htable
      rcases Nat.lt_trichotomy row otherRow with hrow | rfl | hrow
      · exact .inl (cellStop_le_of_row_lt hat hcell hother hrow)
      · rcases Nat.lt_trichotomy column otherColumn with hcolumn | rfl | hcolumn
        · exact .inl (cellStop_le_of_column_lt hat hcell hother hcolumn)
        · exact absurd rfl hne
        · exact .inr (cellStop_le_of_column_lt hat hother hcell hcolumn)
      · exact .inr (cellStop_le_of_row_lt hat hother hcell hrow)
    · have hinside := cell_inside_table hat hcell
      have hotherInside := cell_inside_table (hstands other).1 hother
      rcases hapart table other htable with hbefore | hafter
      · exact .inl (by omega)
      · exact .inr (by omega)

/-- A signature and a nested type stand apart behind a header with extra data, and there is no
second nested type. -/
theorem accepted_streams_readable_nested :
    ∃ stream, decode (nestedContent.bytes ++ [0, 0]).toArray = .ok stream ∧
      stream.HasCell .typeSpec 1 0 ∧ stream.HasCell .nestedClass 1 1 ∧
      headerLength (nestedContent.bytes ++ [0, 0]).toArray = 36 ∧
      36 ≤ stream.cellStart .typeSpec 1 0 ∧ stream.cellStop .nestedClass 1 1 ≤ 46 ∧
      (stream.cellStop .typeSpec 1 0 ≤ stream.cellStart .nestedClass 1 1 ∨
        stream.cellStop .nestedClass 1 1 ≤ stream.cellStart .typeSpec 1 0) ∧
      stream.value .nestedClass 2 0 = .error .outOfBounds := by
  obtain ⟨stream, sizes, hdecode, hsizes, -, hstands⟩ := decode_bytes nestedContent_fits [0, 0]
  have hrows (table : TableId) :
      stream.rows table = (nestedContent.rows table.number).length := by
    obtain ⟨before, after, hall⟩ := List.append_of_mem table.mem_all
    exact (hstands before table after hall).rows.trans (hsizes.rows table)
  have hspec : stream.HasCell .typeSpec 1 0 := ⟨by decide, by rw [hrows]; decide, by decide⟩
  have hnested : stream.HasCell .nestedClass 1 1 := ⟨by decide, by rw [hrows]; decide, by decide⟩
  have hnone : ¬ stream.HasCell .nestedClass 2 0 := by
    rintro ⟨-, hrow, -⟩
    rw [hrows] at hrow
    exact absurd hrow (by decide)
  have hhead : headerLength (nestedContent.bytes ++ [0, 0]).toArray = 36 := by decide +kernel
  obtain ⟨hcells, hapart⟩ := accepted_streams_readable hdecode
  have hstart := ((hcells .typeSpec 1 0).1 hspec).1
  have hstop := ((hcells .nestedClass 1 1).1 hnested).2.1
  exact ⟨stream, hdecode, hspec, hnested, hhead, hhead ▸ hstart, hstop,
    hapart _ _ _ _ _ _ hspec hnested (by decide), (hcells .nestedClass 2 0).2 hnone⟩

end TableStream
end AssemblyBrowser
