import AssemblyBrowser.Bytes.Decoder
import AssemblyBrowser.Metadata.Table

/-!
# The table stream

A table stream says which tables a module has and how many rows each holds; the
rows of all tables follow one another. The width of a column depends on the row
counts of the tables that it refers to and on the sizes of the heaps, so the
place of every cell is computed from the counts before any cell is read.
-/

namespace AssemblyBrowser

/-- What a column of a table holds. -/
inductive Column where
  | word
  | double
  | string
  | guid
  | blob
  | row (table : TableId)
  | coded (kind : CodedIndex)
  deriving DecidableEq, Repr

def TableId.columns : TableId → List Column
  | module => [.word, .string, .guid, .guid, .guid]
  | typeRef => [.coded .resolutionScope, .string, .string]
  | typeDef =>
      [.double, .string, .string, .coded .typeDefOrRef, .row .field, .row .methodDef]
  | fieldPtr => [.row .field]
  | field => [.word, .string, .blob]
  | methodPtr => [.row .methodDef]
  | methodDef => [.double, .word, .word, .string, .blob, .row .param]
  | paramPtr => [.row .param]
  | param => [.word, .word, .string]
  | interfaceImpl => [.row .typeDef, .coded .typeDefOrRef]
  | memberRef => [.coded .memberRefParent, .string, .blob]
  | constant => [.word, .coded .hasConstant, .blob]
  | customAttribute => [.coded .hasCustomAttribute, .coded .customAttributeType, .blob]
  | fieldMarshal => [.coded .hasFieldMarshal, .blob]
  | declSecurity => [.word, .coded .hasDeclSecurity, .blob]
  | classLayout => [.word, .double, .row .typeDef]
  | fieldLayout => [.double, .row .field]
  | standAloneSig => [.blob]
  | eventMap => [.row .typeDef, .row .event]
  | eventPtr => [.row .event]
  | event => [.word, .string, .coded .typeDefOrRef]
  | propertyMap => [.row .typeDef, .row .property]
  | propertyPtr => [.row .property]
  | property => [.word, .string, .blob]
  | methodSemantics => [.word, .row .methodDef, .coded .hasSemantics]
  | methodImpl => [.row .typeDef, .coded .methodDefOrRef, .coded .methodDefOrRef]
  | moduleRef => [.string]
  | typeSpec => [.blob]
  | implMap => [.word, .coded .memberForwarded, .string, .row .moduleRef]
  | fieldRva => [.double, .row .field]
  | encLog => [.double, .double]
  | encMap => [.double]
  | assembly => [.double, .word, .word, .word, .word, .double, .blob, .string, .string]
  | assemblyProcessor => [.double]
  | assemblyOs => [.double, .double, .double]
  | assemblyRef => [.word, .word, .word, .word, .double, .blob, .string, .string, .blob]
  | assemblyRefProcessor => [.double, .row .assemblyRef]
  | assemblyRefOs => [.double, .double, .double, .row .assemblyRef]
  | file => [.double, .string, .blob]
  | exportedType => [.double, .double, .string, .string, .coded .implementation]
  | manifestResource => [.double, .double, .string, .coded .implementation]
  | nestedClass => [.row .typeDef, .row .typeDef]
  | genericParam => [.word, .word, .coded .typeOrMethodDef, .string]
  | methodSpec => [.coded .methodDefOrRef, .blob]
  | genericParamConstraint => [.row .genericParam, .coded .typeDefOrRef]

abbrev PerTable (α : Type) := Vector α TableId.count

namespace PerTable

variable {α : Type}

def look (parts : PerTable α) (table : TableId) : α := parts[table.index]

def put (parts : PerTable α) (table : TableId) (part : α) : PerTable α :=
  parts.set table.index part

@[simp]
theorem look_put_self (parts : PerTable α) (table : TableId) (part : α) :
    (parts.put table part).look table = part := by
  simp [look, put]

theorem look_put_of_ne (parts : PerTable α) {table other : TableId} (part : α)
    (h : table ≠ other) : (parts.put table part).look other = parts.look other := by
  have hindex : table.index.val ≠ other.index.val := by
    intro heq
    exact h (TableId.index_injective (Fin.eq_of_val_eq heq))
  simp [look, put, Vector.getElem_set_ne, hindex]

end PerTable

/-- What the widths of all columns depend on. -/
structure TableSizes where
  largeStrings : Bool
  largeGuids : Bool
  largeBlobs : Bool
  rowCounts : PerTable Nat

namespace TableSizes

def rows (sizes : TableSizes) (table : TableId) : Nat := sizes.rowCounts.look table

/-- The largest number of rows among the tables of a coded index. -/
def maxRows (sizes : TableSizes) (kind : CodedIndex) : Nat :=
  kind.tables.foldl (fun most table => max most ((table.map sizes.rows).getD 0)) 0

def isLarge (sizes : TableSizes) : Column → Bool
  | .word => false
  | .double => true
  | .string => sizes.largeStrings
  | .guid => sizes.largeGuids
  | .blob => sizes.largeBlobs
  | .row table => decide (UInt16.size ≤ sizes.rows table)
  | .coded kind => decide (Nat.pow 2 (16 - kind.tagBits) ≤ sizes.maxRows kind)

def width (sizes : TableSizes) (column : Column) : Nat :=
  if sizes.isLarge column then 4 else 2

end TableSizes

/-- The place of a column within a row. -/
structure ColumnLayout where
  offset : Nat
  width : Nat

/-- Where the rows of a table stand. -/
structure TableLayout where
  rows : Nat := 0
  start : Nat := 0
  rowWidth : Nat := 0
  columns : Array ColumnLayout := #[]

namespace TableLayout

/-- Places columns side by side from an offset on; the width of them all comes along. -/
def placeColumns (sizes : TableSizes) : (offset : Nat) → List Column →
    Except Error (List ColumnLayout × Nat)
  | offset, [] => return ([], offset)
  | offset, column :: rest => do
      let width := sizes.width column
      let next ← Bounded.add Bounded.positions offset width
      let (placed, stop) ← placeColumns sizes next rest
      return ({ offset, width } :: placed, stop)

/-- The layout of a table whose rows begin at `start`; the place behind them comes along. -/
def ofTable (sizes : TableSizes) (start : Nat) (table : TableId) :
    Except Error (TableLayout × Nat) := do
  let (columns, rowWidth) ← placeColumns sizes 0 table.columns
  let length ← Bounded.multiply Bounded.positions rowWidth (sizes.rows table)
  let stop ← Bounded.add Bounded.positions start length
  return ({ rows := sizes.rows table, start, rowWidth, columns := columns.toArray }, stop)

/-- Places tables one after another; the place behind the last comes along. -/
def place (sizes : TableSizes) : (layouts : PerTable TableLayout) → (start : Nat) →
    List TableId → Except Error (PerTable TableLayout × Nat)
  | layouts, start, [] => return (layouts, start)
  | layouts, start, table :: rest => do
      let (layout, stop) ← ofTable sizes start table
      place sizes (layouts.put table layout) stop rest

end TableLayout

/-- A table stream with the place of every cell. -/
structure TableStream where
  data : Bytes
  majorVersion : Nat
  minorVersion : Nat
  layouts : PerTable TableLayout

namespace TableStream

/-- Reads a row count for each table whose bit is set; the other tables keep theirs. -/
def decodeRowCounts (valid : Nat) : PerTable Nat → List TableId → Decoder (PerTable Nat)
  | counts, [] => return counts
  | counts, table :: rest => do
      if valid.testBit table.number then
        let count ← Decoder.unsigned 4
        decodeRowCounts valid (counts.put table count) rest
      else decodeRowCounts valid counts rest

/-- Reads the header of a table stream and places all tables behind it. -/
def decoder : Decoder TableStream := do
  Decoder.advance 4
  let majorVersion ← Decoder.unsigned 1
  let minorVersion ← Decoder.unsigned 1
  let heapSizes ← Decoder.unsigned 1
  Decoder.advance 1
  let valid ← Decoder.unsigned 8
  let _sorted ← Decoder.unsigned 8
  if Nat.pow 2 TableId.count ≤ valid then throw .notSupported
  let rowCounts ← decodeRowCounts valid (Vector.replicate TableId.count 0) TableId.all
  let sizes : TableSizes :=
    { largeStrings := heapSizes.testBit 0
      largeGuids := heapSizes.testBit 1
      largeBlobs := heapSizes.testBit 2
      rowCounts }
  let cursor ← get
  let start ←
    if heapSizes.testBit 6 then Decoder.ofExcept (Bounded.add Bounded.positions cursor.pos 4)
    else pure cursor.pos
  let (layouts, stop) ←
    Decoder.ofExcept
      (TableLayout.place sizes (Vector.replicate TableId.count {}) start TableId.all)
  if cursor.data.size < stop then throw .outOfBounds
  return { data := cursor.data, majorVersion, minorVersion, layouts }

def decode (data : Bytes) : Except Error TableStream := decoder.parse data

def layout (stream : TableStream) (table : TableId) : TableLayout := stream.layouts.look table

def rows (stream : TableStream) (table : TableId) : Nat := (stream.layout table).rows

/-- The cell of a row, counted from 1, and a column, counted from 0. -/
def value (stream : TableStream) (table : TableId) (row column : Nat) : Except Error Nat :=
  let layout := stream.layout table
  if row = 0 ∨ layout.rows < row then .error .outOfBounds
  else
    match layout.columns[column]? with
    | none => .error .outOfBounds
    | some column => do
        let before ←
          Bounded.multiply Bounded.positions (← Bounded.subtract row 1) layout.rowWidth
        let rowStart ← Bounded.add Bounded.positions layout.start before
        let place ← Bounded.add Bounded.positions rowStart column.offset
        Bounded.unsignedAt stream.data place column.width

/-- The token that a cell names as a coded index. -/
def coded (stream : TableStream) (table : TableId) (row column : Nat) (kind : CodedIndex) :
    Except Error Token := do
  return kind.decode (← stream.value table row column)

/-- The rows of the target table that a cell starts and the same cell of the next row ends; the
answer is the first row and the row after the last. -/
def listRange (stream : TableStream) (table : TableId) (row column : Nat) (target : TableId) :
    Except Error (Nat × Nat) := do
  let stop ← Bounded.add UInt32.size (stream.rows target) 1
  let start := min (← stream.value table row column) stop
  let next ←
    if row < stream.rows table then do
      let following ← Bounded.add UInt32.size row 1
      pure (min (← stream.value table following column) stop)
    else pure stop
  return (start, max next start)

/-- The row that a pointer table puts in the place of a row, if the table is in use. -/
def indirect (stream : TableStream) (pointers : TableId) (row : Nat) : Except Error Nat :=
  if stream.rows pointers = 0 then .ok row else stream.value pointers row 0

end TableStream
end AssemblyBrowser
