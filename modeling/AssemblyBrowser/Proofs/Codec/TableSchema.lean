import Mathlib.Algebra.Ring.Nat
import Mathlib.Order.MinMax
import AssemblyBrowser.Metadata.TableStream

/-!
# The standard's tables

ECMA-335 lists the columns of every metadata table under the number of the table
and says how wide a column is. This module repeats the list, with the tables of
coded indexes and their tag bits written out, and shows that the browser's own
list and its widths are the standard's.
-/

namespace AssemblyBrowser

/-- What a column holds by the standard; tables go by their numbers. -/
inductive StandardColumn where
  | constant (bytes : Nat)
  | string
  | guid
  | blob
  | index (table : Nat)
  | coded (tagBits : Nat) (tables : List Nat)
  deriving DecidableEq

/-- What the standard makes the widths of columns depend on. -/
structure StreamShape where
  largeStrings : Bool
  largeGuids : Bool
  largeBlobs : Bool
  rowCount : (table : Nat) → Nat

namespace StandardColumn

/-- An index takes four bytes if two have no room for all that it may have to name. -/
def width (shape : StreamShape) : StandardColumn → Nat
  | constant bytes => bytes
  | string => if shape.largeStrings then 4 else 2
  | guid => if shape.largeGuids then 4 else 2
  | blob => if shape.largeBlobs then 4 else 2
  | index table => if 2 ^ 16 ≤ shape.rowCount table then 4 else 2
  | coded tagBits tables =>
      if ∃ table ∈ tables, 2 ^ (16 - tagBits) ≤ shape.rowCount table then 4 else 2

def typeDefOrRef : StandardColumn := coded 2 [0x02, 0x01, 0x1B]

def hasConstant : StandardColumn := coded 2 [0x04, 0x08, 0x17]

def hasCustomAttribute : StandardColumn :=
  coded 5 [0x06, 0x04, 0x01, 0x02, 0x08, 0x09, 0x0A, 0x00, 0x0E, 0x17, 0x14, 0x11, 0x1A, 0x1B,
    0x20, 0x23, 0x26, 0x27, 0x28, 0x2A, 0x2C, 0x2B]

def hasFieldMarshal : StandardColumn := coded 1 [0x04, 0x08]

def hasDeclSecurity : StandardColumn := coded 2 [0x02, 0x06, 0x20]

def memberRefParent : StandardColumn := coded 3 [0x02, 0x01, 0x1A, 0x06, 0x1B]

def hasSemantics : StandardColumn := coded 1 [0x14, 0x17]

def methodDefOrRef : StandardColumn := coded 1 [0x06, 0x0A]

def memberForwarded : StandardColumn := coded 1 [0x04, 0x06]

def implementation : StandardColumn := coded 2 [0x26, 0x23, 0x27]

def customAttributeType : StandardColumn := coded 3 [0x06, 0x0A]

def resolutionScope : StandardColumn := coded 2 [0x00, 0x1A, 0x23, 0x01]

def typeOrMethodDef : StandardColumn := coded 1 [0x02, 0x06]

/-- The columns of the table with the given number. -/
def ofTable : (table : Nat) → List StandardColumn
  | 0x00 => [constant 2, string, guid, guid, guid]
  | 0x01 => [resolutionScope, string, string]
  | 0x02 => [constant 4, string, string, typeDefOrRef, index 0x04, index 0x06]
  | 0x03 => [index 0x04]
  | 0x04 => [constant 2, string, blob]
  | 0x05 => [index 0x06]
  | 0x06 => [constant 4, constant 2, constant 2, string, blob, index 0x08]
  | 0x07 => [index 0x08]
  | 0x08 => [constant 2, constant 2, string]
  | 0x09 => [index 0x02, typeDefOrRef]
  | 0x0A => [memberRefParent, string, blob]
  | 0x0B => [constant 2, hasConstant, blob]
  | 0x0C => [hasCustomAttribute, customAttributeType, blob]
  | 0x0D => [hasFieldMarshal, blob]
  | 0x0E => [constant 2, hasDeclSecurity, blob]
  | 0x0F => [constant 2, constant 4, index 0x02]
  | 0x10 => [constant 4, index 0x04]
  | 0x11 => [blob]
  | 0x12 => [index 0x02, index 0x14]
  | 0x13 => [index 0x14]
  | 0x14 => [constant 2, string, typeDefOrRef]
  | 0x15 => [index 0x02, index 0x17]
  | 0x16 => [index 0x17]
  | 0x17 => [constant 2, string, blob]
  | 0x18 => [constant 2, index 0x06, hasSemantics]
  | 0x19 => [index 0x02, methodDefOrRef, methodDefOrRef]
  | 0x1A => [string]
  | 0x1B => [blob]
  | 0x1C => [constant 2, memberForwarded, string, index 0x1A]
  | 0x1D => [constant 4, index 0x04]
  | 0x1E => [constant 4, constant 4]
  | 0x1F => [constant 4]
  | 0x20 =>
      [constant 4, constant 2, constant 2, constant 2, constant 2, constant 4, blob, string,
        string]
  | 0x21 => [constant 4]
  | 0x22 => [constant 4, constant 4, constant 4]
  | 0x23 =>
      [constant 2, constant 2, constant 2, constant 2, constant 4, blob, string, string, blob]
  | 0x24 => [constant 4, index 0x23]
  | 0x25 => [constant 4, constant 4, constant 4, index 0x23]
  | 0x26 => [constant 4, string, blob]
  | 0x27 => [constant 4, constant 4, string, string, implementation]
  | 0x28 => [constant 4, constant 4, string, implementation]
  | 0x29 => [index 0x02, index 0x02]
  | 0x2A => [constant 2, constant 2, typeOrMethodDef, string]
  | 0x2B => [methodDefOrRef, blob]
  | 0x2C => [index 0x2A, typeDefOrRef]
  | _ => []

end StandardColumn

/-!
## The browser's list
-/

/-- A column in the standard's terms. -/
def Column.standard : Column → StandardColumn
  | .word => .constant 2
  | .double => .constant 4
  | .string => .string
  | .guid => .guid
  | .blob => .blob
  | .row table => .index table.number
  | .coded kind => .coded kind.tagBits ((kind.tables.filterMap id).map TableId.number)

theorem TableId.columns_standard (table : TableId) :
    table.columns.map Column.standard = StandardColumn.ofTable table.number := by
  cases table <;> decide

namespace TableSizes

variable {sizes : TableSizes} {shape : StreamShape}

/-- The sizes that a decoder works with are those of a stream. -/
structure Describes (sizes : TableSizes) (shape : StreamShape) : Prop where
  strings : sizes.largeStrings = shape.largeStrings
  guids : sizes.largeGuids = shape.largeGuids
  blobs : sizes.largeBlobs = shape.largeBlobs
  rows : ∀ table : TableId, sizes.rows table = shape.rowCount table.number

/-- Some table of a kind has as many rows as the largest one. -/
theorem le_maxRows_iff (kind : CodedIndex) {least : Nat} (hpos : 0 < least) :
    least ≤ sizes.maxRows kind ↔ ∃ table, some table ∈ kind.tables ∧ least ≤ sizes.rows table := by
  have hfold : ∀ (tables : List (Option TableId)) (most : Nat),
      least ≤ tables.foldl (fun most table => max most ((table.map sizes.rows).getD 0)) most ↔
        least ≤ most ∨ ∃ table, some table ∈ tables ∧ least ≤ sizes.rows table := by
    intro tables
    induction tables with
    | nil => simp
    | cons first rest ih =>
        intro most
        rw [List.foldl_cons, ih]
        cases first with
        | none => simp
        | some table => simp [or_assoc, or_and_right, exists_or]
  have hnone : ¬ least ≤ 0 := Nat.not_le.mpr hpos
  simp only [maxRows, hfold, hnone, false_or]

theorem width_eq (h : sizes.Describes shape) (column : Column) :
    sizes.width column = column.standard.width shape := by
  unfold width
  cases column with
  | word => rfl
  | double => rfl
  | string => simp only [isLarge, h.strings]; rfl
  | guid => simp only [isLarge, h.guids]; rfl
  | blob => simp only [isLarge, h.blobs]; rfl
  | row table =>
      simp only [isLarge, h.rows, decide_eq_true_eq]
      rfl
  | coded kind =>
      have hpos : 0 < Nat.pow 2 (16 - kind.tagBits) := Nat.two_pow_pos _
      have hlarge : Nat.pow 2 (16 - kind.tagBits) ≤ sizes.maxRows kind ↔
          ∃ table ∈ (kind.tables.filterMap id).map TableId.number,
            2 ^ (16 - kind.tagBits) ≤ shape.rowCount table := by
        rw [le_maxRows_iff kind hpos]
        simp only [List.mem_map, List.mem_filterMap, id_eq, exists_eq_right, h.rows]
        exact ⟨fun ⟨table, hmem, hle⟩ => ⟨_, ⟨table, hmem, rfl⟩, hle⟩,
          fun ⟨_, ⟨table, hmem, hnumber⟩, hle⟩ => ⟨table, hmem, hnumber ▸ hle⟩⟩
      simp only [isLarge, decide_eq_true_eq, hlarge]
      rfl

/-- The widths of the columns of a table. -/
def widths (sizes : TableSizes) (table : TableId) : List Nat := table.columns.map sizes.width

theorem widths_eq (h : sizes.Describes shape) (table : TableId) :
    sizes.widths table =
      (StandardColumn.ofTable table.number).map (StandardColumn.width shape) := by
  rw [widths, ← table.columns_standard, List.map_map]
  exact List.map_congr_left fun column _ => width_eq h column

end TableSizes
end AssemblyBrowser
