import Mathlib.Algebra.Ring.Nat
import AssemblyBrowser.Metadata.Table
import AssemblyBrowser.Module.Resolution
import AssemblyBrowser.Proofs.Codec.Cells
import AssemblyBrowser.Proofs.Codec.Numbers

/-!
# Coded indexes

The tag of a coded index chooses a table, and the bits above the tag are a row. A
token is made of both. It always keeps the table, and it keeps the row as far as its
24 bits go. So rows that fit a token stay apart, and what was encoded is read back.

Signatures write a reference to a type as a coded index too. The compressed number
that holds it has room for longer rows than a token has. Tag and row are added up to
a token, so that a row that is too long goes over into the table. A reference may then
be looked up among the definitions.
-/

namespace AssemblyBrowser

/-!
## Tables and rows of tokens
-/

/-- A token names a row of a table. -/
def Token.Names (token : Token) (table : TableId) (row : Nat) : Prop :=
  token.table = table.number ∧ token.row = row

theorem TableId.names_token (table : TableId) {row : Nat} (h : row < 0x1000000) :
    (table.token row).Names table row :=
  ⟨Token.table_ofParts _ _ (Nat.lt_trans table.number_lt (by decide)), Token.row_ofParts _ _ h⟩

namespace CodedIndex

section Parts

variable (kind : CodedIndex)

/-- The number in the lowest bits of a coded index. -/
def tagOf (value : Nat) : Nat := value % 2 ^ kind.tagBits

/-- The number in the bits above the tag. -/
def rowOf (value : Nat) : Nat := value >>> kind.tagBits

/-- The table that the tag chooses; some tags choose none. -/
def tableOf? (value : Nat) : Option TableId := kind.tables[kind.tagOf value]?.join

end Parts

variable {kind : CodedIndex} {value tag row : Nat} {table : TableId}

/-!
## What is decoded
-/

theorem decode_eq (kind : CodedIndex) (value : Nat) :
    kind.decode value =
      match kind.tableOf? value with
      | some table => if kind.rowOf value = 0 then Token.zero else table.token (kind.rowOf value)
      | none => Token.zero := by
  unfold decode tableOf? tagOf rowOf
  rw [Nat.shiftRight_eq_div_pow]
  rcases kind.tables[value % 2 ^ kind.tagBits]? with _ | _ | table <;> rfl

theorem decode_of_no_table (h : kind.tableOf? value = none) : kind.decode value = Token.zero := by
  rw [decode_eq, h]

theorem decode_of_no_row (h : kind.rowOf value = 0) : kind.decode value = Token.zero := by
  rw [decode_eq]
  split
  case h_1 => rw [if_pos h]
  case h_2 => rfl

theorem decode_of_table (htable : kind.tableOf? value = some table) (hrow : kind.rowOf value ≠ 0) :
    kind.decode value = table.token (kind.rowOf value) := by
  rw [decode_eq, htable]
  exact if_neg hrow

/-- A row that fits a token is the row of the token. -/
theorem row_decode (htable : kind.tableOf? value = some table)
    (hrow : kind.rowOf value < 0x1000000) : (kind.decode value).row = kind.rowOf value := by
  by_cases hzero : kind.rowOf value = 0
  · rw [decode_of_no_row hzero, hzero]
    rfl
  · rw [decode_of_table htable hzero]
    exact (table.names_token hrow).2

/-!
## What was encoded
-/

theorem length_tables_le (kind : CodedIndex) : kind.tables.length ≤ 2 ^ kind.tagBits := by
  cases kind <;> decide

theorem lt_of_table (h : kind.tables[tag]? = some (some table)) : tag < 2 ^ kind.tagBits :=
  Nat.lt_of_lt_of_le (List.getElem?_eq_some_iff.mp h).1 kind.length_tables_le

theorem tableOf?_encode (htable : kind.tables[tag]? = some (some table)) (row : Nat) :
    kind.tableOf? (kind.encode tag row) = some table := by
  have htag : kind.tagOf (kind.encode tag row) = tag := by
    unfold tagOf encode
    rw [Nat.pow_eq, Nat.mul_add_mod', Nat.mod_eq_of_lt (lt_of_table htable)]
  rw [tableOf?, htag, htable]
  rfl

theorem rowOf_encode (htag : tag < 2 ^ kind.tagBits) (row : Nat) :
    kind.rowOf (kind.encode tag row) = row := by
  unfold rowOf encode
  rw [Nat.shiftRight_eq_div_pow, Nat.pow_eq, Nat.mul_comm,
    Nat.mul_add_div (Nat.zero_lt_of_lt htag), Nat.div_eq_of_lt htag, Nat.add_zero]

theorem decode_encode (htable : kind.tables[tag]? = some (some table)) (hrow : row ≠ 0) :
    kind.decode (kind.encode tag row) = table.token row := by
  have hrowOf := rowOf_encode (lt_of_table htable) row
  rw [decode_of_table (tableOf?_encode htable row) (hrowOf.symm ▸ hrow), hrowOf]

/-- There is room for the tag and a row that fits a token. -/
theorem encode_lt (htable : kind.tables[tag]? = some (some table)) (hrow : row < 0x1000000) :
    kind.encode tag row < UInt32.size := by
  have htag := lt_of_table htable
  have hbits : 2 ^ kind.tagBits ≤ 32 := by cases kind <;> decide
  have hmul : (row + 1) * 2 ^ kind.tagBits ≤ 0x1000000 * 32 := Nat.mul_le_mul hrow hbits
  unfold encode
  rw [Nat.pow_eq]
  rw [Nat.add_mul] at hmul
  have hsize : 0x1000000 * 32 ≤ UInt32.size := by decide
  omega

/-!
## Rows stay apart
-/

/-- A coded index names nothing, or a row of the table that its tag chooses. That is the row in
front of the tag, as long as it fits a token: such rows never get mixed up, and are read back. -/
theorem coded_indexes_never_alias (kind : CodedIndex) :
    (∀ value : UInt32, kind.decode value.toNat = Token.zero ∨
      ∃ table, kind.tableOf? value.toNat = some table ∧
        (kind.decode value.toNat).table = table.number ∧
        (kind.rowOf value.toNat < 0x1000000 →
          (kind.decode value.toNat).row = kind.rowOf value.toNat)) ∧
    (∀ first second : UInt32, kind.tagOf first.toNat = kind.tagOf second.toNat →
      (kind.tableOf? first.toNat).isSome → kind.rowOf first.toNat < 0x1000000 →
      kind.rowOf second.toNat < 0x1000000 → kind.rowOf first.toNat ≠ kind.rowOf second.toNat →
        kind.decode first.toNat ≠ kind.decode second.toNat) ∧
    ∀ tag table row, kind.tables[tag]? = some (some table) → row < 0x1000000 →
      kind.encode tag row < UInt32.size ∧
      (row = 0 → kind.decode (kind.encode tag row) = Token.zero) ∧
      (row ≠ 0 → (kind.decode (kind.encode tag row)).Names table row) := by
  refine ⟨fun value => ?_, fun first second htag hsome hfirst hsecond hne heq => ?_,
    fun tag table row htable hrow => ⟨encode_lt htable hrow, fun hzero => ?_, fun hnonzero => ?_⟩⟩
  · cases htable : kind.tableOf? value.toNat with
    | none => exact .inl (decode_of_no_table htable)
    | some table =>
        by_cases hzero : kind.rowOf value.toNat = 0
        · exact .inl (decode_of_no_row hzero)
        · refine .inr ⟨table, rfl, ?_, row_decode htable⟩
          rw [decode_of_table htable hzero]
          exact Token.table_ofParts _ _ (Nat.lt_trans table.number_lt (by decide))
  · obtain ⟨table, htable⟩ := Option.isSome_iff_exists.mp hsome
    have hother : kind.tableOf? second.toNat = some table := by
      rw [← htable, tableOf?, tableOf?, htag]
    have hrows := congrArg Token.row heq
    rw [row_decode htable hfirst, row_decode hother hsecond] at hrows
    exact hne hrows
  · exact decode_of_no_row (hzero ▸ rowOf_encode (lt_of_table htable) row)
  · rw [decode_encode htable hnonzero]
    exact table.names_token hrow

/-- The last row that fits a token, in the last table of the kind with the longest tags. -/
theorem coded_indexes_never_alias_longest_tag :
    hasCustomAttribute.tagOf 0x1FFFFFF5 = hasCustomAttribute.tagOf 0x1FFFFFD5 ∧
      hasCustomAttribute.rowOf 0x1FFFFFF5 = 0xFFFFFF ∧
      hasCustomAttribute.decode 0x1FFFFFF5 ≠ hasCustomAttribute.decode 0x1FFFFFD5 ∧
      (hasCustomAttribute.decode (hasCustomAttribute.encode 21 0xFFFFFF)).Names .methodSpec
        0xFFFFFF := by
  obtain ⟨-, hapart, hback⟩ := coded_indexes_never_alias hasCustomAttribute
  exact ⟨by decide, by decide,
    hapart 0x1FFFFFF5 0x1FFFFFD5 (by decide) (by decide) (by decide) (by decide) (by decide),
    (hback 21 .methodSpec 0xFFFFFF (by decide) (by decide)).2.2 (by decide)⟩

/-- A row that does not fit a token becomes another one, and tags without a table all name
nothing, whatever stands in front of them. -/
theorem coded_indexes_alias :
    ¬ (typeDefOrRef.decode 0x4000005 = Token.zero ∨
      ∃ table, typeDefOrRef.tableOf? 0x4000005 = some table ∧
        (typeDefOrRef.decode 0x4000005).Names table (typeDefOrRef.rowOf 0x4000005)) ∧
    (typeDefOrRef.tagOf 0x4000005 = typeDefOrRef.tagOf 5 ∧
      typeDefOrRef.rowOf 0x4000005 = 0x1000001 ∧ typeDefOrRef.rowOf 5 = 1 ∧
      typeDefOrRef.decode 0x4000005 = typeDefOrRef.decode 5) ∧
    (customAttributeType.tagOf 8 = customAttributeType.tagOf 16 ∧
      customAttributeType.rowOf 8 = 1 ∧ customAttributeType.rowOf 16 = 2 ∧
      customAttributeType.decode 8 = customAttributeType.decode 16) := by
  refine ⟨?_, by decide, by decide⟩
  rintro (hzero | ⟨table, -, -, hrow⟩)
  · exact absurd hzero (by decide)
  · exact absurd hrow (by decide)

end CodedIndex

/-!
## What a token stands for
-/

namespace TypeScope

variable {scope : TypeScope} {generics : GenericNames} {token : Token} {type : TypeExpr}

namespace RowIs

variable {table : TableId} {row : Nat}

end RowIs

end TypeScope

/-!
## What a written token becomes
-/

namespace CompressedNumber

open Decoder

variable {cursor after : Cursor} {n : Nat} {token : Token} {table : TableId}

variable {row : Nat}

end CompressedNumber
end AssemblyBrowser
