import Mathlib.Algebra.Order.Ring.Int
import AssemblyBrowser.Module.Reader
import AssemblyBrowser.Proofs.Codec.Reads
import AssemblyBrowser.Proofs.Outcomes

/-!
# Constants are read back

The value of a literal field stands in a blob, in a form that its element type
tells. A text stands there as UTF-16, where a character beyond the first 2^16
takes two units of a range that no character lies in.
-/

namespace AssemblyBrowser

open Bytes (ofLittleEndian)

/-!
## Texts as units
-/

namespace Utf16

/-- The units of a character. -/
def encodeChar (c : Char) : List Nat :=
  if c.toNat < 0x10000 then [c.toNat]
  else [0xD800 + (c.toNat - 0x10000) / 0x400, 0xDC00 + (c.toNat - 0x10000) % 0x400]

def encodeUnits (text : List Char) : List Nat := text.flatMap encodeChar

def encode (text : String) : List UInt8 := (encodeUnits text.toList).flatMap (ofLittleEndian 2)

theorem toNat_bounds (c : Char) :
    c.toNat < 0xD800 ∨ (0xE000 ≤ c.toNat ∧ c.toNat < 0x110000) := by
  rcases c.valid with h | h
  · exact .inl h
  · exact .inr ⟨h.1, h.2⟩

theorem encodeChar_lt (c : Char) : ∀ unit ∈ encodeChar c, unit < 0x10000 := by
  have hbounds := toNat_bounds c
  unfold encodeChar
  split_ifs with hplane
  · simpa using hplane
  · simp only [List.forall_mem_cons, List.not_mem_nil, false_imp_iff, implies_true, and_true]
    omega

theorem units_flatMap {values : List Nat} (h : ∀ value ∈ values, value < 0x10000) :
    units (values.flatMap (ofLittleEndian 2)) = values := by
  induction values with
  | nil => rfl
  | cons first rest ih =>
      have hfirst : first < 0x10000 := h first List.mem_cons_self
      have hpair : (UInt8.ofNat first).toNat + 256 * (UInt8.ofNat (first / 256)).toNat = first := by
        simp only [UInt8.toNat_ofNat']
        omega
      rw [List.flatMap_cons]
      change _ :: units (rest.flatMap (ofLittleEndian 2)) = _
      rw [hpair, ih fun value hmem => h value (List.mem_cons_of_mem _ hmem)]

/-- A unit outside the range of halves is a character of its own. -/
theorem decodeUnits_single {u : Nat} (h : u < 0xD800 ∨ 0xE000 ≤ u) (rest : List Nat) :
    decodeUnits (u :: rest) = Char.ofNat u :: decodeUnits rest := by
  cases rest with
  | nil =>
      have hwhole : ¬ (0xD800 ≤ u ∧ u < 0xE000) := by omega
      simp only [decodeUnits, if_neg hwhole]
  | cons next others => rw [decodeUnits, if_pos h]

theorem decodeUnits_pair {u v : Nat} (hu : 0xD800 ≤ u ∧ u < 0xDC00) (hv : 0xDC00 ≤ v ∧ v < 0xE000)
    (rest : List Nat) :
    decodeUnits (u :: v :: rest) =
      Char.ofNat (0x10000 + (u - 0xD800) * 0x400 + (v - 0xDC00)) :: decodeUnits rest := by
  rw [decodeUnits, if_neg (by omega), if_pos ⟨hu.2, hv⟩]

theorem decodeUnits_encodeUnits (text : List Char) : decodeUnits (encodeUnits text) = text := by
  induction text with
  | nil => rfl
  | cons c rest ih =>
      have hbounds := toNat_bounds c
      rw [encodeUnits, List.flatMap_cons, ← encodeUnits, encodeChar]
      split_ifs with hplane
      · rw [List.singleton_append, decodeUnits_single (by omega), ih, Char.ofNat_toNat]
      · have hcode : 0x10000 + (0xD800 + (c.toNat - 0x10000) / 0x400 - 0xD800) * 0x400 +
            (0xDC00 + (c.toNat - 0x10000) % 0x400 - 0xDC00) = c.toNat := by
          omega
        rw [List.cons_append, List.singleton_append,
          decodeUnits_pair (by omega) (by omega), hcode, ih, Char.ofNat_toNat]

theorem decodeLossy_encode (text : String) : decodeLossy (encode text).toArray = text := by
  have hunits : ∀ unit ∈ encodeUnits text.toList, unit < 0x10000 := by
    intro unit hmem
    obtain ⟨c, -, hunit⟩ := List.mem_flatMap.mp hmem
    exact encodeChar_lt c unit hunit
  rw [decodeLossy, encode, List.toList_toArray, units_flatMap hunits, decodeUnits_encodeUnits,
    String.ofList_toList]

end Utf16

/-!
## Integers
-/

namespace IntegerType

/-- The number of bytes of an integer. -/
def width : IntegerType → Nat
  | int8 | uint8 => 1
  | int16 | uint16 => 2
  | int32 | uint32 => 4
  | int64 | uint64 => 8

/-- The element type that stands for an integer type. -/
def element : IntegerType → Nat
  | int8 => 0x04
  | uint8 => 0x05
  | int16 => 0x06
  | uint16 => 0x07
  | int32 => 0x08
  | uint32 => 0x09
  | int64 => 0x0A
  | uint64 => 0x0B

def signed : IntegerType → Bool
  | int8 | int16 | int32 | int64 => true
  | uint8 | uint16 | uint32 | uint64 => false

/-- An integer has room in the type. -/
def Holds (type : IntegerType) (value : Int) : Prop :=
  if type.signed then -2 ^ (8 * type.width - 1) ≤ value ∧ value < 2 ^ (8 * type.width - 1)
  else 0 ≤ value ∧ value < 2 ^ (8 * type.width)

instance (type : IntegerType) (value : Int) : Decidable (type.Holds value) :=
  inferInstanceAs (Decidable (ite ..))

end IntegerType

/-- The number that stands for an integer in so many bits. -/
def Bytes.wrapped (bits : Nat) (value : Int) : Nat := (value % 2 ^ bits).toNat

theorem Bytes.wrapped_lt (width : Nat) (value : Int) :
    wrapped (8 * width) value < Nat.pow 256 width := by
  have hpower : (2 : Int) ^ (8 * width) = ((Nat.pow 256 width : Nat) : Int) := by
    rw [pow_mul, Nat.pow_eq, Nat.cast_pow]
    rfl
  have hpositive : (0 : Int) < 2 ^ (8 * width) := Int.pow_pos (by decide)
  have hlt := Int.emod_lt_of_pos value hpositive
  have hnonneg := Int.emod_nonneg value hpositive.ne'
  rw [wrapped]
  omega

/-- An integer that has room for its sign is read back. -/
theorem Bytes.twosComplement_wrapped (less : Nat) {value : Int} (hleast : -2 ^ less ≤ value)
    (hgreatest : value < 2 ^ less) :
    twosComplement (less + 1) (wrapped (less + 1) value) = value := by
  obtain ⟨half, hhalf⟩ : ∃ half : Int, half = 2 ^ less := ⟨_, rfl⟩
  have hpower : ((Nat.pow 2 less : Nat) : Int) = half := by
    rw [hhalf, Nat.pow_eq, Nat.cast_pow]
    rfl
  have hwhole : (2 : Int) ^ (less + 1) = half + half := by
    rw [pow_succ, hhalf, mul_two]
  have hcast : ((Nat.pow 2 (less + 1) : Nat) : Int) = half + half := by
    rw [← hwhole, Nat.pow_eq, Nat.cast_pow]
    rfl
  rw [← hhalf] at hleast hgreatest
  have hwrapped : value % (half + half) = if 0 ≤ value then value else value + (half + half) := by
    split_ifs with hsign
    · exact Int.emod_eq_of_lt hsign (by omega)
    · rw [← Int.add_emod_right]
      exact Int.emod_eq_of_lt (by omega) (by omega)
  rw [twosComplement, wrapped, hwhole, hwrapped, hcast, Nat.add_sub_cancel]
  split_ifs <;> omega

/-!
## Values
-/

/-- The element type and the bytes of a value. -/
inductive ConstantForm : Constant → (element : Nat) → List UInt8 → Prop where
  | boolean (value : Bool) : ConstantForm (.boolean value) 0x02 [if value then 1 else 0]
  | char {c : Char} (h : c.toNat < 0x10000) :
      ConstantForm (.char c) 0x03 (ofLittleEndian 2 c.toNat)
  | integer {type : IntegerType} {value : Int} (h : type.Holds value) :
      ConstantForm (.integer type value) type.element
        (ofLittleEndian type.width (Bytes.wrapped (8 * type.width) value))
  | single {bits : Nat} (h : bits < 2 ^ 32) :
      ConstantForm (.single bits) 0x0C (ofLittleEndian 4 bits)
  | double {bits : Nat} (h : bits < 2 ^ 64) :
      ConstantForm (.double bits) 0x0D (ofLittleEndian 8 bits)
  | text (value : String) : ConstantForm (.text value) 0x0E (Utf16.encode value)
  | null : ConstantForm .null 0x12 (List.replicate 4 0)

theorem ConstantForm.element_lt {constant : Constant} {element : Nat} {bytes : List UInt8}
    (h : ConstantForm constant element bytes) : element < 0x100 := by
  cases h with
  | @integer type => cases type <;> decide
  | _ => decide

theorem Bytes.parse_unsigned {width n : Nat} (h : n < Nat.pow 256 width) :
    (Decoder.unsigned width).parse (ofLittleEndian width n).toArray = .ok n := by
  have hparse := Decoder.parse_of_reads (Decoder.reads_unsigned h) []
  rwa [List.append_nil] at hparse

/-- A number that stands for an integer is taken as its type says. -/
theorem decodeConstant_element (type : IntegerType) {n : Nat}
    (h : n < Nat.pow 256 type.width) :
    decodeConstant type.element (ofLittleEndian type.width n).toArray =
      .ok (.integer type (if type.signed then Bytes.twosComplement (8 * type.width) n else n)) := by
  have hword := Bytes.parse_unsigned h
  cases type <;>
    (unfold decodeConstant
     dsimp only [IntegerType.element, IntegerType.width] at hword ⊢
     rw [hword]
     rfl)

theorem decodeConstant_integer {type : IntegerType} {value : Int} (h : type.Holds value) :
    decodeConstant type.element
      (ofLittleEndian type.width (Bytes.wrapped (8 * type.width) value)).toArray =
        .ok (.integer type value) := by
  have hwidth : 8 * type.width - 1 + 1 = 8 * type.width := by cases type <;> rfl
  rw [decodeConstant_element type (Bytes.wrapped_lt type.width value)]
  unfold IntegerType.Holds at h
  split_ifs at h ⊢ with hsigned
  · have hsame := Bytes.twosComplement_wrapped (8 * type.width - 1) h.1 h.2
    rw [hwidth] at hsame
    rw [hsame]
  · rw [Bytes.wrapped, Int.emod_eq_of_lt h.1 h.2, Int.toNat_of_nonneg h.1]

theorem ConstantForm.decode {constant : Constant} {element : Nat} {bytes : List UInt8}
    (h : ConstantForm constant element bytes) :
    decodeConstant element bytes.toArray = .ok constant := by
  cases h with
  | boolean value => cases value <;> rfl
  | @char c h =>
      have hbounds := Utf16.toNat_bounds c
      have hword : (Decoder.unsigned 2).parse (ofLittleEndian 2 c.toNat).toArray = .ok c.toNat :=
        Bytes.parse_unsigned h
      unfold decodeConstant
      dsimp only
      rw [hword, Outcome.ok_bind, if_neg (by omega), Char.ofNat_toNat]
      rfl
  | integer h => exact decodeConstant_integer h
  | single h =>
      unfold decodeConstant
      dsimp only
      rw [Bytes.parse_unsigned h]
      rfl
  | double h =>
      unfold decodeConstant
      dsimp only
      rw [Bytes.parse_unsigned h]
      rfl
  | text value =>
      unfold decodeConstant
      dsimp only
      rw [Utf16.decodeLossy_encode]
      rfl
  | null => rfl

end AssemblyBrowser
