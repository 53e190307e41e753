/-!
# Byte strings

The files that the browser reads are byte strings. This module fixes their
type, the little-endian reading of a few bytes as a number, and the bounded
cut of a range.
-/

namespace AssemblyBrowser

abbrev Bytes := Array UInt8

namespace Bytes

/-- The number whose base-256 digits, least significant first, are the given bytes. -/
def littleEndian : List UInt8 → Nat
  | [] => 0
  | b :: rest => b.toNat + 256 * littleEndian rest

/-- The lowest `width` base-256 digits of a number, least significant first. -/
def ofLittleEndian : (width : Nat) → Nat → List UInt8
  | 0, _ => []
  | width + 1, n => UInt8.ofNat n :: ofLittleEndian width (n / 256)

/-- The `length` bytes from `start` on, if the data reaches that far. -/
def slice? (data : Bytes) (start length : Nat) : Option Bytes :=
  if start + length ≤ data.size then some (data.extract start (start + length)) else none

/-- The bytes from `start` up to `stop`, if the data has them. -/
def between? (data : Bytes) (start stop : Nat) : Option Bytes :=
  if start ≤ stop ∧ stop ≤ data.size then some (data.extract start stop) else none

/-- The little-endian number of `width` bytes at `start`, if the data reaches that far. -/
def uintAt? (data : Bytes) (start width : Nat) : Option Nat :=
  (data.slice? start width).map fun bytes => littleEndian bytes.toList

/-- Reads an unsigned number of `bits` bits as two's complement. -/
def twosComplement (bits n : Nat) : Int :=
  if n < Nat.pow 2 (bits - 1) then (n : Int) else (n : Int) - Nat.pow 2 bits

theorem ofLittleEndian_length (width n : Nat) : (ofLittleEndian width n).length = width := by
  induction width generalizing n with
  | zero => rfl
  | succ width ih => simp [ofLittleEndian, ih]

theorem littleEndian_ofLittleEndian (width n : Nat) (h : n < Nat.pow 256 width) :
    littleEndian (ofLittleEndian width n) = n := by
  induction width generalizing n with
  | zero => simp at h; simp [ofLittleEndian, littleEndian, h]
  | succ width ih =>
      have hdiv : n / 256 < Nat.pow 256 width := by
        have bound : n < Nat.pow 256 width * 256 := h
        exact Nat.div_lt_of_lt_mul (by rwa [Nat.mul_comm] at bound)
      simp only [ofLittleEndian, littleEndian, ih _ hdiv, UInt8.toNat_ofNat']
      omega

end Bytes
end AssemblyBrowser
