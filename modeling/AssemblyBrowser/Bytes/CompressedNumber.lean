import AssemblyBrowser.Bytes.Decoder

/-!
# Numbers of variable length

Two encodings spend fewer bytes on smaller numbers. Signature blobs write a
number below 2^29 in one, two or four bytes; the high bits of the first byte tell
which. A type token is written as such a number whose two low bits choose the
table.
-/

namespace AssemblyBrowser
namespace CompressedNumber

/-- The bytes of a number below 2^29, in the shortest of the three forms. -/
def encode (n : Nat) : List UInt8 :=
  if n < 0x80 then [UInt8.ofNat n]
  else if n < 0x4000 then [UInt8.ofNat (0x80 + n / 0x100), UInt8.ofNat n]
  else
    [UInt8.ofNat (0xC0 + n / 0x1000000), UInt8.ofNat (n / 0x10000), UInt8.ofNat (n / 0x100),
      UInt8.ofNat n]

def decode : Decoder Nat := do
  let first ← Decoder.byte
  if first < 0x80 then return first
  else if first < 0xC0 then
    let second ← Decoder.byte
    return (first - 0x80) * 0x100 + second
  else if first < 0xE0 then
    let b1 ← Decoder.byte
    let b2 ← Decoder.byte
    let b3 ← Decoder.byte
    return ((first - 0xC0) * 0x100 + b1) * 0x10000 + b2 * 0x100 + b3
  else Decoder.malformed (.compressedNumber first)

/-- The tables that a type token may name, by tag. -/
def tokenTable? : (tag : Nat) → Option Nat
  | 0 => some 0x02
  | 1 => some 0x01
  | 2 => some 0x1B
  | _ => none

/-- The bytes of a type token of the table with the given tag. -/
def encodeToken (tag row : Nat) : List UInt8 := encode (row * 4 + tag)

def decodeToken : Decoder Token := do
  let n ← decode
  match tokenTable? (n % 4) with
  | some table =>
      return Token.ofNat (← Decoder.ofExcept (Bounded.add UInt32.size (table * 0x1000000) (n / 4)))
  | none => Decoder.malformed (.compressedToken n)

end CompressedNumber
end AssemblyBrowser

/-! ## Seven-bit numbers

Bundle manifests write a length in groups of seven bits, least significant
group first; the high bit of every byte but the last is set. A 32-bit number
needs at most five groups.
-/

namespace AssemblyBrowser
namespace SevenBitNumber

/-- The groups of a number; `fuel` bounds how many are written. -/
def encodeGroups : (fuel : Nat) → Nat → List UInt8
  | 0, n => [UInt8.ofNat (n % 0x80)]
  | fuel + 1, n =>
      if n < 0x80 then [UInt8.ofNat n]
      else UInt8.ofNat (0x80 + n % 0x80) :: encodeGroups fuel (n / 0x80)

def encode (n : Nat) : List UInt8 := encodeGroups 4 n

/-- The largest number of bits that the groups of a number may hold. -/
def maxBits : Nat := 35

/-- Reads the remaining groups of a number of which the lowest `shift` bits are `value`. -/
def decodeGroups : (groups : Nat) → (shift value : Nat) → Decoder Nat
  | 0, _, _ => Decoder.malformed (.sevenBitOverflow maxBits)
  | groups + 1, shift, value => do
      let b ← Decoder.byte
      let value := value + b % 0x80 * Nat.pow 2 shift % UInt32.size
      if b < 0x80 then return value else decodeGroups groups (shift + 7) value

/-- Reads a number of at most five groups; bits past the 32nd are dropped. -/
def decode : Decoder Nat := decodeGroups 5 0 0

end SevenBitNumber
end AssemblyBrowser
