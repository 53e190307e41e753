import AssemblyBrowser.Bytes.Basic
import AssemblyBrowser.Decimal.Rounding

/-!
# Numerals

Numbers padded to a width, and bytes as pairs of lower-case digits.

Numbers as they are typed: digits of a base, perhaps behind a sign, and decimals
with a fraction and an exponent.
-/

namespace AssemblyBrowser

/-!
## Hexadecimal text
-/

namespace Hex

def digit (n : Nat) : Char :=
  if n < 10 then Char.ofNat (48 + n) else Char.ofNat (87 + n)

def value? (c : Char) : Option Nat :=
  if '0' ≤ c ∧ c ≤ '9' then some (c.toNat - 48)
  else if 'a' ≤ c ∧ c ≤ 'f' then some (c.toNat - 87)
  else if 'A' ≤ c ∧ c ≤ 'F' then some (c.toNat - 55)
  else none

def padded (width n : Nat) : String :=
  let digits := Nat.toDigits 16 n
  String.ofList (List.replicate (width - digits.length) '0' ++ digits)

def ofBytes (bytes : Bytes) : String :=
  String.ofList (bytes.toList.flatMap fun b => [digit (b.toNat / 16), digit (b.toNat % 16)])

def toBytesFrom : List Char → Option (List UInt8)
  | [] => some []
  | [_] => none
  | a :: b :: rest => do
      let high ← value? a
      let low ← value? b
      let bytes ← toBytesFrom rest
      return UInt8.ofNat (high * 16 + low) :: bytes

def toBytes? (text : String) : Option Bytes :=
  (toBytesFrom text.toList).map List.toArray

end Hex
end AssemblyBrowser

/-!
## Typed numbers
-/

namespace AssemblyBrowser.Numeral

def digit? (base : Nat) (c : Char) : Option Nat := (Hex.value? c).filter (· < base)

/-- The number that digits write, after those in front of them. -/
def digitsFrom? (base : Nat) : (number : Nat) → List Char → Option Nat
  | number, [] => some number
  | number, c :: rest => do digitsFrom? base (number * base + (← digit? base c)) rest

def natural? (base : Nat) (digits : List Char) : Option Nat :=
  if digits.isEmpty then none else digitsFrom? base 0 digits

/-- A number of at most so many bits, perhaps with a plus sign. -/
def unsigned? (base bits : Nat) (chars : List Char) : Option Nat :=
  let digits :=
    match chars with
    | '+' :: rest => rest
    | _ => chars
  (natural? base digits).filter (· < Nat.pow 2 bits)

/-- A number of at most so many bits with its sign, perhaps with a sign in front. -/
def signed? (base bits : Nat) (chars : List Char) : Option Int :=
  let number : Option Int :=
    match chars with
    | '+' :: rest => (natural? base rest).map fun n => (n : Int)
    | '-' :: rest => (natural? base rest).map fun n => -(n : Int)
    | _ => (natural? base chars).map fun n => (n : Int)
  number.filter fun n => -(Nat.pow 2 (bits - 1) : Int) ≤ n ∧ n < Nat.pow 2 (bits - 1)

/-- What follows the mark of a hexadecimal number. -/
def afterHexMark? : List Char → Option (List Char)
  | '0' :: 'x' :: rest => some rest
  | '0' :: 'X' :: rest => some rest
  | _ => none

/-- The exponent of a decimal; without a mark it is zero. -/
def exponent? : List Char → Option Int
  | [] => some 0
  | mark :: rest =>
      if mark = 'e' ∨ mark = 'E' then
        match rest with
        | '+' :: digits => (natural? 10 digits).map fun n => (n : Int)
        | '-' :: digits => (natural? 10 digits).map fun n => -(n : Int)
        | digits => (natural? 10 digits).map fun n => (n : Int)
      else none

/-- A decimal without a sign. Digits may be missing on one side of the point. -/
def magnitude? (chars : List Char) : Option Decimal.Scientific :=
  let whole := chars.takeWhile Char.isDigit
  let rest := chars.dropWhile Char.isDigit
  let (places, rest) :=
    match rest with
    | '.' :: after => (after.takeWhile Char.isDigit, after.dropWhile Char.isDigit)
    | _ => ([], rest)
  do
    let digits ← natural? 10 (whole ++ places)
    let exponent ← exponent? rest
    return ⟨digits, exponent - (places.length : Int)⟩

/-- The binary64 pattern nearest to a decimal, unless it is infinite. -/
def real? (chars : List Char) : Option Nat := do
  let (negative, rest) :=
    match chars with
    | '+' :: rest => (false, rest)
    | '-' :: rest => (true, rest)
    | _ => (false, chars)
  let bits := (← magnitude? rest).nearestBits Decimal.binary64 negative
  if bits % Decimal.binary64.signBit = Decimal.binary64.infinityBits then none else some bits

end AssemblyBrowser.Numeral
