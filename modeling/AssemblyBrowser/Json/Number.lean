import AssemblyBrowser.Decimal.Rounding
import AssemblyBrowser.Json.Basic

/-!
# Numbers in JSON text

An integer of 64 bits is kept as it is. Of any other number the leading digits
that fit into 64 bits are rounded to binary64 and scaled by a power of ten that
is rounded itself, so that up to 15 digits with a small exponent give the nearest
number and others may miss it by little.
-/

namespace AssemblyBrowser
namespace Json

def digitValue (c : Char) : Nat := c.toNat - 48

/-- The number that a run of decimal digits writes. -/
def digitsValue (digits : List Char) : Nat :=
  digits.foldl (fun n c => n * 10 + digitValue c) 0

/-- The number that results when digits are put behind `start` for as long as it fits into 64
bits, and how many are. -/
def appendDigits (start : Nat) : List Char → Nat × Nat
  | [] => (start, 0)
  | c :: rest =>
      let next := start * 10 + digitValue c
      if next < UInt64.size then
        let (value, count) := appendDigits next rest
        (value, count + 1)
      else (start, 0)

/-- The greatest exponent of a power of ten that binary64 has room for. -/
def maxPower : Nat := 308

/-- The fraction that a positive binary64 pattern stands for. -/
def fractionOf (bits : Nat) : Decimal.Ratio :=
  match Decimal.Binary.ofBits Decimal.binary64 bits with
  | .finite _ mantissa exponent _ => .scaled mantissa exponent
  | _ => ⟨0, 1⟩

/-- The nearest binary64 pattern of a positive fraction. -/
def rounded (r : Decimal.Ratio) : Nat := Decimal.nearestBits Decimal.binary64 false r

def powerOfTen (exponent : Nat) : Decimal.Ratio := fractionOf (rounded ⟨Nat.pow 10 exponent, 1⟩)

/-- The rounded product of a pattern with a fraction. -/
def multiplied (bits : Nat) (factor : Decimal.Ratio) : Nat :=
  let value := fractionOf bits
  rounded ⟨value.numerator * factor.numerator, value.denominator * factor.denominator⟩

/-- The rounded quotient of a pattern by a fraction. -/
def divided (bits : Nat) (divisor : Decimal.Ratio) : Nat :=
  let value := fractionOf bits
  rounded ⟨value.numerator * divisor.denominator, value.denominator * divisor.numerator⟩

/-- The pattern scaled by a power of ten, unless it is out of range. Exponents below the range
are reached in at most `steps` divisions. -/
def scale : (steps bits : Nat) → (exponent : Int) → Option Nat
  | 0, bits, _ => some bits
  | steps + 1, bits, exponent =>
      if bits = 0 then some 0
      else if exponent.natAbs ≤ maxPower then
        if exponent < 0 then some (divided bits (powerOfTen exponent.natAbs))
        else
          let product := multiplied bits (powerOfTen exponent.natAbs)
          if product < Decimal.binary64.infinityBits then some product else none
      else if 0 < exponent then none
      else scale steps (divided bits (powerOfTen maxPower)) (exponent + maxPower)

/-- The number with digits before the point, digits behind it and an exponent, unless it is out
of range. Three divisions make a number of 64 bits vanish. -/
def real? (negative : Bool) (whole places : List Char) (exponent : Int) : Option Json := do
  let (leading, count) := appendDigits 0 whole
  let (digits, countBehind) := appendDigits leading places
  let shift : Int := (whole.length : Int) - count - countBehind
  let bits ← scale 4 (rounded ⟨digits, 1⟩) (exponent + shift)
  let sign := if negative then Decimal.binary64.signBit else 0
  return .real (UInt64.ofNat (sign + bits))

end Json
end AssemblyBrowser
