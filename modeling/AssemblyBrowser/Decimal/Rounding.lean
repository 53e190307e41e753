import AssemblyBrowser.Decimal.Shortest

/-!
# Rounding to a binary format

The bit pattern of the number of a binary format that is nearest to an exact
fraction; of two equally near ones the one with an even last bit. Fractions too
large for the format become infinite.
-/

namespace AssemblyBrowser
namespace Decimal

namespace BinaryFormat

/-- The exponent of the smallest numbers of a format. -/
def minExponent (format : BinaryFormat) : Int :=
  2 - Nat.pow 2 (format.exponentBits - 1) - (format.fractionBits : Int)

def signBit (format : BinaryFormat) : Nat := Nat.pow 2 (format.fractionBits + format.exponentBits)

def infinityBits (format : BinaryFormat) : Nat :=
  (Nat.pow 2 format.exponentBits - 1) * Nat.pow 2 format.fractionBits

end BinaryFormat

/-- The fraction with a power of two divided out. -/
def Ratio.shiftDown (r : Ratio) (exponent : Int) : Ratio :=
  match exponent with
  | .ofNat e => ⟨r.numerator, r.denominator * Nat.pow 2 e⟩
  | .negSucc e => ⟨r.numerator * Nat.pow 2 (e + 1), r.denominator⟩

/-- The nearest integer of a fraction, the even one of two. -/
def Ratio.roundEven (r : Ratio) : Nat :=
  let q := r.numerator / r.denominator
  let rest := r.numerator % r.denominator
  if 2 * rest < r.denominator then q
  else if r.denominator < 2 * rest then q + 1
  else if q % 2 = 0 then q else q + 1

/-- The pattern nearest to a fraction with a sign. -/
def nearestBits (format : BinaryFormat) (negative : Bool) (r : Ratio) : Nat :=
  let sign := if negative then format.signBit else 0
  if r.numerator = 0 then sign
  else
    let guess : Int := (r.numerator.log2 : Int) - r.denominator.log2 - format.fractionBits
    let scaled := r.shiftDown guess
    let exponent :=
      if scaled.numerator < scaled.denominator * Nat.pow 2 format.fractionBits then guess - 1
      else guess
    let exponent := max exponent format.minExponent
    let mantissa := (r.shiftDown exponent).roundEven
    let bits := (exponent - format.minExponent).toNat * Nat.pow 2 format.fractionBits + mantissa
    sign + min bits format.infinityBits

def Scientific.ratio (s : Scientific) : Ratio :=
  match s.exponent with
  | .ofNat e => ⟨s.digits * Nat.pow 10 e, 1⟩
  | .negSucc e => ⟨s.digits, Nat.pow 10 (e + 1)⟩

/-- The pattern nearest to a decimal; exponents far outside the range of the format are not
expanded. -/
def Scientific.nearestBits (format : BinaryFormat) (negative : Bool) (s : Scientific) : Nat :=
  let magnitude : Int := (digitCount s.digits : Int) + s.exponent
  let sign := if negative then format.signBit else 0
  if s.digits = 0 ∨ magnitude < -400 then sign
  else if 400 < magnitude then sign + format.infinityBits
  else Decimal.nearestBits format negative s.ratio

def nearestOfInt (format : BinaryFormat) (n : Int) : Nat :=
  nearestBits format (n < 0) ⟨n.natAbs, 1⟩

/-- The binary64 pattern of a binary32 number; a pattern that is not a number keeps its
payload and becomes quiet. -/
def widen (bits : Nat) : Nat :=
  match Binary.ofBits binary32 bits with
  | .nan =>
      bits / 0x80000000 % 2 * 0x8000000000000000 + binary64.infinityBits
        + ((bits % 0x400000 + 0x400000) * 0x20000000)
  | .infinity negative => (if negative then binary64.signBit else 0) + binary64.infinityBits
  | .finite negative mantissa exponent _ =>
      nearestBits binary64 negative (Ratio.scaled mantissa exponent)

/-- Whether two binary64 patterns are equal as numbers: no pattern that is not a number equals
any other, and both zeros are equal. -/
def sameNumber (a b : Nat) : Bool :=
  match Binary.ofBits binary64 a, Binary.ofBits binary64 b with
  | .nan, _ | _, .nan => false
  | _, _ => a == b || (a % binary64.signBit == 0 && b % binary64.signBit == 0)

end Decimal
end AssemblyBrowser
