/-!
# Shortest decimals

A binary floating-point number stands for all reals that round to it. This
module finds, with exact integer arithmetic, the decimal with the fewest digits
among those reals; of several such decimals it takes the one nearest to the
number, and of two equally near ones the larger.
-/

namespace AssemblyBrowser
namespace Decimal

/-- The layout of a binary interchange format. -/
structure BinaryFormat where
  fractionBits : Nat
  exponentBits : Nat

def binary32 : BinaryFormat := ⟨23, 8⟩

def binary64 : BinaryFormat := ⟨52, 11⟩

/-- What a bit pattern stands for. -/
inductive Binary where
  | nan
  | infinity (negative : Bool)
  /-- The number `mantissa * 2 ^ exponent`; `narrowBelow` holds when the gap to the next
  smaller number is half the gap to the next larger one. -/
  | finite (negative : Bool) (mantissa : Nat) (exponent : Int) (narrowBelow : Bool)
  deriving DecidableEq, Repr

def Binary.ofBits (format : BinaryFormat) (bits : Nat) : Binary :=
  let fraction := bits % Nat.pow 2 format.fractionBits
  let exponent := bits / Nat.pow 2 format.fractionBits % Nat.pow 2 format.exponentBits
  let negative := bits / Nat.pow 2 (format.fractionBits + format.exponentBits) % 2 == 1
  let top := Nat.pow 2 format.exponentBits - 1
  let bias : Int := Nat.pow 2 (format.exponentBits - 1) - 1 + (format.fractionBits : Int)
  if exponent = top then
    if fraction = 0 then .infinity negative else .nan
  else if exponent = 0 then .finite negative fraction (1 - bias) false
  else
    .finite negative (Nat.pow 2 format.fractionBits + fraction) ((exponent : Int) - bias)
      (fraction == 0 && exponent != 1)

def digitCount (n : Nat) : Nat :=
  if n = 0 then 0 else (Nat.toDigits 10 n).length

/-- The fraction `numerator / denominator`. -/
structure Ratio where
  numerator : Nat
  denominator : Nat

def Ratio.scaled (n : Nat) (exponent : Int) : Ratio :=
  match exponent with
  | .ofNat e => ⟨n * Nat.pow 2 e, 1⟩
  | .negSucc e => ⟨n, Nat.pow 2 (e + 1)⟩

/-- The least power of ten above a positive fraction: the answer `k` has `r < 10 ^ k` and
`10 ^ (k - 1) ≤ r`. -/
def Ratio.magnitude (r : Ratio) : Int :=
  if r.denominator ≤ r.numerator then digitCount (r.numerator / r.denominator)
  else 1 - (digitCount ((r.denominator + r.numerator - 1) / r.numerator - 1) : Int)

/-- Both sides of the comparison of `n * 10 ^ exponent` with a fraction, as integers. -/
def sides (n : Nat) (exponent : Int) (r : Ratio) : Nat × Nat :=
  match exponent with
  | .ofNat e => (n * Nat.pow 10 e * r.denominator, r.numerator)
  | .negSucc e => (n * r.denominator, r.numerator * Nat.pow 10 (e + 1))

/-- The reals that round to a number: everything between two fractions, with or without them. -/
structure Interval where
  low : Ratio
  high : Ratio
  closed : Bool

/-- Whether `n * 10 ^ exponent` lies in the interval. -/
def Interval.holds (interval : Interval) (n : Nat) (exponent : Int) : Bool :=
  let (a, low) := sides n exponent interval.low
  let (b, high) := sides n exponent interval.high
  if interval.closed then low ≤ a && b ≤ high else low < a && b < high

/-- The decimal `digits * 10 ^ exponent`. -/
structure Scientific where
  digits : Nat
  exponent : Int
  deriving DecidableEq, Repr

/-- The decimal of exactly the exponent `exponent` that is in the interval and nearest to the
value; the larger of two equally near ones. -/
def nearestOnGrid (value : Ratio) (interval : Interval) (exponent : Int) : Option Scientific :=
  let (one, target) := sides 1 exponent value
  let below := target / one
  let above := below + 1
  match interval.holds below exponent, interval.holds above exponent with
  | true, true =>
      if target - below * one < above * one - target then some ⟨below, exponent⟩
      else some ⟨above, exponent⟩
  | true, false => some ⟨below, exponent⟩
  | false, true => some ⟨above, exponent⟩
  | false, false => none

/-- Tries grids of growing fineness, `fuel` at most. -/
def searchGrids (value : Ratio) (interval : Interval) : (fuel : Nat) → Int → Scientific
  | 0, exponent => ⟨0, exponent⟩
  | fuel + 1, exponent =>
      match nearestOnGrid value interval exponent with
      | some found => found
      | none => searchGrids value interval fuel (exponent - 1)

/-- Moves trailing zeros of the digits into the exponent; at most `fuel` of them. -/
def Scientific.trim : (fuel : Nat) → Scientific → Scientific
  | 0, s => s
  | fuel + 1, s =>
      if s.digits ≠ 0 ∧ s.digits % 10 = 0 then trim fuel ⟨s.digits / 10, s.exponent + 1⟩ else s

/-- The shortest decimal that rounds to `mantissa * 2 ^ exponent`. -/
def shortest (mantissa : Nat) (exponent : Int) (narrowBelow : Bool) : Scientific :=
  if mantissa = 0 then ⟨0, 0⟩
  else
    let fine := exponent - 2
    let value := Ratio.scaled (4 * mantissa) fine
    let interval : Interval :=
      { low := Ratio.scaled (4 * mantissa - (if narrowBelow then 1 else 2)) fine
        high := Ratio.scaled (4 * mantissa + 2) fine
        closed := mantissa % 2 == 0 }
    (searchGrids value interval 40 value.magnitude).trim 40

/-- Writes a decimal with all its places and a point only where a fraction follows. -/
def Scientific.positional (s : Scientific) : String :=
  let digits := Nat.toDigits 10 s.digits
  match s.exponent with
  | .ofNat e => String.ofList (digits ++ List.replicate (if s.digits = 0 then 0 else e) '0')
  | .negSucc e =>
      let places := e + 1
      let padded := List.replicate (places + 1 - digits.length) '0' ++ digits
      let whole := padded.length - places
      String.ofList (padded.take whole ++ '.' :: padded.drop whole)

/-- The plain text of a floating-point number: its shortest decimal, never with an exponent. -/
def plainText (format : BinaryFormat) (bits : Nat) : String :=
  match Binary.ofBits format bits with
  | .nan => "NaN"
  | .infinity negative => if negative then "-inf" else "inf"
  | .finite negative mantissa exponent narrowBelow =>
      (if negative then "-" else "") ++ (shortest mantissa exponent narrowBelow).positional

end Decimal
end AssemblyBrowser
