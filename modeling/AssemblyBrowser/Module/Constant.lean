import AssemblyBrowser.Decimal.Rounding
import AssemblyBrowser.Text.Numeral

/-!
# Constants

The values of literal fields: how they are shown and which number they are.
-/

/-! ## Escaped text

Character and string constants are shown in ASCII: quotes, the backslash, tabs
and line breaks by a backslash and a letter, all else outside the printable range
by its code point in braces.
-/

namespace AssemblyBrowser
namespace Escape

def ofChar (c : Char) : List Char :=
  if c = '\t' then ['\\', 't']
  else if c = '\r' then ['\\', 'r']
  else if c = '\n' then ['\\', 'n']
  else if c = '\'' ∨ c = '"' ∨ c = '\\' then ['\\', c]
  else if ' ' ≤ c ∧ c ≤ '~' then [c]
  else ['\\', 'u', '\x7b'] ++ Nat.toDigits 16 c.toNat ++ ['\x7d']

def ofText (text : String) : String := String.ofList (text.toList.flatMap ofChar)

end Escape

/-! ## Values -/

/-- An integer type of fixed width. -/
inductive IntegerType where
  | int8
  | uint8
  | int16
  | uint16
  | int32
  | uint32
  | int64
  | uint64
  deriving DecidableEq, Repr

def IntegerType.suffix : IntegerType → String
  | uint32 => "u"
  | int64 => "L"
  | uint64 => "uL"
  | _ => ""

/-- The value of a literal field. -/
inductive Constant where
  | boolean (value : Bool)
  | char (value : Char)
  | integer (type : IntegerType) (value : Int)
  /-- A four-byte number, by its bits. -/
  | single (bits : Nat)
  /-- An eight-byte number, by its bits. -/
  | double (bits : Nat)
  | text (value : String)
  | null
  deriving DecidableEq

namespace Constant

def display : Constant → String
  | boolean value => if value then "true" else "false"
  | char value => "'" ++ String.ofList (Escape.ofChar value) ++ "'"
  | integer type value => toString value ++ type.suffix
  | single bits => Decimal.plainText Decimal.binary32 bits ++ "f"
  | double bits => Decimal.plainText Decimal.binary64 bits
  | text value => "\"" ++ Escape.ofText value ++ "\""
  | null => "null"

/-- The bits of the nearest binary64 number, for values that are numbers or truth values. -/
def number? : Constant → Option Nat
  | boolean value => some (Decimal.nearestOfInt Decimal.binary64 (if value then 1 else 0))
  | integer _ value => some (Decimal.nearestOfInt Decimal.binary64 value)
  | single bits => some (Decimal.widen bits)
  | double bits => some bits
  | char _ => none
  | text _ => none
  | null => none

end Constant
end AssemblyBrowser
