import AssemblyBrowser.Decimal.Shortest
import AssemblyBrowser.Json.Basic

/-!
# JSON text

Two layouts: compact, on one line, and indented, two spaces to a level with a
line for every element. Characters outside ASCII stand for themselves; only the
quote, the backslash and the control characters are escaped.
-/

namespace AssemblyBrowser
namespace Json

def hexDigit (n : Nat) : Char :=
  if n < 10 then Char.ofNat (48 + n) else Char.ofNat (87 + n)

/-- The characters that stand for one character inside quotes. -/
def escapeChar (c : Char) : List Char :=
  if c = '"' then ['\\', '"']
  else if c = '\\' then ['\\', '\\']
  else if c = '\n' then ['\\', 'n']
  else if c = '\r' then ['\\', 'r']
  else if c = '\t' then ['\\', 't']
  else if c = '\x08' then ['\\', 'b']
  else if c = '\x0c' then ['\\', 'f']
  else if c.toNat < 0x20 then
    ['\\', 'u', '0', '0', hexDigit (c.toNat / 16), hexDigit (c.toNat % 16)]
  else [c]

def quote (text : String) : String :=
  String.ofList ('"' :: text.toList.flatMap escapeChar ++ ['"'])

/-- A binary64 number: positional while its point falls within sixteen digits or within
five places after the point, with an exponent otherwise. A whole number keeps a zero place. -/
def realText (bits : UInt64) : String :=
  match Decimal.Binary.ofBits Decimal.binary64 bits.toNat with
  | .nan | .infinity _ => "null"
  | .finite negative mantissa exponent narrowBelow =>
      let s := Decimal.shortest mantissa exponent narrowBelow
      let digits := Nat.toDigits 10 s.digits
      let point : Int := (digits.length : Int) + s.exponent
      let body :=
        if s.digits = 0 then "0.0"
        else if 0 ≤ s.exponent ∧ point ≤ 16 then s.positional ++ ".0"
        else if -5 < point ∧ point ≤ 16 then s.positional
        else
          let tail := if digits.length = 1 then [] else '.' :: digits.drop 1
          String.ofList (digits.take 1 ++ tail) ++ "e" ++ toString (point - 1)
      (if negative then "-" else "") ++ body

mutual
def compact : Json → String
  | .null => "null"
  | .boolean value => if value then "true" else "false"
  | .whole value => toString value
  | .real bits => realText bits
  | .text value => quote value
  | .array elements => "[" ++ compactElements elements ++ "]"
  | .object members => "\x7b" ++ compactMembers members ++ "\x7d"

/-- The elements of an array, separated by commas. -/
def compactElements : List Json → String
  | [] => ""
  | [json] => compact json
  | json :: rest => compact json ++ "," ++ compactElements rest

/-- The members of an object, separated by commas. -/
def compactMembers : List (String × Json) → String
  | [] => ""
  | [(name, json)] => quote name ++ ":" ++ compact json
  | (name, json) :: rest => quote name ++ ":" ++ compact json ++ "," ++ compactMembers rest
end

def indentation (level : Nat) : String :=
  "\n" ++ String.ofList (List.replicate (2 * level) ' ')

mutual
/-- The text of a value at a level of indentation, a line for every element and member. -/
def indentedAt (level : Nat) : Json → String
  | .array [] => "[]"
  | .object [] => "\x7b\x7d"
  | .array elements => "[" ++ indentedElements (level + 1) elements ++ indentation level ++ "]"
  | .object members =>
      "\x7b" ++ indentedMembers (level + 1) members ++ indentation level ++ "\x7d"
  | .null => "null"
  | .boolean value => if value then "true" else "false"
  | .whole value => toString value
  | .real bits => realText bits
  | .text value => quote value

def indentedElements (level : Nat) : List Json → String
  | [] => ""
  | [json] => indentation level ++ indentedAt level json
  | json :: rest =>
      indentation level ++ indentedAt level json ++ "," ++ indentedElements level rest

def indentedMembers (level : Nat) : List (String × Json) → String
  | [] => ""
  | [(name, json)] => indentation level ++ quote name ++ ": " ++ indentedAt level json
  | (name, json) :: rest =>
      indentation level ++ quote name ++ ": " ++ indentedAt level json ++ ","
        ++ indentedMembers level rest
end

def indented (json : Json) : String := indentedAt 0 json

end Json
end AssemblyBrowser
