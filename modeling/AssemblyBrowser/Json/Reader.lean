import AssemblyBrowser.Json.Number

/-!
# Reading JSON text

A strict reader: no comments, no trailing commas, no unpaired surrogates and no
control characters inside quotes. Arrays and objects nest at most 127 deep.
-/

namespace AssemblyBrowser
namespace Json

/-- The characters that may stand between tokens. -/
def isBlank (c : Char) : Bool :=
  c == ' ' || c == '\n' || c == '\r' || c == '\t'

def skipBlanks (chars : List Char) : List Char :=
  chars.dropWhile isBlank

/-- The value of a hexadecimal digit of either case. -/
def hexValue? (c : Char) : Option Nat :=
  if '0' ≤ c ∧ c ≤ '9' then some (c.toNat - 48)
  else if 'a' ≤ c ∧ c ≤ 'f' then some (c.toNat - 87)
  else if 'A' ≤ c ∧ c ≤ 'F' then some (c.toNat - 55)
  else none

def unit? (a b c d : Char) : Option Nat := do
  let a ← hexValue? a
  let b ← hexValue? b
  let c ← hexValue? c
  let d ← hexValue? d
  return ((a * 16 + b) * 16 + c) * 16 + d

/-- The character that a backslash and a letter stand for. -/
def escape? : Char → Option Char
  | '"' => some '"'
  | '\\' => some '\\'
  | '/' => some '/'
  | 'b' => some '\x08'
  | 'f' => some '\x0c'
  | 'n' => some '\n'
  | 'r' => some '\r'
  | 't' => some '\t'
  | _ => none

/-- Reads the inside of a quoted text up to and including the closing quote. -/
def readQuoted : List Char → Option (List Char × List Char)
  | [] => none
  | '"' :: rest => some ([], rest)
  | '\\' :: 'u' :: a :: b :: c :: d :: rest =>
      match unit? a b c d with
      | none => none
      | some high =>
          if high < 0xD800 ∨ 0xE000 ≤ high then
            (readQuoted rest).map fun r => (Char.ofNat high :: r.1, r.2)
          else if 0xDC00 ≤ high then none
          else
            match rest with
            | '\\' :: 'u' :: e :: f :: g :: h :: rest =>
                match unit? e f g h with
                | none => none
                | some low =>
                    if 0xDC00 ≤ low ∧ low < 0xE000 then
                      let c := Char.ofNat (0x10000 + (high - 0xD800) * 0x400 + (low - 0xDC00))
                      (readQuoted rest).map fun r => (c :: r.1, r.2)
                    else none
            | _ => none
  | '\\' :: c :: rest =>
      match escape? c with
      | none => none
      | some c => (readQuoted rest).map fun r => (c :: r.1, r.2)
  | c :: rest =>
      if c = '\\' ∨ c.toNat < 0x20 then none
      else (readQuoted rest).map fun r => (c :: r.1, r.2)

def readNumber (chars : List Char) : Option (Json × List Char) :=
  let (negative, chars) := match chars with
    | '-' :: rest => (true, rest)
    | chars => (false, chars)
  let whole := chars.takeWhile Char.isDigit
  let rest := chars.dropWhile Char.isDigit
  if whole.isEmpty ∨ (whole.length > 1 ∧ whole.head? = some '0') then none
  else
    let fraction : Option (List Char × List Char) := match rest with
      | '.' :: after =>
          let digits := after.takeWhile Char.isDigit
          if digits.isEmpty then none else some (digits, after.dropWhile Char.isDigit)
      | rest => some ([], rest)
    match fraction with
    | none => none
    | some (places, rest) =>
        let exponent : Option (Option Int × List Char) := match rest with
          | e :: after =>
              if e = 'e' ∨ e = 'E' then
                let (minus, after) := match after with
                  | '-' :: after => (true, after)
                  | '+' :: after => (false, after)
                  | after => (false, after)
                let digits := after.takeWhile Char.isDigit
                if digits.isEmpty then none
                else
                  let n : Int := digitsValue digits
                  some (some (if minus then -n else n), after.dropWhile Char.isDigit)
              else some (none, rest)
          | [] => some (none, rest)
        match exponent with
        | none => none
        | some (power, rest) =>
            let n := digitsValue whole
            let fits := if negative then 0 < n && n ≤ 0x8000000000000000 else n < UInt64.size
            if places.isEmpty && power.isNone && fits then
              some (.whole (if negative then -(n : Int) else n), rest)
            else
              (real? negative whole places (power.getD 0)).map (·, rest)

/-- Drops the given word from the front of a text. -/
def dropWord? : List Char → List Char → Option (List Char)
  | [], rest => some rest
  | c :: word, d :: rest => if c = d then dropWord? word rest else none
  | _ :: _, [] => none

mutual
/-- Reads a value; `depth` counts the levels of nesting that are still allowed. -/
def readValue : (fuel : Nat) → (depth : Nat) → List Char → Option (Json × List Char)
  | 0, _, _ => none
  | fuel + 1, depth, chars =>
      match skipBlanks chars with
      | 'n' :: rest => (dropWord? ['u', 'l', 'l'] rest).map (Json.null, ·)
      | 't' :: rest => (dropWord? ['r', 'u', 'e'] rest).map (Json.boolean true, ·)
      | 'f' :: rest => (dropWord? ['a', 'l', 's', 'e'] rest).map (Json.boolean false, ·)
      | '"' :: rest => (readQuoted rest).map fun r => (.text (String.ofList r.1), r.2)
      | '[' :: rest =>
          match depth with
          | 0 => none
          | depth + 1 =>
              match skipBlanks rest with
              | ']' :: rest => some (.array [], rest)
              | rest => (readElements fuel depth rest).map fun r => (.array r.1, r.2)
      | '\x7b' :: rest =>
          match depth with
          | 0 => none
          | depth + 1 =>
              match skipBlanks rest with
              | '\x7d' :: rest => some (.object [], rest)
              | rest => (readMembers fuel depth rest).map fun r => (.object r.1, r.2)
      | rest => readNumber rest

/-- Reads the elements of an array up to and including its closing bracket. -/
def readElements : (fuel : Nat) → (depth : Nat) → List Char → Option (List Json × List Char)
  | 0, _, _ => none
  | fuel + 1, depth, chars =>
      match readValue fuel depth chars with
      | none => none
      | some (json, rest) =>
          match skipBlanks rest with
          | ']' :: rest => some ([json], rest)
          | ',' :: rest => (readElements fuel depth rest).map fun r => (json :: r.1, r.2)
          | _ => none

/-- Reads the members of an object up to and including its closing brace. -/
def readMembers :
    (fuel : Nat) → (depth : Nat) → List Char → Option (List (String × Json) × List Char)
  | 0, _, _ => none
  | fuel + 1, depth, chars =>
      match skipBlanks chars with
      | '"' :: rest =>
          match readQuoted rest with
          | none => none
          | some (name, rest) =>
              match skipBlanks rest with
              | ':' :: rest =>
                  match readValue fuel depth rest with
                  | none => none
                  | some (json, rest) =>
                      let member := (String.ofList name, json)
                      match skipBlanks rest with
                      | '\x7d' :: rest => some ([member], rest)
                      | ',' :: rest =>
                          (readMembers fuel depth rest).map fun r => (member :: r.1, r.2)
                      | _ => none
              | _ => none
      | _ => none
end

/-- Levels of arrays and objects that may be open at once. -/
def maxDepth : Nat := 127

/-- The value that a text writes, if it writes exactly one. -/
def parse? (text : String) : Option Json :=
  let chars := text.toList
  match readValue (chars.length + 1) maxDepth chars with
  | some (json, rest) => if (skipBlanks rest).isEmpty then some json else none
  | none => none

end Json
end AssemblyBrowser
