import AssemblyBrowser.Unicode.CategoryTable
import AssemblyBrowser.Unicode.ScriptTable

/-!
# Properties of characters

Sets of characters by general category, by script, or by being a letter. The sets
have the names that the Unicode standard gives them.
-/

namespace AssemblyBrowser.Unicode

/-- A set of code points as ranges in ascending order. -/
abbrev Ranges := Array (Nat × Nat)

namespace Ranges

def digit (c : Char) : Nat := if c.isDigit then c.toNat - 48 else c.toNat - 55

/-- Reads ranges: `low` holds the first code point once a hyphen has been passed, and `number`
the digits since then. -/
def readFrom : (low : Option Nat) → (number : Nat) → List Char → List (Nat × Nat)
  | low, number, [] => [(low.getD number, number)]
  | low, number, c :: rest =>
      if c = ' ' then (low.getD number, number) :: readFrom none 0 rest
      else if c = '-' then readFrom (some number) 0 rest
      else readFrom low (number * 16 + digit c) rest

def ofLines (lines : List String) : Ranges :=
  (lines.flatMap fun line => readFrom none 0 line.toList).toArray

/-- Halves the part of the ranges that can hold a code point; `fuel` bounds the number of steps. -/
def search (ranges : Ranges) (n : Nat) : (fuel low high : Nat) → Bool
  | 0, _, _ => false
  | fuel + 1, low, high =>
      if high ≤ low then false
      else
        let middle := (low + high) / 2
        let (first, last) := ranges.getD middle (0, 0)
        if n < first then search ranges n fuel low middle
        else if last < n then search ranges n fuel (middle + 1) high
        else true

/-- Whether a code point is in one of the ranges. -/
def contains (ranges : Ranges) (n : Nat) : Bool := ranges.search n 32 0 ranges.size

end Ranges

def categories : List (String × Ranges) :=
  categoryTable.map fun (name, lines) => (name, Ranges.ofLines lines)

def scripts : List (List String × Ranges) :=
  scriptTable.map fun (names, lines) => (names, Ranges.ofLines lines)

def alphabetic : Ranges := Ranges.ofLines alphabeticTable

/-- Whether a character has one of these categories. -/
def hasCategory (names : List String) (c : Char) : Bool :=
  categories.any fun (name, ranges) => names.contains name && ranges.contains c.toNat

def isAlphabetic (c : Char) : Bool := alphabetic.contains c.toNat

/-- Whether a character is a letter or stands for a number. -/
def isAlphanumeric (c : Char) : Bool := isAlphabetic c || hasCategory ["Nd", "Nl", "No"] c

/-- The categories of characters that make up words. -/
def wordCategories : List String :=
  ["Lu", "Ll", "Lt", "Lm", "Lo", "Nl", "Mn", "Mc", "Me", "Nd", "Pc"]

/-- Whether a character belongs to a word: letters, marks, digits, connectors and joiners. -/
def isWord (c : Char) : Bool :=
  let n := c.toNat
  if n < 0x80 then c.isAlphanum || c == '_'
  else hasCategory wordCategories c || isAlphabetic c || n == 0x200C || n == 0x200D

def isDigit (c : Char) : Bool := hasCategory ["Nd"] c

/-- The categories that a name stands for; names are in small letters without separators. -/
def categoriesNamed? (name : String) : Option (List String) :=
  match name with
  | "l" | "letter" => some ["Lu", "Ll", "Lt", "Lm", "Lo"]
  | "lc" | "casedletter" => some ["Lu", "Ll", "Lt"]
  | "lu" | "uppercaseletter" => some ["Lu"]
  | "ll" | "lowercaseletter" => some ["Ll"]
  | "lt" | "titlecaseletter" => some ["Lt"]
  | "lm" | "modifierletter" => some ["Lm"]
  | "lo" | "otherletter" => some ["Lo"]
  | "m" | "mark" | "combiningmark" => some ["Mn", "Mc", "Me"]
  | "mn" | "nonspacingmark" => some ["Mn"]
  | "mc" | "spacingmark" => some ["Mc"]
  | "me" | "enclosingmark" => some ["Me"]
  | "n" | "number" => some ["Nd", "Nl", "No"]
  | "nd" | "decimalnumber" | "digit" => some ["Nd"]
  | "nl" | "letternumber" => some ["Nl"]
  | "no" | "othernumber" => some ["No"]
  | "p" | "punctuation" | "punct" => some ["Pc", "Pd", "Ps", "Pe", "Pi", "Pf", "Po"]
  | "pc" | "connectorpunctuation" => some ["Pc"]
  | "pd" | "dashpunctuation" => some ["Pd"]
  | "ps" | "openpunctuation" => some ["Ps"]
  | "pe" | "closepunctuation" => some ["Pe"]
  | "pi" | "initialpunctuation" => some ["Pi"]
  | "pf" | "finalpunctuation" => some ["Pf"]
  | "po" | "otherpunctuation" => some ["Po"]
  | "s" | "symbol" => some ["Sm", "Sc", "Sk", "So"]
  | "sm" | "mathsymbol" => some ["Sm"]
  | "sc" | "currencysymbol" => some ["Sc"]
  | "sk" | "modifiersymbol" => some ["Sk"]
  | "so" | "othersymbol" => some ["So"]
  | "z" | "separator" => some ["Zs", "Zl", "Zp"]
  | "zs" | "spaceseparator" => some ["Zs"]
  | "zl" | "lineseparator" => some ["Zl"]
  | "zp" | "paragraphseparator" => some ["Zp"]
  | "cc" | "control" | "cntrl" => some ["Cc"]
  | "cf" | "format" => some ["Cf"]
  | "co" | "privateuse" => some ["Co"]
  | "cs" | "surrogate" => some []
  | _ => none

def scriptNamed? (name : String) : Option Ranges :=
  (scripts.find? fun (names, _) => names.contains name).map (·.2)

end AssemblyBrowser.Unicode

/-! ## Widths of characters

How many columns of a terminal a character takes: two for the wide characters of
East Asian scripts, none for marks that join the character before them, and one
for all others.
-/

namespace AssemblyBrowser.Unicode

/-- The ranges of the characters that are wide or have a full width. -/
def wideTable : List String := [
  "1100-115F 231A-231B 2329-232A 23E9-23EC 23F0 23F3 25FD-25FE 2614-2615 2648-2653 267F",
  "2693 26A1 26AA-26AB 26BD-26BE 26C4-26C5 26CE 26D4 26EA 26F2-26F3 26F5 26FA 26FD 2705",
  "270A-270B 2728 274C 274E 2753-2755 2757 2795-2797 27B0 27BF 2B1B-2B1C 2B50 2B55",
  "2E80-2E99 2E9B-2EF3 2F00-2FD5 2FF0-2FFB 3000-303E 3041-3096 3099-30FF 3105-312F",
  "3131-318E 3190-31E3 31F0-321E 3220-3247 3250-4DBF 4E00-A48C A490-A4C6 A960-A97C",
  "AC00-D7A3 F900-FAFF FE10-FE19 FE30-FE52 FE54-FE66 FE68-FE6B FF01-FF60 FFE0-FFE6",
  "16FE0-16FE4 16FF0-16FF1 17000-187F7 18800-18CD5 18D00-18D08 1AFF0-1AFF3 1AFF5-1AFFB",
  "1AFFD-1AFFE 1B000-1B122 1B132 1B150-1B152 1B155 1B164-1B167 1B170-1B2FB 1F004 1F0CF",
  "1F18E 1F191-1F19A 1F200-1F202 1F210-1F23B 1F240-1F248 1F250-1F251 1F260-1F265",
  "1F300-1F320 1F32D-1F335 1F337-1F37C 1F37E-1F393 1F3A0-1F3CA 1F3CF-1F3D3 1F3E0-1F3F0",
  "1F3F4 1F3F8-1F43E 1F440 1F442-1F4FC 1F4FF-1F53D 1F54B-1F54E 1F550-1F567 1F57A",
  "1F595-1F596 1F5A4 1F5FB-1F64F 1F680-1F6C5 1F6CC 1F6D0-1F6D2 1F6D5-1F6D7 1F6DC-1F6DF",
  "1F6EB-1F6EC 1F6F4-1F6FC 1F7E0-1F7EB 1F7F0 1F90C-1F93A 1F93C-1F945 1F947-1F9FF",
  "1FA70-1FA7C 1FA80-1FA88 1FA90-1FABD 1FABF-1FAC5 1FACE-1FADB 1FAE0-1FAE8 1FAF0-1FAF8",
  "20000-2FFFD 30000-3FFFD"]

def wide : Ranges := Ranges.ofLines wideTable

/-- The characters that take no column: marks and controls of the layout, and the later parts of
syllables. -/
def isJoined (c : Char) : Bool :=
  let n := c.toNat
  n != 0xAD
    && (((0x1160 ≤ n && n ≤ 0x11FF) || (0xD7B0 ≤ n && n ≤ 0xD7FF))
      || categories.any fun (name, ranges) => ["Mn", "Me", "Cf"].contains name && ranges.contains n)

def charWidth (c : Char) : Nat :=
  if c.toNat < 0x300 then 1
  else if wide.contains c.toNat then 2
  else if isJoined c then 0
  else 1

def textWidth (text : String) : Nat := (text.toList.map charWidth).foldl (· + ·) 0

end AssemblyBrowser.Unicode
