import AssemblyBrowser.Pattern.Basic

/-!
# Reading patterns

The steps from which the reader of patterns is made: the characters that are
left, the flags in force, and the parts of the notation that hold no pattern
inside them.
-/

namespace AssemblyBrowser

/-- The flags that change what a pattern means. -/
structure PatternFlags where
  ignoreCase : Bool := false
  multiLine : Bool := false
  dotAll : Bool := false
  unicode : Bool := true
  anyLineEnd : Bool := false
  ignoreSpace : Bool := false

/-- How far a pattern has been read. -/
structure PatternState where
  rest : List Char
  flags : PatternFlags := {}
  /-- The names of the groups so far. -/
  names : List String := []

/-- A step in reading a pattern; it fails where the pattern is not well-formed. -/
abbrev PatternReader (α : Type) := StateT PatternState Option α

namespace PatternReader

/-- Characters without the blanks and the comments in front of them. -/
def dropSpace : (inComment : Bool) → List Char → List Char
  | _, [] => []
  | true, c :: rest => dropSpace (c != '\n') rest
  | false, c :: rest =>
      if Blank.isBlank c then dropSpace false rest
      else if c = '#' then dropSpace true rest
      else c :: rest

def remaining : PatternReader (List Char) := return (← get).rest

def peek? : PatternReader (Option Char) := return (← get).rest.head?

def current : PatternReader Char := do
  match (← get).rest with
  | c :: _ => return c
  | [] => failure

def advance (count : Nat) : PatternReader Unit :=
  modify fun s => { s with rest := s.rest.drop count }

/-- Leaves blanks and comments behind if they do not count. -/
def skipSpace : PatternReader Unit :=
  modify fun s => if s.flags.ignoreSpace then { s with rest := dropSpace false s.rest } else s

/-- Leaves a character behind and the space after it. -/
def advanceSpace : PatternReader Unit := do
  advance 1
  skipSpace

def accept (text : String) : PatternReader Bool := do
  let s ← get
  if text.toList.isPrefixOf s.rest then
    set { s with rest := s.rest.drop text.length }
    return true
  else return false

/-- The next character if it is the one wanted, left behind together with the space after it. -/
def expectSpace (c : Char) : PatternReader Unit := do
  if (← current) = c then advanceSpace else failure

/-- Reads characters of a class, with space in between; `fuel` bounds their number. -/
def takeSpaced (accepted : Char → Bool) : (fuel : Nat) → PatternReader (List Char)
  | 0 => return []
  | fuel + 1 => do
      match ← peek? with
      | some c =>
          if accepted c then
            advanceSpace
            return c :: (← takeSpaced accepted fuel)
          else return []
      | none => return []

def skipBlanks : PatternReader Unit :=
  modify fun s => { s with rest := s.rest.dropWhile Blank.isBlank }

/-- The number that digits stand for in a base, if it fits into four bytes. -/
def numeral (base : Nat) (digits : List Char) : PatternReader Nat := do
  if digits.isEmpty then failure
  let value := digits.foldl (fun n c =>
    n * base + (if c.isDigit then c.toNat - 48 else c.toLower.toNat - 87)) 0
  if value < UInt32.size then return value else failure

def decimal : PatternReader Nat := do
  skipBlanks
  let digits ← takeSpaced Char.isDigit (← remaining).length
  skipBlanks
  numeral 10 digits

def isHexDigit (c : Char) : Bool :=
  c.isDigit || ('a' ≤ c && c ≤ 'f') || ('A' ≤ c && c ≤ 'F')

def hexDigits : (count : Nat) → PatternReader (List Char)
  | 0 => return []
  | count + 1 => do
      let c ← current
      if !isHexDigit c then failure
      advanceSpace
      return c :: (← hexDigits count)

def character (n : Nat) : PatternReader Char :=
  if n.isValidChar then return Char.ofNat n else failure

/-- Reads a code point in hexadecimal, of fixed width or in braces. -/
def hexEscape (width : Nat) : PatternReader Char := do
  advanceSpace
  if (← current) = '\x7b' then
    advanceSpace
    let digits ← takeSpaced isHexDigit (← remaining).length
    expectSpace '\x7d'
    character (← numeral 16 digits)
  else character (← numeral 16 (← hexDigits width))

/-! ## Classes of characters -/

def asciiWords : CharSet :=
  .unionAll [.range '0' '9', .range 'A' 'Z', .range 'a' 'z', .single '_']

def asciiBlanks : CharSet := .union (.range '\t' '\r') (.single ' ')

def asciiClass? : String → Option CharSet
  | "alnum" => some (.unionAll [.range '0' '9', .range 'A' 'Z', .range 'a' 'z'])
  | "alpha" => some (.union (.range 'A' 'Z') (.range 'a' 'z'))
  | "ascii" => some (.range (Char.ofNat 0) '\x7f')
  | "blank" => some (.union (.single '\t') (.single ' '))
  | "cntrl" => some (.union (.range (Char.ofNat 0) '\x1f') (.single '\x7f'))
  | "digit" => some (.range '0' '9')
  | "graph" => some (.range '!' '~')
  | "lower" => some (.range 'a' 'z')
  | "print" => some (.range ' ' '~')
  | "punct" =>
      some (.unionAll [.range '!' '/', .range ':' '@', .range '[' '\x60', .range '\x7b' '~'])
  | "space" => some asciiBlanks
  | "upper" => some (.range 'A' 'Z')
  | "word" => some asciiWords
  | "xdigit" => some (.unionAll [.range '0' '9', .range 'A' 'F', .range 'a' 'f'])
  | _ => none

def wordSet (flags : PatternFlags) : CharSet := if flags.unicode then .words else asciiWords

/-- Adds the other cases of a set's characters if case does not count. -/
def foldIf (flags : PatternFlags) (set : CharSet) : CharSet :=
  if !flags.ignoreCase then set else if flags.unicode then .folded set else .foldedAscii set

/-- A set under the flags. Without Unicode it may not reach beyond ASCII. -/
def checked (flags : PatternFlags) (set : CharSet) : PatternReader CharSet :=
  if flags.unicode || set.isAscii then return set else failure

def letterClass (letter : Char) : PatternReader CharSet := do
  let flags := (← get).flags
  let set :=
    match letter.toLower with
    | 'd' => if flags.unicode then .digits else .range '0' '9'
    | 's' => if flags.unicode then .blanks else asciiBlanks
    | _ => wordSet flags
  checked flags (.complementIf letter.isUpper set)

/-- The name of a property in the form in which names are compared. -/
def plainName (name : List Char) : String :=
  let kept :=
    (name.filter fun c => c.toNat < 0x80 && c != ' ' && c != '_' && c != '-').map Char.toLower
  match kept with
  | 'i' :: 's' :: rest => if rest = ['c'] then "isc" else String.ofList rest
  | _ => String.ofList kept

/-- The set of a general category or one of the sets of all, assigned or ASCII characters. -/
def categorySet? (name : String) : Option CharSet :=
  match name with
  | "any" => some .all
  | "ascii" => some (.range (Char.ofNat 0) '\x7f')
  | "assigned" => some (.categories (Unicode.categories.map (·.1)))
  | "cn" | "unassigned" => some (.complement (.categories (Unicode.categories.map (·.1))))
  | "c" | "other" =>
      some (.complement (.categories ((Unicode.categories.map (·.1)).filter fun category =>
        !(["Cc", "Cf", "Co"].contains category))))
  | _ => (Unicode.categoriesNamed? name).map .categories

/-- The set of a property that a character has or has not. -/
def propertySet? (name : String) : Option CharSet :=
  match name with
  | "alphabetic" | "alpha" => some .alphabetic
  | "whitespace" | "wspace" | "space" => some .blanks
  | "cased" => some .cased
  | "caseignorable" | "ci" => some .caseIgnorable
  | "lowercase" | "lower" =>
      some (.difference .cased (.union (.categories ["Lu", "Lt"]) (.unionAll
        [.range '\u2160' '\u216F', .range '\u24B6' '\u24CF',
          .range (Char.ofNat 0x1F130) (Char.ofNat 0x1F189)])))
  | "uppercase" | "upper" =>
      some (.union (.categories ["Lu"]) (.unionAll
        [.range '\u2160' '\u216F', .range '\u24B6' '\u24CF',
          .range (Char.ofNat 0x1F130) (Char.ofNat 0x1F149),
          .range (Char.ofNat 0x1F150) (Char.ofNat 0x1F169),
          .range (Char.ofNat 0x1F170) (Char.ofNat 0x1F189)]))
  | _ => none

/-- The set of that name, whatever kind of property it is. -/
def namedSet? (name : String) : Option CharSet :=
  propertySet? name <|> categorySet? name <|> (Unicode.scriptNamed? name).map .script

/-- The set of the characters for which a property has a value. -/
def valueSet? (property value : String) : Option CharSet :=
  if ["generalcategory", "gc"].contains property then categorySet? value
  else if ["script", "sc", "scriptextensions", "scx"].contains property then
    (Unicode.scriptNamed? value).map .script
  else none

/-- What stands in front of a separator and behind it. -/
def splitAt? (separator : List Char) :
    (before : List Char) → List Char → Option (List Char × List Char)
  | _, [] => none
  | before, c :: rest =>
      if separator.isPrefixOf (c :: rest) then
        some (before.reverse, (c :: rest).drop separator.length)
      else splitAt? separator (c :: before) rest

/-- The set that a property in braces stands for, and whether its complement is meant. -/
def describedSet? (text : List Char) : Option (CharSet × Bool) :=
  match splitAt? ['!', '='] [] text with
  | some (property, value) => (valueSet? (plainName property) (plainName value)).map (·, true)
  | none =>
      match (splitAt? [':'] [] text) <|> (splitAt? ['='] [] text) with
      | some (property, value) => (valueSet? (plainName property) (plainName value)).map (·, false)
      | none => (namedSet? (plainName text)).map (·, false)

/-- Reads a class by property; the letter `P` stands for its complement. -/
def propertyClass (negated : Bool) : PatternReader CharSet := do
  advanceSpace
  let flags := (← get).flags
  let set ←
    if (← current) = '\x7b' then do
      advanceSpace
      let text ← takeSpaced (· != '\x7d') (← remaining).length
      if (← current) ≠ '\x7d' then failure
      advance 1
      pure (describedSet? text)
    else do
      let c ← current
      if c = '\\' then failure
      advanceSpace
      pure ((categorySet? (plainName [c])).map (·, false))
  match set with
  | some (set, unequal) =>
      if flags.unicode then return .complementIf (negated != unequal) (foldIf flags set)
      else failure
  | none => failure

/-! ## Single places -/

/-- What stands in one place of a pattern. -/
inductive Item where
  | literal (c : Char)
  | set (set : CharSet)
  | boundary (condition : Boundary)

/-- Whether a backslash in front of a character only says that the character is meant itself. -/
def isEscapable (c : Char) : Bool :=
  c.toNat < 0x80 && !c.isAlphanum && c != '<' && c != '>'

/-- Reads the name in braces of an edge of words; a count in braces is left for later. -/
def edgeName? : PatternReader (Option String) := do
  let saved ← get
  if saved.rest.head? ≠ some '\x7b' then return none
  let inName := fun (c : Char) => c.isAlpha || c == '-'
  advanceSpace
  if !inName (← current) then
    set saved
    return none
  let name ← takeSpaced inName saved.rest.length
  if (← current) ≠ '\x7d' then failure
  advance 1
  return some (String.ofList name)

def escape : PatternReader Item := do
  advance 1
  let c ← current
  let letters := wordSet (← get).flags
  match c with
  | 'x' => return .literal (← hexEscape 2)
  | 'u' => return .literal (← hexEscape 4)
  | 'U' => return .literal (← hexEscape 8)
  | 'p' => return .set (← propertyClass false)
  | 'P' => return .set (← propertyClass true)
  | _ =>
      advance 1
      if isEscapable c then return .literal c
      match c with
      | 'd' | 's' | 'w' | 'D' | 'S' | 'W' => return .set (← letterClass c)
      | 'a' => return .literal '\x07'
      | 'f' => return .literal '\x0c'
      | 't' => return .literal '\t'
      | 'n' => return .literal '\n'
      | 'r' => return .literal '\r'
      | 'v' => return .literal '\x0b'
      | 'A' => return .boundary .textStart
      | 'z' => return .boundary .textEnd
      | 'B' => return .boundary (.noWordEdge letters)
      | '<' => return .boundary (.wordStart letters)
      | '>' => return .boundary (.wordEnd letters)
      | 'b' =>
          match ← edgeName? with
          | none => return .boundary (.wordEdge letters)
          | some "start" => return .boundary (.wordStart letters)
          | some "end" => return .boundary (.wordEnd letters)
          | some "start-half" => return .boundary (.wordStartHalf letters)
          | some "end-half" => return .boundary (.wordEndHalf letters)
          | some _ => failure
      | _ => failure

end PatternReader
end AssemblyBrowser
