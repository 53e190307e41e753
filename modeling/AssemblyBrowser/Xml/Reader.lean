import AssemblyBrowser.Text.Blank

/-!
# XML

A document is read as the sequence of its tags and of the texts between them. A
document that is not well-formed has the events up to its fault.
-/

namespace AssemblyBrowser.Xml

/-- A tag or a text. -/
inductive Event where
  /-- An opening tag, by its name without a namespace. -/
  | opening (name : String)
  | closing
  /-- Text with its references unresolved. -/
  | text (raw : List Char)
  /-- Text that is taken as it stands. -/
  | verbatim (content : List Char)
  /-- An empty element, a comment, an instruction or a declaration. -/
  | other
  deriving DecidableEq

/-- The events of a document. -/
structure Document where
  events : List Event
  /-- Whether the document is well-formed up to its end. -/
  isComplete : Bool

/-- Whether a character separates names and attributes. -/
def isSpace (c : Char) : Bool := c == ' ' || c == '\t' || c == '\n' || c == '\r'

/-- The inside of a tag and what follows it. A closing bracket in quotes does not end the tag. -/
def tagEnd? (quote : Option Char) : List Char → Option (List Char × List Char)
  | [] => none
  | c :: rest =>
      match quote with
      | none =>
          if c = '>' then some ([], rest)
          else
            let quote := if c = '\'' ∨ c = '"' then some c else none
            (tagEnd? quote rest).map fun (inside, after) => (c :: inside, after)
      | some mark =>
          let quote := if c = mark then none else some mark
          (tagEnd? quote rest).map fun (inside, after) => (c :: inside, after)

/-- What stands before a closing bracket that follows the `mark`, which is given in reverse, and
what stands behind it. There are at least `least` characters before the bracket; `seen` has those
passed so far, in reverse. -/
def markedEnd? (mark : List Char) (least : Nat) :
    (seen : List Char) → List Char → Option (List Char × List Char)
  | _, [] => none
  | seen, c :: rest =>
      if c = '>' ∧ mark.isPrefixOf seen ∧ least ≤ seen.length then some (seen.reverse, rest)
      else markedEnd? mark least (c :: seen) rest

/-- The inside of a declaration and what follows it; brackets inside are balanced. -/
def balancedEnd? : (depth : Nat) → List Char → Option (List Char × List Char)
  | _, [] => none
  | depth, c :: rest =>
      match depth, c with
      | 0, '>' => some ([], rest)
      | depth + 1, '>' => (balancedEnd? depth rest).map fun (inside, after) => (c :: inside, after)
      | depth, '<' =>
          (balancedEnd? (depth + 1) rest).map fun (inside, after) => (c :: inside, after)
      | depth, _ => (balancedEnd? depth rest).map fun (inside, after) => (c :: inside, after)

def dropPrefix? : (start : List Char) → List Char → Option (List Char)
  | [], rest => some rest
  | _ :: _, [] => none
  | s :: start, c :: rest => if s = c then dropPrefix? start rest else none

def tagName (inside : List Char) : List Char := inside.takeWhile (!isSpace ·)

def localName (name : List Char) : List Char :=
  match name.dropWhile (· != ':') with
  | _ :: rest => rest
  | [] => name

/-- A name without the spaces behind it, unless there is nothing else. -/
def trimEnd (name : List Char) : List Char :=
  match name.reverse.dropWhile isSpace with
  | [] => name
  | kept => kept.reverse

/-- Reads a comment, a literal text or a declaration behind its exclamation mark. -/
def readSpecial? (chars : List Char) : Option (Event × List Char) :=
  match chars with
  | _ :: '-' :: _ => do
      let (inside, rest) ← markedEnd? ['-', '-'] 5 [] chars
      let _ ← dropPrefix? "!--".toList inside
      return (.other, rest)
  | _ :: '[' :: _ => do
      let (inside, rest) ← markedEnd? [']', ']'] 0 [] chars
      let content ← dropPrefix? "![CDATA[".toList inside
      return (.verbatim (content.take (content.length - 2)), rest)
  | _ :: c :: _ => do
      if c ≠ 'D' ∧ c ≠ 'd' then none
      let (inside, rest) ← balancedEnd? 0 chars
      let content ← dropPrefix? "!DOCTYPE".toList ((inside.take 8).map Char.toUpper)
      if content.isEmpty ∧ (inside.drop 8).any (!isSpace ·) then return (.other, rest)
      else none
  | _ => none

/-- Reads an opening tag or an empty element; the name of an opening tag comes along. -/
def readOpening? (chars : List Char) : Option (Event × Option (List Char) × List Char) := do
  let (inside, rest) ← tagEnd? none chars
  if inside.getLast? = some '/' then return (.other, none, rest)
  let name := tagName inside
  return (.opening (String.ofList (localName name)), some name, rest)

/-- Reads a closing tag of the innermost open element. -/
def readClosing? (openNames : List (List Char)) (chars : List Char) :
    Option (List (List Char) × List Char) := do
  let (inside, rest) ← tagEnd? none chars
  match openNames with
  | [] => none
  | name :: outer => if trimEnd (inside.drop 1) = name then some (outer, rest) else none

def Document.cons (event : Event) (document : Document) : Document :=
  { document with events := event :: document.events }

def Document.broken : Document := { events := [], isComplete := false }

/-- Reads events. The names of the open elements are `openNames`, innermost first; `fuel` bounds the
number of events. -/
def readFrom : (fuel : Nat) → (openNames : List (List Char)) → List Char → Document
  | 0, _, _ => .broken
  | _ + 1, _, [] => { events := [], isComplete := true }
  | fuel + 1, openNames, '<' :: chars =>
      match chars with
      | [] => .broken
      | '!' :: _ =>
          match readSpecial? chars with
          | some (event, rest) => (readFrom fuel openNames rest).cons event
          | none => .broken
      | '/' :: _ =>
          match readClosing? openNames chars with
          | some (outer, rest) => (readFrom fuel outer rest).cons .closing
          | none => .broken
      | '?' :: _ =>
          match markedEnd? ['?'] 2 [] chars with
          | some (_, rest) => (readFrom fuel openNames rest).cons .other
          | none => .broken
      | _ =>
          match readOpening? chars with
          | some (event, name, rest) => (readFrom fuel (name.toList ++ openNames) rest).cons event
          | none => .broken
  | fuel + 1, openNames, chars =>
      (readFrom fuel openNames (chars.dropWhile (· != '<'))).cons
        (.text (chars.takeWhile (· != '<')))

/-- The events of a document; a byte order mark at its beginning is skipped. -/
def read (text : String) : Document :=
  let chars := text.toList
  let chars := if chars.head? = some '\uFEFF' then chars.tail else chars
  readFrom (chars.length + 1) [] chars

/-! ## References -/

/-- The value of a digit in a base up to sixteen. -/
def digitValue? (base : Nat) (c : Char) : Option Nat :=
  let n := c.toNat
  let value :=
    if '0' ≤ c ∧ c ≤ '9' then n - 48
    else if 'a' ≤ c ∧ c ≤ 'f' then n - 87
    else if 'A' ≤ c ∧ c ≤ 'F' then n - 55
    else base
  if value < base then some value else none

def numeral? (base : Nat) (digits : List Char) : Option Nat :=
  if digits.isEmpty then none
  else digits.foldlM (fun n c => (digitValue? base c).map (n * base + ·)) 0

/-- The character of a number, which is neither zero nor a surrogate. -/
def characterOf? (n : Nat) : Option Char :=
  if n ≠ 0 ∧ n.isValidChar then some (Char.ofNat n) else none

def entity? (name : List Char) : Option Char :=
  match name with
  | '#' :: 'x' :: digits => (numeral? 16 digits).bind characterOf?
  | '#' :: digits => (numeral? 10 digits).bind characterOf?
  | _ =>
      match String.ofList name with
      | "lt" => some '<'
      | "gt" => some '>'
      | "amp" => some '&'
      | "apos" => some '\''
      | "quot" => some '"'
      | _ => none

/-- Text with its references resolved. A reference runs up to a semicolon and holds no second
ampersand; `pending` has its name in reverse. -/
def resolve? : (pending : Option (List Char)) → List Char → Option (List Char)
  | none, [] => some []
  | some _, [] => none
  | none, c :: rest =>
      if c = '&' then resolve? (some []) rest else (resolve? none rest).map (c :: ·)
  | some name, c :: rest =>
      if c = '&' then none
      else if c = ';' then do
        let character ← entity? name.reverse
        return character :: (← resolve? none rest)
      else resolve? (some (c :: name)) rest

end AssemblyBrowser.Xml
