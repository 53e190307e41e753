/-!
# Paths

Paths are texts whose parts are separated by slashes. Repeated slashes count
once, and a dot stands for the directory it is in.
-/

namespace AssemblyBrowser

/-- A part of a path. -/
inductive PathPart where
  | root
  /-- A dot at the beginning of a relative path. -/
  | current
  | up
  | normal (name : String)
  deriving DecidableEq

namespace Path

/-- The text between separators, in order; there is always one more than there are separators. -/
def splitChars (separator : Char → Bool) : List Char → List (List Char)
  | [] => [[]]
  | c :: rest =>
      if separator c then [] :: splitChars separator rest
      else
        match splitChars separator rest with
        | [] => [[c]]
        | first :: others => (c :: first) :: others

/-- The segments of a text that a character separates. -/
def split (separator : Char → Bool) (text : String) : List String :=
  (splitChars separator text.toList).map String.ofList

/-- The part that a segment stands for; `first` holds for the first segment of a relative path. -/
def partOf? (first : Bool) (segment : String) : Option PathPart :=
  if segment.isEmpty then none
  else if segment = "." then (if first then some .current else none)
  else if segment = ".." then some .up
  else some (.normal segment)

def parts (path : String) : List PathPart :=
  match split (· == '/') path with
  | [] => []
  | first :: rest =>
      let start :=
        if path.startsWith "/" then [PathPart.root] else (partOf? true first).toList
      start ++ rest.filterMap (partOf? false)

/-- The name of the file or directory that a path leads to. -/
def fileName? (path : String) : Option String :=
  match (parts path).getLast? with
  | some (.normal name) => some name
  | _ => none

/-- The characters in front of the last dot and those behind it. -/
def splitLastDot? (name : String) : Option (String × String) :=
  let reversed := name.toList.reverse
  match reversed.dropWhile (· != '.') with
  | _ :: stem =>
      some (String.ofList stem.reverse,
        String.ofList (reversed.takeWhile (· != '.')).reverse)
  | [] => none

/-- What stands in front of the last dot, or the whole name without one. -/
def stem (name : String) : String := ((splitLastDot? name).map (·.1)).getD name

/-- The extension of a file name: what follows its last dot, unless that dot is its first
character. -/
def extension? (path : String) : Option String := do
  let name ← fileName? path
  let (stem, extension) ← splitLastDot? name
  if stem.isEmpty then none else some extension

/-- A character without the difference between capital and small ASCII letters. -/
def asciiFold (text : String) : List Char := text.toList.map Char.toLower

/-- Whether two texts differ at most in the case of ASCII letters. -/
def sameIgnoringCase (first second : String) : Bool := asciiFold first == asciiFold second

/-- Whether a path has one of these extensions, in whatever case. -/
def hasExtension (path : String) (extensions : List String) : Bool :=
  (extension? path).any fun extension => extensions.any (sameIgnoringCase extension)

def partText : PathPart → String
  | .root => ""
  | .current => "."
  | .up => ".."
  | .normal name => name

def ofParts : List PathPart → String
  | [.root] => "/"
  | path => String.intercalate "/" (path.map partText)

/-- The directory that a path leads through last; the root has none. -/
def parent? (path : String) : Option String :=
  match (parts path).getLast? with
  | none => none
  | some .root => none
  | some _ => some (ofParts (parts path).dropLast)

/-- The path that leads on from a directory; an absolute one does not need it. -/
def join (directory path : String) : String :=
  if path.startsWith "/" || directory.isEmpty then path
  else if directory.endsWith "/" then directory ++ path
  else directory ++ "/" ++ path

def lastSegment (path : String) : String :=
  ((split (· == '/') path).getLast?).getD path

end Path
end AssemblyBrowser
