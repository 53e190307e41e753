/-!
# JSON values

The session file, the machine-readable listings and the line server all speak
JSON. Members of an object keep the order in which they were written.
-/

namespace AssemblyBrowser

/-- A JSON value. Whole numbers are exact; all others carry the bits of a binary64 number. -/
inductive Json where
  | null
  | boolean (value : Bool)
  | whole (value : Int)
  | real (bits : UInt64)
  | text (value : String)
  | array (elements : List Json)
  | object (members : List (String × Json))
  deriving Inhabited, BEq

namespace Json

def field? (json : Json) (name : String) : Option Json :=
  match json with
  | .object members => members.foldl (fun found m => if m.1 == name then some m.2 else found) none
  | _ => none

def text? : Json → Option String
  | .text value => some value
  | _ => none

def array? : Json → Option (List Json)
  | .array elements => some elements
  | _ => none

def ofOption {α : Type} (encode : α → Json) : Option α → Json
  | none => .null
  | some value => encode value

def ofNat (n : Nat) : Json := .whole n

/-- Drops earlier members of the same name and orders the rest by name. -/
def sortMembers (members : List (String × Json)) : List (String × Json) :=
  let last := members.foldr
    (fun m kept => if kept.any (·.1 == m.1) then kept else m :: kept) []
  last.mergeSort fun a b => decide (a.1 ≤ b.1)

mutual
/-- The same value with the members of every object ordered by name. -/
def sorted : Json → Json
  | .array elements => .array (sortedElements elements)
  | .object members => .object (sortMembers (sortedMembers members))
  | json => json

def sortedElements : List Json → List Json
  | [] => []
  | json :: rest => sorted json :: sortedElements rest

/-- Orders the members inside each member's value. -/
def sortedMembers : List (String × Json) → List (String × Json)
  | [] => []
  | (name, json) :: rest => (name, sorted json) :: sortedMembers rest
end

end Json
end AssemblyBrowser

/-! ## Records in JSON

A record is written as an object; an array of its fields in their order is read
as well. Members with other names are ignored.
-/

namespace AssemblyBrowser.Json

/-- The values of the named fields, where there are any. -/
def fields? (names : List String) (json : Json) : Option (List (Option Json)) :=
  match json with
  | .object _ => some (names.map json.field?)
  | .array elements =>
      if elements.length ≤ names.length then
        some ((List.range names.length).map fun index => elements[index]?)
      else none
  | _ => none

/-- Whether an object has two members with the same one of these names. -/
def repeatsAny (names : List String) : Json → Bool
  | .object members => names.any fun name => 1 < (members.filter (·.1 == name)).length
  | _ => false

def required? {α : Type} (read : Json → Option α) (field : Option Json) : Option α :=
  field.bind read

def orDefault? {α : Type} (read : Json → Option α) (missing : α) : Option Json → Option α
  | none => some missing
  | some json => read json

def boolean? : Json → Option Bool
  | .boolean value => some value
  | _ => none

def word? : Json → Option Nat
  | .whole value => if 0 ≤ value ∧ value < UInt32.size then some value.toNat else none
  | _ => none

def optionalText? : Json → Option (Option String)
  | .null => some none
  | .text value => some (some value)
  | _ => none

/-- A name out of a list of choices, alone or as the only member of an object with null. -/
def choice? {α : Type} (ofName? : String → Option α) : Json → Option α
  | .text name => ofName? name
  | .object [(name, .null)] => ofName? name
  | _ => none

end AssemblyBrowser.Json
