import AssemblyBrowser.Error
import AssemblyBrowser.Xml.Reader

/-!
# Package metadata

A package describes itself in an XML file: what it is called, its version, its
authors and what it is for.
-/

namespace AssemblyBrowser

/-- What a package says about itself. -/
structure PackageMetadata where
  id : Option String := none
  version : Option String := none
  authors : Option String := none
  description : Option String := none
  deriving DecidableEq

namespace PackageMetadata

def isEmpty (metadata : PackageMetadata) : Bool :=
  metadata.id.isNone && metadata.version.isNone && metadata.authors.isNone
    && metadata.description.isNone

def extend (field : Option String) (text : String) : Option String :=
  some (field.getD "" ++ text)

def add (metadata : PackageMetadata) (name text : String) : PackageMetadata :=
  match name with
  | "id" => { metadata with id := extend metadata.id text }
  | "version" => { metadata with version := extend metadata.version text }
  | "authors" => { metadata with authors := extend metadata.authors text }
  | "description" => { metadata with description := extend metadata.description text }
  | _ => metadata

/-- Adds a text under the open elements, which are given innermost first. Only texts directly
inside a child of `metadata` count. -/
def addText (metadata : PackageMetadata) (path : List String) (raw : List Char) :
    Except Error PackageMetadata :=
  match path with
  | [name, "metadata", _] =>
      match Xml.resolve? none raw with
      | none => .error (.malformed .escapedText)
      | some text =>
          match Blank.trimChars text with
          | [] => .ok metadata
          | trimmed => .ok (metadata.add name (String.ofList trimmed))
  | _ => .ok metadata

/-- Collects the fields from events under the open elements. -/
def ofEvents (metadata : PackageMetadata) (path : List String) :
    List Xml.Event → Except Error PackageMetadata
  | [] => .ok metadata
  | .opening name :: events => ofEvents metadata (name :: path) events
  | .closing :: events => ofEvents metadata path.tail events
  | .text raw :: events => do ofEvents (← metadata.addText path raw) path events
  | .verbatim _ :: events => ofEvents metadata path events
  | .other :: events => ofEvents metadata path events

def parse (text : String) : Except Error PackageMetadata := do
  let document := Xml.read text
  let metadata ← ofEvents {} [] document.events
  if document.isComplete then return metadata else throw .invalidXml

end PackageMetadata
end AssemblyBrowser
