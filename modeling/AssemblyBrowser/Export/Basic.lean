import AssemblyBrowser.Browse.Children
import AssemblyBrowser.Listing.Basic

/-!
# Exporting

An assembly is exported as files: in C# one for the assembly and one for each
type, in directories for the parts of its namespace; in IL a single one. A file
that cannot be made or written counts as an error; the others are written all the
same.
-/

/-!
## Files

The names of files hold no character that a file system could take for something else.
-/

namespace AssemblyBrowser.Export

/-- Whether file systems reserve a character, or it is a control character. -/
def isReserved (c : Char) : Bool :=
  ['<', '>', ':', '"', '/', '\\', '|', '?', '*', '`'].contains c
    || c.toNat < 0x20 || (0x7F ≤ c.toNat && c.toNat ≤ 0x9F)

/-- A name with a low line in the place of every reserved character. -/
def sanitize (name : String) : String :=
  String.ofList (name.toList.map fun c => if isReserved c then '_' else c)

/-- The directory of a namespace; parts without a name have none. -/
def directoryOf (output namespaceName : String) : String :=
  ((Path.split (· == '.') namespaceName).filter (!·.isEmpty)).foldl
    (fun directory part => Path.join directory (sanitize part)) output

def fileIn (directory name : String) (dialect : Dialect) : String :=
  Path.join directory (sanitize name ++ "." ++ dialect.fileExtension)

/-- The file of a type. If another type has taken the name without its arity, the arity stays. -/
def typeFile (output : String) (dialect : Dialect) (taken : List String)
    (type : TypeDefinition) : String :=
  let directory := directoryOf output type.namespaceName
  let path := fileIn directory (stripArity type.name) dialect
  if taken.contains path then fileIn directory type.name dialect else path

/-- The types that are exported, in row order: those that stand in no other type. -/
def exportedTypes (m : CodeModule) (includeGenerated : Bool) : List TypeDefinition :=
  m.types.toList.filter fun type =>
    type.declaringType.isNone
      && !(type.name == modulePseudoType && type.namespaceName.isEmpty)
      && (includeGenerated || !type.isCompilerGenerated)

/-- Files to be written, by path, and how many texts could not be made. -/
structure Plan where
  files : List (String × String) := []
  failures : Nat := 0

namespace Plan

/-- The plan with another file, or with another failure. -/
def add (plan : Plan) (path : String) : Except Error String → Plan
  | .ok text => { plan with files := plan.files ++ [(path, text)] }
  | .error _ => { plan with failures := plan.failures + 1 }

def addTypes (renderer : Renderer) (dialect : Dialect) (m : CodeModule) (output : String) :
    (taken : List String) → Plan → List TypeDefinition → Plan
  | _, plan, [] => plan
  | taken, plan, type :: rest =>
      match renderer.type dialect m type.token with
      | .ok text =>
          let path := typeFile output dialect taken type
          addTypes renderer dialect m output (path :: taken) (plan.add path (.ok text)) rest
      | .error error =>
          addTypes renderer dialect m output taken (plan.add "" (.error error)) rest

def csharp (renderer : Renderer) (dialect : Dialect) (place : PlacedModule) (output : String)
    (types : List TypeDefinition) : Plan :=
  let assembly := renderer.assembly dialect place.displayPath place.code
  addTypes renderer dialect place.code output []
    (({} : Plan).add (Path.join output "AssemblyInfo.cs") assembly) types

/-- Texts with a line feed in front of each but the first; empty ones at the start do not count. -/
def joinTexts (texts : List String) : String :=
  texts.foldl (fun joined text => if joined.isEmpty then text else joined ++ "\n" ++ text) ""

/-- The file of an assembly in IL; there is none without a text. -/
def il (renderer : Renderer) (place : PlacedModule) (output : String)
    (types : List TypeDefinition) : Plan :=
  let texts := renderer.assembly .il place.displayPath place.code
    :: types.map fun type => renderer.type .il place.code type.token
  let written := texts.filterMap Except.toOption
  let text := joinTexts written
  { files :=
      if text.isEmpty then []
      else [(Path.join output (sanitize place.code.assemblyName ++ ".il"), text)]
    failures := texts.length - written.length }

def ofModule (renderer : Renderer) (dialect : Dialect) (place : PlacedModule) (output : String)
    (includeGenerated : Bool) : Plan :=
  let types := exportedTypes place.code includeGenerated
  if dialect.isIl then il renderer place output types
  else csharp renderer dialect place output types

end Plan
end AssemblyBrowser.Export

/-!
## Writing
-/

namespace AssemblyBrowser

/-- What came of an export. -/
structure ExportOutcome where
  succeeded : Bool
  filesWritten : Nat := 0
  errorCount : Nat := 0
  outputDirectory : String
  errorMessage : Option String := none
  deriving DecidableEq

def ExportOutcome.toJson (outcome : ExportOutcome) : Json :=
  .object
    [("succeeded", .boolean outcome.succeeded), ("filesWritten", .ofNat outcome.filesWritten),
      ("errorCount", .ofNat outcome.errorCount),
      ("outputDirectory", .text outcome.outputDirectory),
      ("errorMessage", Json.ofOption .text outcome.errorMessage)]

/-- What is to be exported, and where. -/
structure ExportRequest where
  address : NodeAddress
  dialect : Dialect
  outputDirectory : String
  /-- Whether types that a compiler made up are exported too. -/
  includeGenerated : Bool

namespace Export

/-- Writes files one by one and counts those that could not be written. -/
def writeAll : (texts : List (String × String)) → FileSystem → FileSystem × Nat
  | [], files => (files, 0)
  | (path, text) :: rest, files =>
      match files.writeThrough path (Utf8.encode text) with
      | .ok files => writeAll rest files
      | .error _ =>
          let (files, failures) := writeAll rest files
          (files, failures + 1)

/-- The outcome of writing a plan, where `unwritten` files could not be written. -/
def outcomeOf (output : String) (plan : Plan) (unwritten : Nat) : ExportOutcome :=
  let filesWritten := plan.files.length - unwritten
  let errorCount := plan.failures + unwritten
  if filesWritten = 0 ∧ 0 < errorCount then
    { succeeded := false
      filesWritten
      errorCount
      outputDirectory := output
      errorMessage := some (toString errorCount ++ " error(s), nothing written") }
  else { succeeded := true, filesWritten, errorCount, outputDirectory := output }

def run (store : Store) (source : ArchiveSource) (renderer : Renderer) (files : FileSystem)
    (request : ExportRequest) : Except Error (FileSystem × ExportOutcome) := do
  if request.address.kind ≠ .assembly then throw .notDecompilable
  let place ← store.placeOf source request.address
  let files ← (files.createDirectories request.outputDirectory).mapError FileFault.error
  let plan := Plan.ofModule renderer request.dialect place request.outputDirectory
    request.includeGenerated
  let (files, unwritten) := writeAll plan.files files
  return (files, outcomeOf request.outputDirectory plan unwritten)

def failed (request : ExportRequest) (error : Error) : ExportOutcome :=
  { succeeded := false
    outputDirectory := request.outputDirectory
    errorMessage := some error.message }

end Export
end AssemblyBrowser
