import AssemblyBrowser.Container.Basic
import AssemblyBrowser.Json.Basic
import AssemblyBrowser.Module.Basic

/-!
# Archives

An archive is a file that holds one module, or a container with any number of
them. The browser opens archives because it is told to, or on behalf of another
archive that refers to them.
-/

namespace AssemblyBrowser

/-- What is in an archive. -/
inductive ArchiveContents where
  | codeModule (code : CodeModule)
  | container (container : Container)

/-- The format of an archive. -/
inductive ArchiveFormat where
  | codeModule
  | container (format : ContainerFormat)
  deriving DecidableEq, Repr

def ArchiveFormat.name : ArchiveFormat → String
  | codeModule => "Module"
  | container format => format.name

namespace ArchiveContents

/-- The extensions of files that hold a module, whatever they look like. -/
def moduleExtensions : List String := ["dll", "winmd", "netmodule"]

/-- Opens the archive of a path: a module by its extension, else a container by its content, else
a module. -/
def load (loader : ModuleLoader) (files : FileSystem) (path : String) :
    Except Error ArchiveContents :=
  if Path.hasExtension path moduleExtensions then (loader.ofFile files path).map .codeModule
  else do
    let data ← ModuleLoader.contentOf files path
    if Zip.isZip data then return .container (← Container.ofPackage loader path data)
    match BundleManifest.find? data with
    | some manifest => return .container (← Container.ofBundle loader path data manifest)
    | none => return .codeModule (← loader.ofFile files path)

/-- The format of an archive with these contents. -/
def format : ArchiveContents → ArchiveFormat
  | .codeModule _ => .codeModule
  | .container opened => .container opened.format

/-- What an archive with these contents calls itself. -/
def identity? : ArchiveContents → Option String
  | .codeModule code => code.assembly.map AssemblyIdentity.text
  | .container opened => do
      let metadata ← opened.metadata
      let id ← metadata.id
      match metadata.version with
      | some version => return id ++ " " ++ version
      | none => return id

/-- The number of modules, whether or not they can be read. -/
def moduleCount : ArchiveContents → Nat
  | .codeModule _ => 1
  | .container opened => opened.moduleEntries.length

end ArchiveContents

/-- An archive that has been opened. -/
structure LoadedArchive where
  path : String
  /-- The archive on whose behalf this one was opened. -/
  parent : Option String
  /-- Whether the archive was opened on behalf of another one. -/
  autoLoaded : Bool
  /-- The contents, once they are known. -/
  handle : Option ArchiveContents

/-- A short description of an archive. -/
structure ArchiveSummary where
  archivePath : String
  name : String
  format : ArchiveFormat
  identity : Option String
  moduleCount : Nat
  autoLoaded : Bool
  deriving DecidableEq

def ArchiveSummary.toJson (summary : ArchiveSummary) : Json :=
  .object
    [("archivePath", .text summary.archivePath), ("name", .text summary.name),
      ("format", .text summary.format.name), ("identity", Json.ofOption .text summary.identity),
      ("moduleCount", .ofNat summary.moduleCount), ("autoLoaded", .boolean summary.autoLoaded)]

namespace LoadedArchive

def name (archive : LoadedArchive) : String :=
  ((Path.split (fun c => c == '/' || c == '\\') archive.path).getLast?).getD archive.path

def unopened (path : String) (parent : Option String) : LoadedArchive :=
  { path, parent, autoLoaded := parent.isSome, handle := none }

/-- The archive with contents; those that it already has stay. -/
def withHandle (archive : LoadedArchive) (contents : ArchiveContents) : LoadedArchive :=
  { archive with handle := some (archive.handle.getD contents) }

/-- The archive as one that was opened for its own sake. -/
def promoted (archive : LoadedArchive) (path : String) : LoadedArchive :=
  match archive.handle with
  | some contents => (unopened path none).withHandle contents
  | none => unopened path none

/-- The module of the archive, or of an entry of it. -/
def codeModule (archive : LoadedArchive) (entry : Option String) : Except Error CodeModule :=
  match archive.handle, entry with
  | none, _ => .error (.archiveNotLoaded archive.path)
  | some (.codeModule code), none => .ok code
  | some (.container container), some path => container.codeModule path
  | some (.codeModule _), some path =>
      .error (.unknownNode (Container.entryPlace archive.path path))
  | some (.container _), none => .error (.unknownNode archive.path)

def place (archive : LoadedArchive) (entry : Option String) : Except Error PlacedModule := do
  return {
    archivePath := archive.path
    containerPath := entry
    code := ← archive.codeModule entry }

def modules (archive : LoadedArchive) : List PlacedModule :=
  match archive.handle with
  | none => []
  | some (.codeModule code) => [{ archivePath := archive.path, containerPath := none, code }]
  | some (.container container) =>
      container.moduleEntries.filterMap fun entry => (archive.place (some entry.path)).toOption

def container? (archive : LoadedArchive) : Option Container :=
  match archive.handle with
  | some (.container container) => some container
  | _ => none

def identity? (archive : LoadedArchive) : Option String :=
  archive.handle.bind ArchiveContents.identity?

def format (archive : LoadedArchive) : ArchiveFormat :=
  (archive.handle.map ArchiveContents.format).getD .codeModule

def summary (archive : LoadedArchive) : ArchiveSummary :=
  { archivePath := archive.path
    name := archive.name
    format := archive.format
    identity := archive.identity?
    moduleCount := (archive.handle.map ArchiveContents.moduleCount).getD 0
    autoLoaded := archive.autoLoaded }

end LoadedArchive
end AssemblyBrowser
