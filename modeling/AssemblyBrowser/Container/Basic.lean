import AssemblyBrowser.Container.Bundle
import AssemblyBrowser.Container.Folder
import AssemblyBrowser.Container.PackageMetadata
import AssemblyBrowser.Module.Loader

/-!
# Containers

A container is a package or a bundle. Its entries are listed when it is opened;
their contents, and the modules among them, are read when they are asked for.
-/

namespace AssemblyBrowser

/-- The format of a container. -/
inductive ContainerFormat where
  | package
  | bundle
  deriving DecidableEq, Repr

def ContainerFormat.name : ContainerFormat → String
  | package => "Package"
  | bundle => "Bundle"

/-- An open container. -/
structure Container where
  archivePath : String
  format : ContainerFormat
  entries : List ContainerEntry
  metadata : Option PackageMetadata := none
  bundleId : Option String := none
  /-- Reads the module of an entry. -/
  readModule : ContainerEntry → Except Error CodeModule

namespace Container

def root (container : Container) : Folder := Folder.ofEntries container.entries

def entry? (container : Container) (path : String) : Option ContainerEntry :=
  container.entries.find? (·.path == path)

def moduleEntries (container : Container) : List ContainerEntry :=
  container.entries.filter (·.kind == .codeModule)

/-- The text for an entry of an archive in messages. -/
def entryPlace (archivePath entryPath : String) : String := archivePath ++ "!" ++ entryPath

def codeModule (container : Container) (path : String) : Except Error CodeModule :=
  match (container.entry? path).filter (·.kind == .codeModule) with
  | some entry => container.readModule entry
  | none => .error (.unknownNode (entryPlace container.archivePath path))

/-- Reads the module of an entry whose content `extract` gives. -/
def moduleReader (loader : ModuleLoader) (extract : ContainerEntry → Except Error Bytes)
    (entry : ContainerEntry) : Except Error CodeModule := do
  let content ← extract entry
  ModuleLoader.guarded (loader.ofBytes entry.name content)

/-- The metadata in the first manifest outside all folders, if it can be read. -/
def metadataOf? (entries : List ContainerEntry) (extract : ContainerEntry → Except Error Bytes) :
    Except Error (Option PackageMetadata) := do
  let isManifest := fun (entry : ContainerEntry) =>
    !entry.path.contains '/' && Path.hasExtension entry.name ["nuspec"]
  match entries.find? isManifest with
  | none => return none
  | some manifest =>
      Error.attempt ((extract manifest).bind fun content =>
        PackageMetadata.parse (Utf8.decodeLossy content))

def ofPackage (loader : ModuleLoader) (archivePath : String) (data : Bytes) :
    Except Error Container := do
  let entries ← Zip.entries data
  let metadata ← metadataOf? entries (Zip.extract data)
  return {
    archivePath
    format := .package
    entries, metadata
    readModule := moduleReader loader (Zip.extract data) }

/-- Opens a bundle with the manifest at an offset. -/
def ofBundle (loader : ModuleLoader) (archivePath : String) (data : Bytes) (manifest : Nat) :
    Except Error Container := do
  let manifest ← BundleManifest.decodeAt data manifest
  return {
    archivePath
    format := .bundle
    entries := manifest.entries
    bundleId := some manifest.id
    readModule := moduleReader loader (BundleManifest.extract data) }

end Container
end AssemblyBrowser
