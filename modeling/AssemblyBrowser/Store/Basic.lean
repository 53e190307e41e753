import AssemblyBrowser.Store.Archive

/-!
# The store

The store is the list of open archives, in the order in which they were opened.
Every path is listed once. An archive that was opened on behalf of another one
stays where it is when it is opened again for its own sake.
-/

namespace AssemblyBrowser

/-- Where archives come from. -/
structure ArchiveSource where
  /-- The canonical form of a path. -/
  normalize : String → String
  loader : ModuleLoader
  files : FileSystem

namespace ArchiveSource

def ofFiles (loader : ModuleLoader) (files : FileSystem) : ArchiveSource where
  normalize := files.normalize
  loader := loader
  files := files

def isFile (source : ArchiveSource) (path : String) : Bool := source.files.isFile path

def fileCount (source : ArchiveSource) : Nat := source.files.entries.length

/-- Opens the archive of a path. A loader that panics has failed. -/
def load (source : ArchiveSource) (path : String) : Except Error ArchiveContents :=
  ModuleLoader.guarded (ArchiveContents.load source.loader source.files path)

end ArchiveSource

/-- The open archives. -/
structure Store where
  archives : List LoadedArchive := []

/-- The answer to a wish to open an archive. -/
structure AddOutcome where
  /-- Whether the archive is now open for the reason given and was not before. -/
  added : Bool
  /-- The archive, if it is open. -/
  summary : Option ArchiveSummary
  deriving DecidableEq

def AddOutcome.toJson (outcome : AddOutcome) : Json :=
  .object [("added", .boolean outcome.added),
    ("summary", Json.ofOption ArchiveSummary.toJson outcome.summary)]

namespace Store

def at? (store : Store) (path : String) : Option LoadedArchive :=
  store.archives.find? (·.path == path)

/-- The archive of a path, as it stands or in its canonical form. -/
def find? (store : Store) (source : ArchiveSource) (path : String) : Option LoadedArchive :=
  (store.at? path) <|> (store.at? (source.normalize path))

/-- Opens an archive, on behalf of `parent` or for its own sake. -/
def add (store : Store) (source : ArchiveSource) (path : String) (parent : Option String) :
    Store × AddOutcome :=
  let path := source.normalize path
  match store.archives.findFinIdx? (·.path == path) with
  | some position =>
      let existing := store.archives.get position
      if existing.autoLoaded && parent.isNone then
        let promoted := existing.promoted path
        ({ archives := store.archives.set position promoted },
          { added := true, summary := some promoted.summary })
      else (store, { added := false, summary := some existing.summary })
  | none =>
      match source.load path with
      | .ok contents =>
          let archive := (LoadedArchive.unopened path parent).withHandle contents
          ({ archives := store.archives ++ [archive] },
            { added := true, summary := some archive.summary })
      | .error _ => (store, { added := false, summary := none })

/-- Closes the first archive whose path is the given one, as it stands or in its canonical form,
and says which one it was. -/
def remove (store : Store) (source : ArchiveSource) (path : String) :
    Store × Option LoadedArchive :=
  let normalized := source.normalize path
  let isMeant := fun (archive : LoadedArchive) =>
    archive.path == path || archive.path == normalized
  match store.archives.findFinIdx? isMeant with
  | some position =>
      ({ archives := store.archives.eraseIdx position }, some (store.archives.get position))
  | none => (store, none)

/-- The paths of the archives that were opened for their own sake. -/
def explicitPaths (store : Store) : List String :=
  (store.archives.filter fun archive => !archive.autoLoaded).map LoadedArchive.path

def modules (store : Store) : List PlacedModule :=
  store.archives.flatMap LoadedArchive.modules

def archiveOf (store : Store) (source : ArchiveSource) (archivePath : String) :
    Except Error LoadedArchive :=
  match store.find? source archivePath with
  | some archive => .ok archive
  | none => .error (.archiveNotLoaded archivePath)

end Store
end AssemblyBrowser
