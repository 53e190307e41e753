import AssemblyBrowser.Store.Basic

/-!
# Resolving references

A module names the assemblies that it refers to. The module of such a name is
looked for among the open archives, then beside the one that refers to it in the
same container, and then in directories, where it is opened if it is found.
-/

namespace AssemblyBrowser

/-- How far references are followed. -/
structure Resolver where
  /-- Whether archives are opened for a reference. -/
  autoLoad : Bool := true
  /-- The directories that are searched after the one of the archive itself. -/
  searchPaths : List String := []

namespace Resolver

/-- The extensions of files that are tried, in order. -/
def extensions : List String := ["dll", "exe"]

/-- The first open archive that is the module of an assembly of that name. -/
def loaded? (store : Store) (name : String) : Option PlacedModule :=
  store.archives.findSome? fun archive =>
    match archive.handle with
    | some (.codeModule code) =>
        if Path.sameIgnoringCase code.assemblyName name then
          some { archivePath := archive.path, containerPath := none, code }
        else none
    | _ => none

/-- The first module entry of an archive whose file goes by that name, if it can be read. -/
def beside? (requesting : LoadedArchive) (name : String) : Option PlacedModule := do
  let container ← requesting.container?
  let entry ← container.moduleEntries.find? fun entry =>
    Path.sameIgnoringCase (Path.stem entry.name) name
  (requesting.place (some entry.path)).toOption

/-- The directories in which an archive's references are looked for. -/
def directories (resolver : Resolver) (requesting : LoadedArchive) : List String :=
  (Path.parent? requesting.path).toList ++ resolver.searchPaths

/-- The paths at which an assembly is looked for, in order. -/
def candidates (resolver : Resolver) (requesting : LoadedArchive) (name : String) : List String :=
  (resolver.directories requesting).flatMap fun directory =>
    extensions.map fun extension => Path.join directory (name ++ "." ++ extension)

/-- Opens the first of the candidates that is a file and can be opened. -/
def probe (source : ArchiveSource) (requesting : LoadedArchive) :
    (candidates : List String) → Store → Store × Option PlacedModule
  | [], store => (store, none)
  | candidate :: rest, store =>
      if source.isFile candidate then
        let (store, outcome) := store.add source candidate (some requesting.path)
        if outcome.summary.isSome then
          (store, do
            let archive ← store.find? source candidate
            (archive.place none).toOption)
        else probe source requesting rest store
      else probe source requesting rest store

/-- The module of the assembly of that name that an archive refers to. -/
def resolve (resolver : Resolver) (source : ArchiveSource) (store : Store)
    (requesting : LoadedArchive) (name : String) : Store × Option PlacedModule :=
  match (loaded? store name) <|> (beside? requesting name) with
  | some found => (store, some found)
  | none =>
      if resolver.autoLoad then
        probe source requesting (resolver.candidates requesting name) store
      else (store, none)

end Resolver
end AssemblyBrowser
