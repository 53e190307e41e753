import AssemblyBrowser.Browse.Text
import AssemblyBrowser.Export.Basic
import AssemblyBrowser.Search.Scan
import AssemblyBrowser.Store.Worker

/-!
# Navigators

A navigator holds the open archives together with the files they come from. Its
operations never fail: an address that leads nowhere has no children, a text that
cannot be made is replaced by its error, and a query that cannot be read finds
nothing.
-/

namespace AssemblyBrowser

/-- What a navigator works with. -/
structure NavigatorSettings where
  /-- The file that keeps the archives opened for their own sake. -/
  sessionFile : Option String := none
  /-- The number of threads for searches; zero leaves the choice open. -/
  searchThreads : Nat := 0
  resolver : Resolver := {}
  loader : ModuleLoader := .standard
  renderer : Renderer := .declarations

namespace NavigatorSettings

/-- The settings with another directory for references, which has to be there. -/
def addSearchPath (settings : NavigatorSettings) (files : FileSystem) (path : String) :
    Except Error NavigatorSettings :=
  if files.isDirectory path then
    .ok { settings with
      resolver := { settings.resolver with
        searchPaths := settings.resolver.searchPaths ++ [path] } }
  else
    .error (.other ("Search path does not exist or is not a directory: " ++ path))

end NavigatorSettings

/-- A text, or what is shown in its place. -/
structure TextOutcome where
  text : String
  isError : Bool
  deriving DecidableEq

namespace TextOutcome

def ofResult : Except Error String → TextOutcome
  | .ok text => { text, isError := false }
  | .error error => { text := commentLine ("Error: " ++ error.message), isError := true }

def toJson (outcome : TextOutcome) : Json :=
  .object [("text", .text outcome.text), ("isError", .boolean outcome.isError)]

end TextOutcome

/-- The open archives and the files around them. -/
structure Navigator where
  settings : NavigatorSettings := {}
  files : FileSystem := {}
  store : Store := {}

namespace Navigator

def source (navigator : Navigator) : ArchiveSource :=
  .ofFiles navigator.settings.loader navigator.files

def worker (navigator : Navigator) : Worker :=
  { sessionFile := navigator.settings.sessionFile
    files := navigator.files
    store := navigator.store }

/-- The navigator after the worker has done something. -/
def withWorker (navigator : Navigator) (worker : Worker) : Navigator :=
  { navigator with files := worker.files, store := worker.store }

/-- Opens an archive, on behalf of `parent` or for its own sake. -/
def add (navigator : Navigator) (path : String) (parent : Option String) :
    Navigator × AddOutcome :=
  let (worker, outcome) := navigator.worker.add navigator.source path parent
  (navigator.withWorker worker, outcome)

def addArchive (navigator : Navigator) (path : String) : Navigator × AddOutcome :=
  navigator.add path none

/-- Closes an archive and says whether it was open. -/
def removeArchive (navigator : Navigator) (path : String) : Navigator × Bool :=
  let (worker, removed) := navigator.worker.remove navigator.source path
  (navigator.withWorker worker, removed)

def archives (navigator : Navigator) : List ArchiveSummary :=
  navigator.store.archives.map LoadedArchive.summary

/-- The nodes under an address; without one, the open archives. -/
def children (navigator : Navigator) (address : Option NodeAddress) : Navigator × List Node :=
  match address with
  | none => (navigator, navigator.store.roots)
  | some address =>
      let (store, nodes) :=
        navigator.store.children navigator.settings.resolver navigator.source address
      ({ navigator with store }, nodes.toOption.getD [])

def text (navigator : Navigator) (dialect : Dialect) (address : NodeAddress) : TextOutcome :=
  .ofResult (navigator.store.text navigator.source navigator.settings.renderer dialect address)

def search (navigator : Navigator) (query : String) : List SearchMatch :=
  match SearchRequest.parse query with
  | .ok request => navigator.store.search request
  | .error _ => []

def exportAssembly (navigator : Navigator) (request : ExportRequest) : Navigator × ExportOutcome :=
  match Export.run navigator.store navigator.source navigator.settings.renderer navigator.files
      request with
  | .ok (files, outcome) => ({ navigator with files }, outcome)
  | .error error => (navigator, Export.failed request error)

/-- Opens archives in order and counts those that were not open before. -/
def addAll (navigator : Navigator) : (paths : List String) → Navigator × Nat
  | [] => (navigator, 0)
  | path :: rest =>
      let (navigator, outcome) := navigator.addArchive path
      let (navigator, count) := navigator.addAll rest
      (navigator, if outcome.added then count + 1 else count)

/-- Opens the archives of the session file and counts them. -/
def restoreSession (navigator : Navigator) : Navigator × Nat :=
  match navigator.settings.sessionFile with
  | none => (navigator, 0)
  | some path =>
      match Session.load navigator.files path with
      | .ok paths => navigator.addAll paths
      | .error _ => (navigator, 0)

end Navigator
end AssemblyBrowser
