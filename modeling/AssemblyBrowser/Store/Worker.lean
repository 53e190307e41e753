import AssemblyBrowser.FileSystem.Basic
import AssemblyBrowser.Json.Printer
import AssemblyBrowser.Json.Reader
import AssemblyBrowser.Store.Basic
import AssemblyBrowser.Text.Blank

/-!
# The worker

A session file is a list of paths, written as an array of texts. It keeps the
archives that were opened for their own sake.

One worker changes the store, one command after another, and writes the session
file when the archives that were opened for their own sake are others than
before.
-/

namespace AssemblyBrowser.Session

/-!
## Sessions
-/

def text (paths : List String) : String := (Json.array (paths.map .text)).indented

/-- The paths in the text of a session; a blank text has none. -/
def parse (text : String) : Except Error (List String) :=
  if (Blank.trim text).isEmpty then .ok []
  else
    match ((Json.parse? text).bind Json.array?).bind (·.mapM Json.text?) with
    | some paths => .ok paths
    | none => .error .invalidJson

/-- The paths in a session file; one that is not there has none. -/
def load (files : FileSystem) (path : String) : Except Error (List String) :=
  match files.read path with
  | .error .missing => .ok []
  | .error fault => .error fault.error
  | .ok content =>
      match Utf8.decode content with
      | .ok text => parse text
      | .error _ => .error (.file "stream did not contain valid UTF-8")

/-- Writes a session file and makes the directories that lead to it. -/
def save (files : FileSystem) (path : String) (paths : List String) : Except Error FileSystem :=
  (files.writeThrough path (Utf8.encode (text paths))).mapError FileFault.error

end AssemblyBrowser.Session

/-!
## Commands of the worker
-/

namespace AssemblyBrowser

/-- What the worker changes. -/
structure Worker where
  /-- The file that keeps the archives opened for their own sake. -/
  sessionFile : Option String
  files : FileSystem
  store : Store

/-- What the worker can be told to do. -/
inductive StoreCommand where
  | add (path : String) (parent : Option String)
  | remove (path : String)

/-- A command, with the world that the worker finds when it turns to it. -/
structure WorkerEvent where
  /-- The canonical form of a path. -/
  normalize : String → String
  loader : ModuleLoader
  files : FileSystem
  command : StoreCommand

def WorkerEvent.source (event : WorkerEvent) : ArchiveSource :=
  { normalize := event.normalize, loader := event.loader, files := event.files }

namespace Worker

def start (sessionFile : Option String) (files : FileSystem) : Worker :=
  { sessionFile, files, store := {} }

/-- Writes the session file; one that cannot be written stays as it is. -/
def saveSession (worker : Worker) : Worker :=
  match worker.sessionFile with
  | none => worker
  | some path =>
      match Session.save worker.files path worker.store.explicitPaths with
      | .ok files => { worker with files }
      | .error _ => worker

def publish (worker : Worker) (store : Store) (explicitChanged : Bool) : Worker :=
  let worker := { worker with store }
  if explicitChanged then worker.saveSession else worker

/-- Opens an archive. The session changes if it is opened for its own sake and was not before. -/
def add (worker : Worker) (source : ArchiveSource) (path : String) (parent : Option String) :
    Worker × AddOutcome :=
  let (store, outcome) := worker.store.add source path parent
  (worker.publish store (outcome.added && parent.isNone), outcome)

/-- Closes an archive and says whether it was open. Those opened on its behalf stay open. -/
def remove (worker : Worker) (source : ArchiveSource) (path : String) : Worker × Bool :=
  match worker.store.remove source path with
  | (store, some removed) => (worker.publish store (!removed.autoLoaded), true)
  | (_, none) => (worker, false)

/-- Carries out a command and says whether it changed what is open. -/
def apply (worker : Worker) (source : ArchiveSource) : StoreCommand → Worker × Bool
  | .add path parent =>
      let (worker, outcome) := worker.add source path parent
      (worker, outcome.added)
  | .remove path => worker.remove source path

/-- Carries out a command among the files that are there by then. -/
def step (worker : Worker) (event : WorkerEvent) : Worker × Bool :=
  { worker with files := event.files }.apply event.source event.command

def run (worker : Worker) : List WorkerEvent → Worker
  | [] => worker
  | event :: rest => (worker.step event).1.run rest

end Worker
end AssemblyBrowser
