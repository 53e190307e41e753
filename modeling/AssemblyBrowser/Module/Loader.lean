import AssemblyBrowser.FileSystem.Basic
import AssemblyBrowser.Module.Reader

/-!
# Loaders

A loader makes modules of files and of the contents of container entries. The
standard one reads executable images.
-/

namespace AssemblyBrowser

/-- How modules are read. -/
structure ModuleLoader where
  /-- Reads the module of a file. -/
  ofFile : FileSystem → (path : String) → Except Error CodeModule
  /-- Reads the module that bytes hold, under a name. -/
  ofBytes : (name : String) → Bytes → Except Error CodeModule

namespace ModuleLoader

/-- The content of a file that is kept in view; a directory has none. -/
def contentOf (files : FileSystem) (path : String) : Except Error Bytes :=
  match files.read path with
  | .ok content => .ok content
  | .error .isDirectory => .error (.other "No such device (os error 19)")
  | .error fault => .error fault.error

/-- Reads executable images; a module goes by the name of its file. -/
def standard : ModuleLoader where
  ofFile files path := do
    CodeModule.ofBytes ((Path.fileName? path).getD "") (← contentOf files path)
  ofBytes := CodeModule.ofBytes

/-- A computation under guard: a panic becomes an error, so that what runs it survives. -/
def guarded {α : Type} : Except Error α → Except Error α
  | .error (.panic cause) => .error (.other ("module loader panicked: " ++ cause.message))
  | outcome => outcome

end ModuleLoader
end AssemblyBrowser
