import AssemblyBrowser.Error
import AssemblyBrowser.FileSystem.Path

/-!
# Entries of containers

Packages and bundles hold files. An entry says where the bytes of a file are and
how they are compressed.
-/

namespace AssemblyBrowser

/-- How the bytes of an entry are stored. -/
inductive Compression where
  | stored
  | deflate
  | unsupported (method : Nat)
  deriving DecidableEq

/-- Whether an entry is read as a module. -/
inductive EntryKind where
  | codeModule
  | resource
  deriving DecidableEq

namespace EntryKind

def moduleExtensions : List String := ["dll", "exe", "winmd", "netmodule"]

def ofName (name : String) : EntryKind :=
  if Path.hasExtension name moduleExtensions then codeModule else resource

def name : EntryKind → String
  | codeModule => "Module"
  | resource => "Resource"

end EntryKind

/-- A file in a container. -/
structure ContainerEntry where
  name : String
  path : String
  /-- The length of the file, where it is known. -/
  length : Option Nat
  compressedLength : Nat
  /-- Where the bytes, or the header in front of them, begin. -/
  offset : Nat
  compression : Compression
  kind : EntryKind
  deriving DecidableEq

namespace ContainerEntry

/-- A path with slashes in the place of backslashes. -/
def slashed (path : String) : String :=
  String.ofList (path.toList.map fun c => if c = '\\' then '/' else c)

end ContainerEntry
end AssemblyBrowser
