import AssemblyBrowser.Bytes.Basic
import AssemblyBrowser.Error
import AssemblyBrowser.FileSystem.Path

/-!
# File systems

A file system is a table of directories and files. The place of each is given by
the names that lead to it from the root, so a place has one name only, and a path
has a canonical form: the text of the place that it leads to.
-/

namespace AssemblyBrowser

/-- What a path can lead to. -/
inductive FileEntry where
  | directory
  | file (content : Bytes)

/-- Why a path leads nowhere, or why nothing can be put there. -/
inductive FileFault where
  | missing
  | notDirectory
  | isDirectory
  | isFile
  | nameTooLong
  | nameWithNul
  deriving DecidableEq

namespace FileFault

def message : FileFault → String
  | missing => "No such file or directory (os error 2)"
  | notDirectory => "Not a directory (os error 20)"
  | isDirectory => "Is a directory (os error 21)"
  | isFile => "File exists (os error 17)"
  | nameTooLong => "File name too long (os error 36)"
  | nameWithNul => "file name contained an unexpected NUL byte"

def error (fault : FileFault) : Error := .file fault.message

end FileFault

/-- Directories and files, each under its place below the root. -/
structure FileSystem where
  entries : List (List String × FileEntry) := []
  /-- The place where relative paths begin. -/
  workingDirectory : List String := []

namespace FileSystem

def maxNameBytes : Nat := 255

/-- What is at a place; the root is always there. -/
def entry? (files : FileSystem) (place : List String) : Option FileEntry :=
  match place with
  | [] => some .directory
  | _ => (files.entries.find? (·.1 == place)).map (·.2)

def placeText (place : List String) : String := "/" ++ String.intercalate "/" place

def start (files : FileSystem) (path : String) : List String :=
  if path.startsWith "/" then [] else files.workingDirectory

def segments (path : String) : List String := Path.split (· == '/') path

def nameFault? (name : String) : Option FileFault :=
  if name.toList.contains (Char.ofNat 0) then some .nameWithNul
  else if maxNameBytes < name.utf8ByteSize then some .nameTooLong
  else none

/-- Whether a segment stands for the directory it is in. -/
def isHere (segment : String) : Bool := segment.isEmpty || segment == "."

/-- The place that segments lead to from a place. Only directories can be passed through. -/
def follow (files : FileSystem) : (place segments : List String) → Except FileFault (List String)
  | place, [] => .ok place
  | place, segment :: rest =>
      match files.entry? place with
      | some .directory =>
          if isHere segment then files.follow place rest
          else if segment = ".." then files.follow place.dropLast rest
          else
            match nameFault? segment, files.entry? (place ++ [segment]) with
            | some fault, _ => .error fault
            | none, none => .error .missing
            | none, some _ => files.follow (place ++ [segment]) rest
      | some (.file _) => .error .notDirectory
      | none => .error .missing

def locate (files : FileSystem) (path : String) : Except FileFault (List String) :=
  if path.isEmpty then .error .missing else files.follow (files.start path) (segments path)

def lookup (files : FileSystem) (path : String) : Except FileFault FileEntry := do
  match files.entry? (← files.locate path) with
  | some entry => return entry
  | none => throw .missing

/-- The canonical form of a path; one that leads nowhere stays as it is. -/
def normalize (files : FileSystem) (path : String) : String :=
  match files.locate path with
  | .ok place => placeText place
  | .error _ => path

def isFile (files : FileSystem) (path : String) : Bool :=
  match files.lookup path with
  | .ok (.file _) => true
  | _ => false

def isDirectory (files : FileSystem) (path : String) : Bool :=
  match files.lookup path with
  | .ok .directory => true
  | _ => false

def read (files : FileSystem) (path : String) : Except FileFault Bytes := do
  match ← files.lookup path with
  | .file content => return content
  | .directory => throw .isDirectory

def put (files : FileSystem) (place : List String) (entry : FileEntry) : FileSystem :=
  if files.entries.any (·.1 == place) then
    { files with
      entries := files.entries.map fun other => if other.1 == place then (place, entry) else other }
  else { files with entries := files.entries ++ [(place, entry)] }

/-- Writes a file into a directory that is there. -/
def write (files : FileSystem) (path : String) (content : Bytes) :
    Except FileFault FileSystem := do
  if path.isEmpty then throw .missing
  let place ← files.follow (files.start path) (segments path).dropLast
  let name := (segments path).getLast?.getD ""
  match files.entry? place with
  | some .directory =>
      if isHere name || name == ".." then throw .isDirectory
      if let some fault := nameFault? name then throw fault
      match files.entry? (place ++ [name]) with
      | some .directory => throw .isDirectory
      | _ => return files.put (place ++ [name]) (.file content)
  | some (.file _) => throw .notDirectory
  | none => throw .missing

/-- Makes the directories that segments lead through from a directory. -/
def createFrom (files : FileSystem) :
    (place segments : List String) → Except FileFault FileSystem
  | _, [] => .ok files
  | place, segment :: rest =>
      if isHere segment then files.createFrom place rest
      else if segment = ".." then files.createFrom place.dropLast rest
      else
        match nameFault? segment, files.entry? (place ++ [segment]) with
        | some fault, _ => .error fault
        | none, none =>
            (files.put (place ++ [segment]) .directory).createFrom (place ++ [segment]) rest
        | none, some .directory => files.createFrom (place ++ [segment]) rest
        | none, some (.file _) => .error (if rest.isEmpty then .isFile else .notDirectory)
termination_by structural _ segments => segments

/-- Makes a directory and those that lead to it. A dot at the end of a path stands for a directory
that is there already. -/
def createDirectories (files : FileSystem) (path : String) : Except FileFault FileSystem :=
  if path.isEmpty then .ok files
  else if ((segments path).filter (!·.isEmpty)).getLast? = some "." then
    match files.lookup path with
    | .ok .directory => .ok files
    | .ok (.file _) => .error .notDirectory
    | .error fault => .error fault
  else files.createFrom (files.start path) (segments path)

/-- Writes a file and makes the directories that lead to it. -/
def writeThrough (files : FileSystem) (path : String) (content : Bytes) :
    Except FileFault FileSystem := do
  let files ←
    match Path.parent? path with
    | some parent => files.createDirectories parent
    | none => pure files
  files.write path content

/-- Removes a file, or a directory with all that is in it. -/
def delete (files : FileSystem) (path : String) : FileSystem :=
  match files.locate path with
  | .ok place =>
      { files with entries := files.entries.filter fun entry => !place.isPrefixOf entry.1 }
  | .error _ => files

/-- The files below a place with the paths that lead on to them, in order of these paths. -/
def filesBelow (files : FileSystem) (place : List String) : List (String × Bytes) :=
  let below := files.entries.filterMap fun (other, entry) =>
    match entry with
    | .file content =>
        if place.isPrefixOf other && place != other then
          some (String.intercalate "/" (other.drop place.length), content)
        else none
    | .directory => none
  below.mergeSort fun first second => decide (first.1 ≤ second.1)

/-- The entries that are new or have another content than before. -/
def changesSince (files before : FileSystem) : List (List String × FileEntry) :=
  files.entries.filter fun (place, entry) =>
    match entry, before.entry? place with
    | .directory, some .directory => false
    | .file content, some (.file old) => content != old
    | _, _ => true

end FileSystem
end AssemblyBrowser
