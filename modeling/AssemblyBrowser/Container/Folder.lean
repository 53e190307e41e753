import AssemblyBrowser.Container.Entry

/-!
# Folders

The folders of a container follow from the paths of its entries. A folder with
nothing in it but one other folder is shown together with that one.
-/

namespace AssemblyBrowser

/-- Folders by their names, each in order of names, with the numbers of their entries. -/
inductive FolderDraft where
  | node (folders : List (String × FolderDraft)) (entries : List Nat)

namespace FolderDraft

def empty : FolderDraft := .node [] []

/-- Changes the folder of that name, which is added in its place if there is none. -/
def changeChild (name : String) (change : FolderDraft → FolderDraft) :
    List (String × FolderDraft) → List (String × FolderDraft)
  | [] => [(name, change empty)]
  | (other, draft) :: rest =>
      if other = name then (other, change draft) :: rest
      else if name < other then (name, change empty) :: (other, draft) :: rest
      else (other, draft) :: changeChild name change rest

/-- Adds an entry to the folder that the segments lead to. -/
def insert (entry : Nat) : (segments : List String) → FolderDraft → FolderDraft
  | [], .node folders entries => .node folders (entries ++ [entry])
  | name :: rest, .node folders entries =>
      .node (changeChild name (insert entry rest) folders) entries

end FolderDraft

/-- A folder of a container. -/
inductive Folder where
  | node (name path : String) (folders : List Folder) (entries : List Nat)
  deriving Inhabited

namespace Folder

/-- The name, which has slashes where several folders are shown as one. -/
def name : Folder → String
  | .node name _ _ _ => name

def path : Folder → String
  | .node _ path _ _ => path

def folders : Folder → List Folder
  | .node _ _ folders _ => folders

def entries : Folder → List Nat
  | .node _ _ _ entries => entries

def isEmpty (folder : Folder) : Bool := folder.folders.isEmpty && folder.entries.isEmpty

/-- Numbers of entries in the order of the entries' names. -/
def sortEntries (names : Array String) (entries : List Nat) : List Nat :=
  entries.mergeSort fun a b => decide (names.getD a "" ≤ names.getD b "")

mutual
/-- The folder of a draft. A draft that holds one folder and no entries is joined with it. -/
def ofDraft (names : Array String) (name path : String) : FolderDraft → Folder
  | .node [(childName, child)] [] =>
      ofDraft names (name ++ "/" ++ childName) (path ++ "/" ++ childName) child
  | .node folders entries =>
      .node name path (ofDrafts names path folders) (sortEntries names entries)

/-- The folders of drafts that stand in the folder of that path. -/
def ofDrafts (names : Array String) (path : String) : List (String × FolderDraft) → List Folder
  | [] => []
  | (name, draft) :: rest =>
      ofDraft names name (if path.isEmpty then name else path ++ "/" ++ name) draft
        :: ofDrafts names path rest
end

/-- The segments of the folders that a path leads through. -/
def folderSegments (path : String) : List String :=
  ((Path.split (· == '/') path).filter (!·.isEmpty)).dropLast

def draftOf (entries : List ContainerEntry) : FolderDraft :=
  entries.zipIdx.foldl (fun draft (entry, index) => draft.insert index (folderSegments entry.path))
    .empty

def ofEntries (entries : List ContainerEntry) : Folder :=
  let names := (entries.map ContainerEntry.name).toArray
  match draftOf entries with
  | .node folders direct => .node "" "" (ofDrafts names "" folders) (sortEntries names direct)

mutual
/-- The folder of that path in a folder, itself included. -/
def find? (wanted : String) : Folder → Option Folder
  | .node name path folders entries =>
      if path = wanted then some (.node name path folders entries) else findIn? wanted folders

/-- The folder of that path in the first of the folders that has one. -/
def findIn? (wanted : String) : List Folder → Option Folder
  | [] => none
  | folder :: rest => (find? wanted folder) <|> (findIn? wanted rest)
end

mutual
/-- A folder and all folders inside it, outer ones first. -/
def all : Folder → List Folder
  | .node name path folders entries => .node name path folders entries :: allOf folders

def allOf : List Folder → List Folder
  | [] => []
  | folder :: rest => all folder ++ allOf rest
end

end Folder
end AssemblyBrowser
