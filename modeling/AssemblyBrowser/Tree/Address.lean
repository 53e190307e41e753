import AssemblyBrowser.Metadata.Token
import AssemblyBrowser.Tree.NodeKind

/-!
# Addresses of nodes

An address finds a node again, also in a later session. It names the archive,
the entry of a container, and the token or the text that tells the node from
others of its kind.
-/

namespace AssemblyBrowser

/-- The address of a node. -/
structure NodeAddress where
  archivePath : String
  /-- The entry of a container, or the path of a folder in it. -/
  containerPath : Option String := none
  kind : NodeKind
  displayKey : String := ""
  symbolToken : Token := Token.zero
  parentToken : Token := Token.zero
  /-- Whether the node has a text. -/
  decompilable : Bool := false
  deriving DecidableEq

namespace NodeAddress

/-- An assembly, which is also the address of a module. -/
def assembly (archivePath : String) (containerPath : Option String) : NodeAddress :=
  { archivePath, containerPath, kind := .assembly, decompilable := true }

def package (archivePath : String) : NodeAddress :=
  { archivePath, kind := .package, decompilable := true }

def packageFolder (archivePath folderPath displayName : String) : NodeAddress :=
  { archivePath, containerPath := some folderPath, kind := .packageFolder,
    displayKey := displayName, decompilable := true }

/-- A resource of a module, or an entry of a container when the token is zero. -/
def resource (archivePath : String) (containerPath : Option String) (name : String)
    (token : Token) : NodeAddress :=
  { archivePath, containerPath, kind := .resource, displayKey := name, symbolToken := token,
    decompilable := true }

def referencesRoot (archivePath : String) (containerPath : Option String) : NodeAddress :=
  { archivePath, containerPath, kind := .referencesRoot }

def archiveReference (archivePath : String) (containerPath : Option String) (name : String)
    (token : Token) : NodeAddress :=
  { archivePath, containerPath, kind := .archiveReference, displayKey := name,
    symbolToken := token, decompilable := true }

def namespaceNode (archivePath : String) (containerPath : Option String) (name : String) :
    NodeAddress :=
  { archivePath, containerPath, kind := .namespaceNode, displayKey := name, decompilable := true }

def definition (archivePath : String) (containerPath : Option String) (kind : NodeKind)
    (token : Token) (declaringType : Option Token) : NodeAddress :=
  { archivePath, containerPath, kind, symbolToken := token,
    parentToken := declaringType.getD Token.zero, decompilable := true }

def group (archivePath : String) (containerPath : Option String) (kind : NodeKind)
    (owner : Token) : NodeAddress :=
  { archivePath, containerPath, kind, parentToken := owner }

def analyzerResult (archivePath : String) (containerPath : Option String) (token : Token)
    (declaringType : Option Token) : NodeAddress :=
  definition archivePath containerPath .analyzerResult token declaringType

/-- The address of the module that a node belongs to. -/
def moduleAddress (address : NodeAddress) : NodeAddress :=
  assembly address.archivePath address.containerPath

def compareText (first second : String) : Ordering :=
  if first < second then .lt else if second < first then .gt else .eq

/-- The order of optional texts, with nothing first. -/
def compareOptional : Option String → Option String → Ordering
  | none, none => .eq
  | none, some _ => .lt
  | some _, none => .gt
  | some first, some second => compareText first second

def compare (first second : NodeAddress) : Ordering :=
  (compareText first.archivePath second.archivePath)
    |>.then (compareOptional first.containerPath second.containerPath)
    |>.then (Ord.compare first.kind.rank second.kind.rank)
    |>.then (compareText first.displayKey second.displayKey)
    |>.then (Ord.compare first.symbolToken.toNat second.symbolToken.toNat)
    |>.then (Ord.compare first.parentToken.toNat second.parentToken.toNat)
    |>.then (Ord.compare first.decompilable second.decompilable)

def sort (addresses : List NodeAddress) : List NodeAddress :=
  addresses.mergeSort fun first second => (compare first second).isLE

end NodeAddress
end AssemblyBrowser
