import AssemblyBrowser.Browse.Module
import AssemblyBrowser.Hierarchy.BaseTypes

/-!
# Children

The nodes that a container shows: its folders and its entries. A module among
the entries is shown like an assembly.

What stands under a node. An address is looked up in the store: the archive that
it leads into, the module or the folder, and the definition. Only the base types
of a type can make the store grow.
-/

namespace AssemblyBrowser

/-!
## Inside containers
-/

namespace LoadedArchive

def node (archive : LoadedArchive) : Node :=
  { address :=
      match archive.container? with
      | some _ => .package archive.path
      | none => .assembly archive.path none
    displayName := archive.name
    description := archive.identity?.getD archive.path
    mayHaveChildren := true
    badges := .when archive.autoLoaded .autoLoaded }

end LoadedArchive

def Store.roots (store : Store) : List Node := store.archives.map LoadedArchive.node

namespace Container

def resourceNode (archivePath : String) (entry : ContainerEntry) : Node :=
  { address := .resource archivePath (some entry.path) entry.name Token.zero
    displayName := entry.name
    description := entry.path }

def entryNode (container : Container) (entry : ContainerEntry) : Node :=
  match entry.kind with
  | .codeModule =>
      { address := .assembly container.archivePath (some entry.path)
        displayName := entry.name
        description := entry.path
        mayHaveChildren := true
        badges := .nestedModule }
  | .resource => resourceNode container.archivePath entry

def folderNode (container : Container) (folder : Folder) : Node :=
  { address := .packageFolder container.archivePath folder.path folder.name
    displayName := folder.name
    mayHaveChildren := true }

/-- What stands in a folder: the folders inside it, then its entries. -/
def folderChildren (container : Container) (folder : Folder) : List Node :=
  Node.sortByName (folder.folders.map container.folderNode)
    ++ Node.sortByName
      ((folder.entries.filterMap (container.entries[·]?)).map container.entryNode)

def folderOf (container : Container) (address : NodeAddress) : Except Error Folder :=
  if address.kind = .package then .ok container.root
  else
    match address.containerPath.bind (Folder.find? · container.root) with
    | some folder => .ok folder
    | none =>
        .error (.unknownNode
          ("Folder " ++ address.containerPath.getD "" ++ " in " ++ address.archivePath))

end Container

/-!
## Under any node
-/

namespace Store

def placeOf (store : Store) (source : ArchiveSource) (address : NodeAddress) :
    Except Error PlacedModule := do
  (← store.archiveOf source address.archivePath).place address.containerPath

def containerOf (store : Store) (source : ArchiveSource) (address : NodeAddress) :
    Except Error Container := do
  match (← store.archiveOf source address.archivePath).container? with
  | some container => return container
  | none => throw (.unknownNode (address.archivePath ++ " is not a package or bundle"))

/-- The error for an address whose token leads nowhere. -/
def unknownToken (address : NodeAddress) : Error :=
  .unknownNode (address.kind.name ++ " " ++ address.symbolToken.text)

/-- The definition that an address leads to in a module. -/
def entityOf (place : PlacedModule) (address : NodeAddress) : Except Error Entity :=
  match place.code.entity? address.symbolToken with
  | some entity => .ok entity
  | none => .error (unknownToken address)

def typeOf (place : PlacedModule) (token : Token) : Except Error PlacedType :=
  match place.code.type? token with
  | some definition => .ok { place, definition }
  | none => .error (.typeNotFound token)

def subjectOf (store : Store) (source : ArchiveSource) (address : NodeAddress) :
    Except Error PlacedType := do
  typeOf (← store.placeOf source address) address.parentToken

/-- The nodes under an address, other than base types. -/
def listing (store : Store) (source : ArchiveSource) (address : NodeAddress) :
    Except Error (List Node) := do
  match address.kind with
  | .assembly => return (← store.placeOf source address).children
  | .package | .packageFolder =>
      let container ← store.containerOf source address
      return container.folderChildren (← container.folderOf address)
  | .resource =>
      let _ ← store.archiveOf source address.archivePath
      return []
  | .referencesRoot => return (← store.placeOf source address).referenceNodes
  | .archiveReference =>
      let _ ← store.placeOf source address
      return []
  | .namespaceNode =>
      return (← store.placeOf source address).namespaceChildren address.displayKey
  | .classType | .interfaceType | .structType | .enumType | .delegateType =>
      let type ← typeOf (← store.placeOf source address) address.symbolToken
      return type.place.typeChildren type.definition
  | .method | .field | .property | .event | .constant | .analyzerResult =>
      let _ ← entityOf (← store.placeOf source address) address
      return []
  | .baseTypesGroup => return []
  | .derivedTypesGroup =>
      let subject ← store.subjectOf source address
      return store.derivedTypes (subject.place.code.fullName subject.definition.token)
  | .analyzerGroup =>
      let subject ← store.subjectOf source address
      return store.users (subject.place.code.fullName subject.definition.token)

/-- The nodes under an address, and the store with the archives that were opened to find them. -/
def children (store : Store) (resolver : Resolver) (source : ArchiveSource)
    (address : NodeAddress) : Store × Except Error (List Node) :=
  if address.kind = .baseTypesGroup then
    match store.subjectOf source address with
    | .ok subject =>
        let (store, nodes) := resolver.baseTypes source store subject
        (store, .ok nodes)
    | .error error => (store, .error error)
  else (store, store.listing source address)

end Store
end AssemblyBrowser
