import AssemblyBrowser.Hierarchy.BaseTypes

/-!
# Inside modules

The nodes that a module shows: its references, its namespaces, the types in
them, the members of a type, and resources.
-/

namespace AssemblyBrowser

namespace TypeDefinition

def hasBaseTypes (type : TypeDefinition) : Bool := type.base.isSome || !type.interfaces.isEmpty

/-- Whether other types can name a type as a supertype. -/
def canHaveDerivedTypes (type : TypeDefinition) : Bool :=
  match type.kind with
  | .interfaceType => true
  | .classType => !type.isSealed && !type.isStatic
  | .structType => false
  | .enumType => false
  | .delegateType => false

end TypeDefinition

namespace PlacedModule

/-- The path under which a module is shown: the one of its archive, followed by its entry. -/
def displayPath (place : PlacedModule) : String :=
  match place.containerPath with
  | some path => place.archivePath ++ "/" ++ path
  | none => place.archivePath

def namespaceNode (place : PlacedModule) (name : String) : Node :=
  { address := .namespaceNode place.archivePath place.containerPath name
    displayName := namespaceLabel name
    description := place.code.name
    mayHaveChildren := true }

def resourceNode (place : PlacedModule) (resource : ManifestResource) : Node :=
  { address := .resource place.archivePath place.containerPath resource.name resource.token
    displayName := resource.name }

def referenceNode (place : PlacedModule) (reference : AssemblyReference) : Node :=
  { address := .archiveReference place.archivePath place.containerPath reference.identity.name
      reference.token
    displayName := reference.identity.name
    description := reference.identity.text }

def referenceNodes (place : PlacedModule) : List Node :=
  Node.sortByName (place.code.references.toList.map place.referenceNode)

/-- What stands under a module: its references, then its namespaces, then its resources. -/
def children (place : PlacedModule) : List Node :=
  let references :=
    if place.code.references.isEmpty then []
    else
      [{ address := .referencesRoot place.archivePath place.containerPath
         displayName := "References"
         mayHaveChildren := true }]
  references
    ++ Node.sortByName (place.code.namespaces.map place.namespaceNode)
    ++ Node.sortByName (place.code.resources.toList.map place.resourceNode)

def namespaceChildren (place : PlacedModule) (name : String) : List Node :=
  Node.sortByName
    (((place.code.typesInNamespace name).filterMap place.code.type?).map place.typeNode)

/-- Whether a member is shown under its type: accessors and fields of the runtime are not. -/
def isShown : Entity → Bool
  | .type _ => true
  | .method definition => !definition.isAccessor
  | .field definition => !definition.hasRuntimeName
  | .property _ => true
  | .event _ => true

/-- The members of a type and the types inside it. -/
def memberNodes (place : PlacedModule) (type : TypeDefinition) : List Node :=
  let tokens :=
    type.nestedTypes ++ type.fields ++ type.properties ++ type.events ++ type.methods
  Node.sortByName
    (((tokens.filterMap place.code.entity?).filter isShown).map place.entityNode)

def groupNode (place : PlacedModule) (kind : NodeKind) (name : String) (owner : Token) : Node :=
  { address := .group place.archivePath place.containerPath kind owner
    displayName := name
    mayHaveChildren := true }

/-- What stands under a type: groups of related types, its members, and the group of its users. -/
def typeChildren (place : PlacedModule) (type : TypeDefinition) : List Node :=
  (if type.hasBaseTypes then [place.groupNode .baseTypesGroup "Base Types" type.token] else [])
    ++ (if type.canHaveDerivedTypes then
          [place.groupNode .derivedTypesGroup "Derived Types" type.token]
        else [])
    ++ place.memberNodes type
    ++ [place.groupNode .analyzerGroup "Used By" type.token]

end PlacedModule
end AssemblyBrowser
