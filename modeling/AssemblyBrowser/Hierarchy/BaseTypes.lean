import AssemblyBrowser.Store.Basic
import AssemblyBrowser.Store.Resolver
import AssemblyBrowser.Tree.Node

/-!
# Relations between types

Types are related across modules by their full names: a type has supertypes, and
the definitions whose signatures name a type use it.

The base types of a type are found step by step: each supertype that has not been
met is looked up, and the supertypes of its definition follow. Looking one up may
open another archive.

Every name is met once, and only the supertypes of a definition that has just
been met join the queue. So a walk takes no more steps than there are supertypes
in all modules, until another archive is opened; and there are only so many
files.
-/

namespace AssemblyBrowser

namespace Node

def sortByName (nodes : List Node) : List Node :=
  nodes.mergeSort fun first second => decide (first.displayName ≤ second.displayName)

end Node

namespace PlacedModule

/-- The nodes of the types that name a type as their base or as an interface. -/
def derivedNodes (place : PlacedModule) (fullName : String) : List Node :=
  (place.code.types.toList.filter (·.derivesDirectlyFrom fullName)).map place.typeNode

/-- Whether the signature of a definition names a type. -/
def isUser (fullName : String) : Entity → Bool
  | .type definition =>
      (definition.base.toList ++ definition.interfaces).any (·.mentions fullName)
  | .field definition => definition.type.mentions fullName
  | .property definition => definition.type.mentions fullName
  | .event definition => definition.type.mentions fullName
  | .method definition =>
      definition.returnType.mentions fullName
        || definition.parameters.any (·.type.mentions fullName)

/-- The definitions that can use a type: all but the type itself and accessors. -/
def possibleUsers (place : PlacedModule) (fullName : String) : List Entity :=
  let code := place.code
  ((code.types.toList.filter fun type => code.fullName type.token != fullName).map .type)
    ++ code.fields.toList.map .field
    ++ code.properties.toList.map .property
    ++ code.events.toList.map .event
    ++ (code.methods.toList.filter (!·.isAccessor)).map .method

/-- The nodes of the definitions that use a type. -/
def userNodes (place : PlacedModule) (fullName : String) : List Node :=
  ((place.possibleUsers fullName).filter (isUser fullName)).map place.analyzerNode

end PlacedModule

namespace Store

/-- The types that name a type as their base or as an interface, in all modules. -/
def derivedTypes (store : Store) (fullName : String) : List Node :=
  Node.sortByName (store.modules.flatMap (·.derivedNodes fullName))

/-- The definitions that use a type, in all modules. -/
def users (store : Store) (fullName : String) : List Node :=
  Node.sortByName (store.modules.flatMap (·.userNodes fullName))

end Store

/-!
## Base types
-/

/-- A type that a definition names as its base or as an interface. -/
structure Supertype where
  /-- The module of the definition. -/
  origin : PlacedModule
  type : TypeExpr
  isInterface : Bool

namespace Supertype

def ofType (origin : PlacedModule) (type : TypeDefinition) : List Supertype :=
  (type.base.toList.map fun base => { origin, type := base, isInterface := false })
    ++ type.interfaces.map fun interface => { origin, type := interface, isInterface := true }

/-- The node of a supertype without a definition. -/
def unresolvedNode (supertype : Supertype) (name : TypeName) : Node :=
  let kind : NodeKind := if supertype.isInterface then .interfaceType else .classType
  { address :=
      { NodeAddress.definition supertype.origin.archivePath supertype.origin.containerPath kind
          name.token none with
        decompilable := false }
    displayName := supertype.type.text
    description := name.scope.getD (namespaceLabel name.namespaceName)
    badges := .unresolved }

end Supertype

/-- A type with the module that defines it. -/
structure PlacedType where
  place : PlacedModule
  definition : TypeDefinition

namespace PlacedModule

def findType? (place : PlacedModule) (fullName : String) : Option PlacedType :=
  (place.code.findType? fullName).map fun definition => { place, definition }

end PlacedModule

namespace Store

/-- The number of supertypes that all definitions in all modules name. -/
def supertypeCount (store : Store) : Nat :=
  (store.modules.flatMap fun place =>
    place.code.types.toList.flatMap (Supertype.ofType place)).length

/-- The first definition of that full name in any module. -/
def findType? (store : Store) (fullName : String) : Option PlacedType :=
  store.modules.findSome? (·.findType? fullName)

end Store

namespace Resolver

/-- The definition that a name stands for in a module: in the module itself or in the assembly
that the name gives, and failing that anywhere. -/
def definition (resolver : Resolver) (source : ArchiveSource) (store : Store)
    (origin : PlacedModule) (name : TypeName) : Store × Option PlacedType :=
  match name.scope with
  | none => (store, (origin.findType? name.fullName) <|> (store.findType? name.fullName))
  | some assembly =>
      match store.find? source origin.archivePath with
      | none => (store, none)
      | some requesting =>
          let (store, place) := resolver.resolve source store requesting assembly
          (store,
            (place.bind (·.findType? name.fullName)) <|> (store.findType? name.fullName))

/-- The node of a supertype, if it belongs to the walk, and the supertypes that follow it. An
interface has interfaces as supertypes only, and nothing follows the root of the hierarchy. -/
def visit (interfacesOnly : Bool) (supertype : Supertype) (name : TypeName) :
    Option PlacedType → Option Node × List Supertype
  | some found =>
      if interfacesOnly && found.definition.kind != .interfaceType then (none, [])
      else
        (some (found.place.typeNode found.definition),
          if name.isObject then [] else Supertype.ofType found.place found.definition)
  | none =>
      if interfacesOnly && !supertype.isInterface then (none, [])
      else (some (supertype.unresolvedNode name), [])

/-- Walks through supertypes. At most `loads` archives are opened, and `steps` supertypes are left
until one is. -/
def walk (resolver : Resolver) (source : ArchiveSource) (interfacesOnly : Bool) :
    (loads steps : Nat) → Store → (seen : List String) → List Supertype → Store × List Node
  | _, _, store, _, [] => (store, [])
  | _, 0, store, _, _ :: _ => (store, [])
  | loads, steps + 1, store, seen, supertype :: rest =>
      match supertype.type.typeName? with
      | none => walk resolver source interfacesOnly loads steps store seen rest
      | some name =>
          if seen.contains name.fullName then
            walk resolver source interfacesOnly loads steps store seen rest
          else
            let (found, definition) := resolver.definition source store supertype.origin name
            let (node, following) := visit interfacesOnly supertype name definition
            let queue := rest ++ following
            let seen := name.fullName :: seen
            let (final, nodes) :=
              if found.archives.length = store.archives.length then
                walk resolver source interfacesOnly loads steps found seen queue
              else
                match loads with
                | 0 => (found, [])
                | loads + 1 =>
                    walk resolver source interfacesOnly loads
                      (found.supertypeCount + queue.length) found seen queue
            (final, node.toList ++ nodes)
termination_by loads steps => (loads, steps)

def baseTypes (resolver : Resolver) (source : ArchiveSource) (store : Store)
    (subject : PlacedType) : Store × List Node :=
  let queue := Supertype.ofType subject.place subject.definition
  let (store, nodes) :=
    walk resolver source (subject.definition.kind == .interfaceType) source.fileCount
      (store.supertypeCount + queue.length) store
      [subject.place.code.fullName subject.definition.token] queue
  (store, Node.sortByName nodes)

end Resolver
end AssemblyBrowser
