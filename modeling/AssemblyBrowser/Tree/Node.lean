import AssemblyBrowser.Module.Basic
import AssemblyBrowser.Tree.Address
import AssemblyBrowser.Tree.Flags

/-!
# Nodes

What is shown for an address: a name, a description, modifiers and badges. A
definition looks the same wherever it turns up.
-/

namespace AssemblyBrowser

/-- A node of the tree. -/
structure Node where
  address : NodeAddress
  displayName : String
  description : String := ""
  mayHaveChildren : Bool := false
  modifiers : Modifiers := .none
  badges : Badges := .none
  deriving DecidableEq

namespace Node

def expandable (node : Node) : Node := { node with mayHaveChildren := true }

def withModifiers (node : Node) (modifiers : Modifiers) : Node :=
  { node with modifiers := node.modifiers.union modifiers }

def withDescription (node : Node) (description : String) : Node :=
  { node with description }

end Node

def globalNamespaceLabel : String := "<global>"

def namespaceLabel (name : String) : String :=
  if name.isEmpty then globalNamespaceLabel else name

namespace CodeModule

/-- A method with its types; a constructor goes by the name of its type. -/
def methodLabel (m : CodeModule) (method : MethodDefinition) : String :=
  let name :=
    if method.isConstructor then
      ((m.type? method.declaringType).map fun owner => stripArity owner.name).getD method.name
    else method.name
  let parameters := String.intercalate ", " (method.parameters.map (·.type.text))
  withGenerics name method.genericParameters
    ++ "(" ++ parameters ++ ") : " ++ method.returnType.text

/-- The modifiers of the first accessor that can be found. -/
def accessorModifiers (m : CodeModule) (accessors : List (Option Token)) : Modifiers :=
  ((accessors.filterMap (·.bind m.method?)).head?.map Modifiers.ofMethod).getD .none

def entityLabel (m : CodeModule) : Entity → String
  | .type definition => definition.displayName
  | .method definition => m.methodLabel definition
  | .field definition => definition.name ++ " : " ++ definition.type.text
  | .property definition => definition.name ++ " : " ++ definition.type.text
  | .event definition => definition.name ++ " : " ++ definition.type.text

def entityModifiers (m : CodeModule) : Entity → Modifiers
  | .type definition => .ofType definition
  | .method definition => .ofMethod definition
  | .field definition => .ofField definition
  | .property definition => m.accessorModifiers [definition.getter, definition.setter]
  | .event definition => m.accessorModifiers [definition.adder, definition.remover]

def entityBadges (m : CodeModule) (entity : Entity) : Badges :=
  (Badges.ofName entity.name).union <|
    match entity with
    | .method definition =>
        (Badges.when (definition.isSpecialName && !definition.isConstructor) .specialName).union
          (Badges.when (m.entryPoint == some definition.token) .entryPoint)
    | _ => .none

end CodeModule

namespace PlacedModule

def typeNode (place : PlacedModule) (type : TypeDefinition) : Node :=
  { address := .definition place.archivePath place.containerPath (.ofTypeKind type.kind) type.token
      type.declaringType
    displayName := type.displayName
    description :=
      match type.declaringType with
      | some outer => place.code.displayName outer
      | none => namespaceLabel type.namespaceName
    mayHaveChildren := true
    modifiers := .ofType type
    badges := .ofName type.name }

def entityNode (place : PlacedModule) (entity : Entity) : Node :=
  match entity, entity.declaringType with
  | .type type, _ => place.typeNode type
  | _, declaringType =>
      { address := .definition place.archivePath place.containerPath (.ofEntity entity) entity.token
          declaringType
        displayName := place.code.entityLabel entity
        description := (declaringType.map place.code.displayName).getD ""
        modifiers := place.code.entityModifiers entity
        badges := place.code.entityBadges entity }

def analyzerNode (place : PlacedModule) (entity : Entity) : Node :=
  let owner :=
    match entity with
    | .type type => namespaceLabel type.namespaceName
    | _ => (entity.declaringType.map place.code.displayName).getD ""
  { address := .analyzerResult place.archivePath place.containerPath entity.token
      entity.declaringType
    displayName := place.code.entityLabel entity
    description := owner ++ " (" ++ place.code.name ++ ")"
    modifiers := place.code.entityModifiers entity
    badges := place.code.entityBadges entity }

end PlacedModule
end AssemblyBrowser
