import AssemblyBrowser.Metadata.Heap
import AssemblyBrowser.Metadata.Table
import AssemblyBrowser.Module.Definition

/-!
# Modules

A module is the list of its definitions, row by row, with what it says about
itself. Everything else about it is derived: the definition of a token, the full
name of a type, the types of a namespace.

A listing shows a type together with all types nested in it, at every depth. The
walk that collects them follows the lists of nested types wherever they lead; it
has no bound of its own, so types that stand inside one another in a circle use
up the stack.
-/

namespace AssemblyBrowser

/-- The definitions of a module. -/
structure CodeModule where
  name : String
  assembly : Option AssemblyIdentity := none
  mvid : Option Guid := none
  runtimeVersion : String
  entryPoint : Option Token := none
  types : Array TypeDefinition := #[]
  methods : Array MethodDefinition := #[]
  fields : Array FieldDefinition := #[]
  properties : Array PropertyDefinition := #[]
  events : Array EventDefinition := #[]
  references : Array AssemblyReference := #[]
  resources : Array ManifestResource := #[]

/-- The element of the row that a token of the table names. -/
def byRow {α : Type} (rows : Array α) (table : TableId) (token : Token) : Option α :=
  if token.table = table.number ∧ token.row ≠ 0 then rows[token.row - 1]? else none

/-- The name of the row that holds what belongs to no type. -/
def modulePseudoType : String := "<Module>"

namespace CodeModule

def type? (m : CodeModule) (token : Token) : Option TypeDefinition :=
  byRow m.types .typeDef token

def method? (m : CodeModule) (token : Token) : Option MethodDefinition :=
  byRow m.methods .methodDef token

def field? (m : CodeModule) (token : Token) : Option FieldDefinition :=
  byRow m.fields .field token

def property? (m : CodeModule) (token : Token) : Option PropertyDefinition :=
  byRow m.properties .property token

def event? (m : CodeModule) (token : Token) : Option EventDefinition :=
  byRow m.events .event token

def reference? (m : CodeModule) (token : Token) : Option AssemblyReference :=
  byRow m.references .assemblyRef token

def entity? (m : CodeModule) (token : Token) : Option Entity :=
  if token.table = TableId.typeDef.number then (m.type? token).map .type
  else if token.table = TableId.methodDef.number then (m.method? token).map .method
  else if token.table = TableId.field.number then (m.field? token).map .field
  else if token.table = TableId.property.number then (m.property? token).map .property
  else if token.table = TableId.event.number then (m.event? token).map .event
  else none

/-- The type of a token and the types around it, innermost first; `fuel` bounds their number. -/
def enclosingChain (m : CodeModule) : (fuel : Nat) → Option Token → List TypeDefinition
  | 0, _ => []
  | fuel + 1, token =>
      match token.bind m.type? with
      | none => []
      | some type => type :: m.enclosingChain fuel type.declaringType

/-- The type of a token and the types around it. There are at most as many as the module has
types; a cycle is followed one step further. -/
def enclosingTypes (m : CodeModule) (token : Token) : List TypeDefinition :=
  m.enclosingChain (m.types.size + 1) (some token)

/-- The segments of a type and the types around it, joined by dots behind the namespace of the
outermost one. -/
def qualifiedName (m : CodeModule) (segment : TypeDefinition → String) (token : Token) : String :=
  let chain := m.enclosingTypes token
  let name := String.intercalate "." (chain.reverse.map segment)
  let namespaceName := (chain.getLast?.map TypeDefinition.namespaceName).getD ""
  if namespaceName.isEmpty then name else namespaceName ++ "." ++ name

def fullName (m : CodeModule) (token : Token) : String := m.qualifiedName TypeDefinition.name token

/-- The full name of a type with generic parameters in the place of arities. -/
def displayName (m : CodeModule) (token : Token) : String :=
  m.qualifiedName TypeDefinition.displayName token

/-- The name by which a signature refers to a type of the module. -/
def typeName? (m : CodeModule) (token : Token) : Option TypeName :=
  (m.type? token).map fun type =>
    { namespaceName :=
        match type.declaringType with
        | some outer => m.fullName outer
        | none => type.namespaceName
      name := type.name
      token := token }

def findType? (m : CodeModule) (fullName : String) : Option TypeDefinition :=
  m.types.toList.reverse.find? fun type => m.fullName type.token == fullName

/-- The types that stand in a namespace of their own right. -/
def topLevelTypes (m : CodeModule) : List TypeDefinition :=
  m.types.toList.filter fun type => type.declaringType.isNone && type.name != modulePseudoType

/-- The top-level types of a namespace, in row order. -/
def typesInNamespace (m : CodeModule) (namespaceName : String) : List Token :=
  (m.topLevelTypes.filter (·.namespaceName == namespaceName)).map TypeDefinition.token

/-- The namespaces of the top-level types, in order and without repetition. -/
def namespaces (m : CodeModule) : List String :=
  (m.topLevelTypes.map TypeDefinition.namespaceName).eraseDups.mergeSort
    fun a b => decide (a ≤ b)

/-- The name of the assembly, or the name of the module without its last extension. -/
def assemblyName (m : CodeModule) : String :=
  match m.assembly with
  | some identity => identity.name
  | none =>
      match m.name.toList.reverse.dropWhile (· != '.') with
      | _ :: stem => String.ofList stem.reverse
      | [] => m.name

def isAccessor (m : CodeModule) (token : Token) : Bool :=
  (m.method? token).any MethodDefinition.isAccessor

end CodeModule
end AssemblyBrowser

/-! ## Where a module is

A module is a file of its own or an entry of a container.
-/

namespace AssemblyBrowser

/-- A module with the place it was read from. -/
structure PlacedModule where
  archivePath : String
  /-- The entry of the container, if the archive is one. -/
  containerPath : Option String
  code : CodeModule

end AssemblyBrowser

/-!
## Types with the types inside them
-/

namespace AssemblyBrowser

/-- A type with the types nested in it. -/
inductive TypeTree where
  | node (definition : TypeDefinition) (nested : List TypeTree)

namespace CodeModule

/-- A type with the types nested in it, where the types that are opened may stand `depth` deep
inside one another. -/
def typeTreeWithin (m : CodeModule) (opens : TypeDefinition → Bool) :
    (depth : Nat) → TypeDefinition → Except Error TypeTree
  | 0, _ => .error .stackOverflow
  | depth + 1, type =>
      if opens type then do
        let nested ← (type.nestedTypes.filterMap m.type?).mapM (m.typeTreeWithin opens depth)
        return .node type nested
      else return .node type []

/-- A type with all types nested in it. Different types inside one another are no more than the
module has, so the walk goes round in a circle if it gets deeper than that. -/
def typeTree (m : CodeModule) (opens : TypeDefinition → Bool) (type : TypeDefinition) :
    Except Error TypeTree :=
  m.typeTreeWithin opens m.types.size type

end CodeModule
end AssemblyBrowser
