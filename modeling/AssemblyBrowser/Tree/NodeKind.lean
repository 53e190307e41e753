import AssemblyBrowser.Module.Definition

/-!
# Kinds of nodes

The tree shows archives, what is in them, and groups of answers about a type.
-/

namespace AssemblyBrowser

/-- The kind of a node. -/
inductive NodeKind where
  | assembly
  | package
  | packageFolder
  | resource
  | referencesRoot
  | archiveReference
  | namespaceNode
  | classType
  | interfaceType
  | structType
  | enumType
  | delegateType
  | method
  | field
  | property
  | event
  | constant
  | baseTypesGroup
  | derivedTypesGroup
  | analyzerGroup
  | analyzerResult
  deriving DecidableEq, Repr

namespace NodeKind

def all : List NodeKind :=
  [.assembly, .package, .packageFolder, .resource, .referencesRoot, .archiveReference,
    .namespaceNode, .classType, .interfaceType, .structType, .enumType, .delegateType, .method,
    .field, .property, .event, .constant, .baseTypesGroup, .derivedTypesGroup, .analyzerGroup,
    .analyzerResult]

def rank (kind : NodeKind) : Nat := kind.ctorIdx

def name : NodeKind → String
  | assembly => "Assembly"
  | package => "Package"
  | packageFolder => "PackageFolder"
  | resource => "Resource"
  | referencesRoot => "ReferencesRoot"
  | archiveReference => "ArchiveReference"
  | namespaceNode => "Namespace"
  | classType => "Class"
  | interfaceType => "Interface"
  | structType => "Struct"
  | enumType => "Enum"
  | delegateType => "Delegate"
  | method => "Method"
  | field => "Field"
  | property => "Property"
  | event => "Event"
  | constant => "Constant"
  | baseTypesGroup => "BaseTypesGroup"
  | derivedTypesGroup => "DerivedTypesGroup"
  | analyzerGroup => "AnalyzerGroup"
  | analyzerResult => "AnalyzerResult"

def ofName? (name : String) : Option NodeKind := all.find? (·.name == name)

def isType : NodeKind → Bool
  | classType => true
  | interfaceType => true
  | structType => true
  | enumType => true
  | delegateType => true
  | _ => false

def isMember : NodeKind → Bool
  | method => true
  | field => true
  | property => true
  | event => true
  | constant => true
  | _ => false

def ofTypeKind : TypeKind → NodeKind
  | .classType => classType
  | .interfaceType => interfaceType
  | .structType => structType
  | .enumType => enumType
  | .delegateType => delegateType

/-- The kind of node for a definition; literal fields count as constants. -/
def ofEntity : Entity → NodeKind
  | .type definition => ofTypeKind definition.kind
  | .method _ => method
  | .field definition => if definition.isLiteral then constant else field
  | .property _ => property
  | .event _ => event

/-- All definitions but types are members. -/
theorem isMember_ofEntity {entity : Entity} (h : ∀ type, entity ≠ .type type) :
    (ofEntity entity).isMember = true := by
  cases entity with
  | type type => exact absurd rfl (h type)
  | method => rfl
  | field field => cases hliteral : field.isLiteral <;> simp [ofEntity, isMember, hliteral]
  | property => rfl
  | event => rfl

theorem ofName?_name (kind : NodeKind) : ofName? kind.name = some kind := by
  cases kind <;> rfl

end NodeKind
end AssemblyBrowser
