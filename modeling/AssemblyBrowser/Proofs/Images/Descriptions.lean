import AssemblyBrowser.Module.Reader
import AssemblyBrowser.Proofs.Codec.MetadataRoots
import AssemblyBrowser.Proofs.Codec.Signatures
import AssemblyBrowser.Proofs.Lookup.QualifiedNames

/-!
# Module descriptions

A module can be described without tables and heaps: its types in the order of
their rows, each with its members, and what the module says about itself and
about others. From a description follows what a browser has to show: which
token each definition has, who owns it, and what its signature stands for.
-/

namespace AssemblyBrowser

/-!
## Rows and lists of rows
-/

section Rows

variable {α β : Type}

/-- The item in a row, counted from 1. -/
def itemAt? (items : List α) (row : Nat) : Option α :=
  if row = 0 then none else items[row - 1]?

/-- Items with their rows. -/
def numbered (items : List α) : List (α × Nat) := items.zipIdx 1

/-- The members of all items, each with the row of the item that owns it. -/
def owned (members : α → List β) (items : List α) : List (Nat × β) :=
  (numbered items).flatMap fun (item, row) => (members item).map (row, ·)

/-- The number of the members of all items. -/
def memberCount (members : α → List β) (items : List α) : Nat :=
  (items.map fun item => (members item).length).sum

/-- The row of the first member of an item, where members stand one after another. -/
def firstRow (members : α → List β) (items : List α) (row : Nat) : Nat :=
  memberCount members (items.take (row - 1)) + 1

/-- The rows of the members of an item. -/
def memberRows (members : α → List β) (items : List α) (item : α) (row : Nat) : List Nat :=
  List.range' (firstRow members items row) (members item).length

end Rows

/-!
## Names inside names
-/

/-- Rows outwards from a row; a walk of `fuel` steps that has not ended is cut off. -/
def climb (outer : Nat → Option Nat) : (fuel : Nat) → Nat → List Nat
  | 0, _ => []
  | fuel + 1, row =>
      match outer row with
      | none => []
      | some next => next :: climb outer fuel next

/-- What a row says about the name of a type. -/
structure NamedRow where
  namespaceName : String
  name : String
  /-- The row of the type around it. -/
  outer : Option Nat

namespace NamedRow

def outer? (rows : List NamedRow) (row : Nat) : Option Nat := (itemAt? rows row).bind outer

def nameAt (rows : List NamedRow) (row : Nat) : String := ((itemAt? rows row).map name).getD ""

def ownNamespaceAt (rows : List NamedRow) (row : Nat) : String :=
  ((itemAt? rows row).map namespaceName).getD ""

/-- The rows around a row, innermost first. -/
def around (rows : List NamedRow) (row : Nat) : List Nat := climb (outer? rows) rows.length row

/-- The namespace of a row and of all rows inside it: the one of the outermost row. -/
def namespaceAt (rows : List NamedRow) (row : Nat) : String :=
  ownNamespaceAt rows ((around rows row).getLast?.getD row)

def fullName (rows : List NamedRow) (row : Nat) : String :=
  dotted (namespaceAt rows row) ((row :: around rows row).reverse.map (nameAt rows))

/-- What stands in front of the name of a row: the full name of the row around it, or the
namespace. -/
def qualifier (rows : List NamedRow) (row : Nat) : String :=
  match outer? rows row with
  | some next => fullName rows next
  | none => namespaceAt rows row

/-- Rows stand inside rows that there are, and not in a circle. -/
structure WellNested (rows : List NamedRow) : Prop where
  inside : ∀ row next, outer? rows row = some next → 1 ≤ next ∧ next ≤ rows.length
  ends : ∀ row, ∃ around, Surrounded (outer? rows) row around

end NamedRow

/-!
## Descriptions
-/

structure FieldDraft where
  flags : Nat
  name : String
  type : TypeSignature
  constant : Option Constant

structure ParameterDraft where
  /-- The name of the parameter, if it has one. -/
  name : Option String
  type : TypeSignature

structure MethodDraft where
  flags : Nat
  name : String
  convention : CallingConvention
  genericCount : Nat
  result : TypeSignature
  parameters : List ParameterDraft

/-- A property; its accessors are methods, by their rows. -/
structure PropertyDraft where
  flags : Nat
  name : String
  hasThis : Bool
  type : TypeSignature
  parameters : List TypeSignature
  getter : Option Nat
  setter : Option Nat

structure TypeDraft where
  flags : Nat
  namespaceName : String
  name : String
  base : Option Token
  /-- The row of the type around it. -/
  outer : Option Nat
  fields : List FieldDraft
  methods : List MethodDraft
  properties : List PropertyDraft

/-- Where a type that a module refers to is. -/
inductive ScopeDraft where
  | thisModule
  | assembly (row : Nat)
  /-- Inside the type of another reference. -/
  | reference (row : Nat)

structure TypeReferenceDraft where
  scope : ScopeDraft
  name : String
  namespaceName : String

/-- What a reference says about the public key of an assembly. -/
inductive KeyDraft where
  | absent
  | token (bytes : Vector UInt8 8)
  | whole (key : List UInt8)

structure ReferenceDraft where
  name : String
  version : Version
  culture : String
  key : KeyDraft

structure AssemblyDraft where
  name : String
  version : Version
  culture : String
  publicKey : List UInt8

structure ModuleDraft where
  name : String
  mvid : Vector UInt8 16
  /-- The row of the method that a program starts with. -/
  entryPoint : Option Nat
  assembly : Option AssemblyDraft
  references : List ReferenceDraft
  typeReferences : List TypeReferenceDraft
  types : List TypeDraft

/-- A method as an accessor of a property, both by their rows. -/
structure AccessorDraft where
  role : AccessorRole
  method : Nat
  property : Nat

def MethodDraft.signature (method : MethodDraft) : MethodSignature where
  convention := method.convention
  genericCount := method.genericCount
  result := method.result
  parameters := method.parameters.map ParameterDraft.type

/-- The parameters that have names, with their numbers. -/
def MethodDraft.namedParameters (method : MethodDraft) : List (Nat × String) :=
  (numbered method.parameters).filterMap fun (parameter, number) =>
    parameter.name.map (number, ·)

def PropertyDraft.signature (property : PropertyDraft) : PropertySignature where
  hasThis := property.hasThis
  type := property.type
  parameters := property.parameters

def PropertyDraft.accessors (property : PropertyDraft) (row : Nat) : List AccessorDraft :=
  (property.getter.map (⟨.getter, ·, row⟩)).toList ++
    (property.setter.map (⟨.setter, ·, row⟩)).toList

def ScopeDraft.outer : ScopeDraft → Option Nat
  | .reference row => some row
  | _ => none

/-- The row of the assembly that is named as the place. -/
def ScopeDraft.assembly? : ScopeDraft → Option Nat
  | .assembly row => some row
  | _ => none

/-- The token of a public key, if one can be told. -/
def KeyDraft.publicKeyToken : KeyDraft → Option Bytes
  | .absent => none
  | .token bytes => some bytes.toArray
  | .whole key => publicKeyToken? key.toArray

def ReferenceDraft.identity (reference : ReferenceDraft) : AssemblyIdentity where
  name := reference.name
  version := reference.version
  culture := culture? reference.culture
  publicKeyToken := reference.key.publicKeyToken

def AssemblyDraft.identity (assembly : AssemblyDraft) : AssemblyIdentity where
  name := assembly.name
  version := assembly.version
  culture := culture? assembly.culture
  publicKeyToken := publicKeyToken? assembly.publicKey.toArray

namespace ModuleDraft

/-- The fields of all types, each with the row of its type. -/
def fields (module : ModuleDraft) : List (Nat × FieldDraft) :=
  owned TypeDraft.fields module.types

def methods (module : ModuleDraft) : List (Nat × MethodDraft) :=
  owned TypeDraft.methods module.types

def properties (module : ModuleDraft) : List (Nat × PropertyDraft) :=
  owned TypeDraft.properties module.types

/-- The rows of nested types with the rows of the types around them. -/
def nestings (module : ModuleDraft) : List (Nat × Nat) :=
  (numbered module.types).filterMap fun (type, row) => type.outer.map (row, ·)

/-- The rows of fields that have values, with the values. -/
def constants (module : ModuleDraft) : List (Nat × Constant) :=
  (numbered module.fields).filterMap fun ((_, field), row) => field.constant.map (row, ·)

/-- The accessors of all properties. -/
def accessors (module : ModuleDraft) : List AccessorDraft :=
  (numbered module.properties).flatMap fun ((_, property), row) => property.accessors row

/-!
## Names of types
-/

def typeNames (module : ModuleDraft) : List NamedRow :=
  module.types.map fun type => ⟨type.namespaceName, type.name, type.outer⟩

def referenceNames (module : ModuleDraft) : List NamedRow :=
  module.typeReferences.map fun type => ⟨type.namespaceName, type.name, type.scope.outer⟩

/-- The assembly that has the type of a reference: the one of the outermost type around it. -/
def referenceScope (module : ModuleDraft) (row : Nat) : Option String :=
  let outermost := (NamedRow.around module.referenceNames row).getLast?.getD row
  match (itemAt? module.typeReferences outermost).map TypeReferenceDraft.scope with
  | some (.assembly assembly) => (itemAt? module.references assembly).map ReferenceDraft.name
  | _ => none

def definitionName (module : ModuleDraft) (row : Nat) : TypeName where
  namespaceName := NamedRow.qualifier module.typeNames row
  name := NamedRow.nameAt module.typeNames row
  token := TableId.typeDef.token row

def referenceName (module : ModuleDraft) (row : Nat) : TypeName where
  namespaceName := NamedRow.qualifier module.referenceNames row
  name := NamedRow.nameAt module.referenceNames row
  scope := module.referenceScope row
  token := TableId.typeRef.token row

/-- The name that the token of a type stands for. -/
def nameOf (module : ModuleDraft) (token : Token) : TypeName :=
  if token.table = TableId.typeDef.number then module.definitionName token.row
  else module.referenceName token.row

/-- A token names a type that the module defines or refers to. -/
def HasType (module : ModuleDraft) (token : Token) : Prop :=
  (token.table = TableId.typeDef.number ∧ 1 ≤ token.row ∧ token.row ≤ module.types.length) ∨
    (token.table = TableId.typeRef.number ∧ 1 ≤ token.row ∧
      token.row ≤ module.typeReferences.length)

end ModuleDraft

/-!
## What signatures stand for
-/

mutual

/-- The type that a signature stands for, where tokens stand for names. -/
def TypeSignature.shown (nameOf : Token → TypeName) : TypeSignature → TypeExpr
  | .primitive type => .primitive type
  | .classType token | .valueType token => .named (nameOf token)
  | .generic base arguments =>
      match base.shown nameOf with
      | .named name => .generic name (TypeSignature.allShown nameOf arguments)
      | other => other
  | .typeParameter number => .parameter ("T" ++ toString number)
  | .methodParameter number => .parameter ("M" ++ toString number)
  | .vector element => .vector (element.shown nameOf)
  | .array element rank => .array (element.shown nameOf) rank
  | .pointer target => .pointer (target.shown nameOf)
  | .reference target => .reference (target.shown nameOf)
  | .functionPointer _ _ _ _ => .functionPointer

def TypeSignature.allShown (nameOf : Token → TypeName) : List TypeSignature → List TypeExpr
  | [] => []
  | type :: types => type.shown nameOf :: TypeSignature.allShown nameOf types

end

mutual

/-- The tokens of a signature that are shown. -/
def TypeSignature.tokens : TypeSignature → List Token
  | .classType token | .valueType token => [token]
  | .generic base arguments => base.tokens ++ TypeSignature.allTokens arguments
  | .vector element | .array element _ => element.tokens
  | .pointer target | .reference target => target.tokens
  | .primitive _ | .typeParameter _ | .methodParameter _ | .functionPointer _ _ _ _ => []

def TypeSignature.allTokens : List TypeSignature → List Token
  | [] => []
  | type :: types => type.tokens ++ TypeSignature.allTokens types

end

/-!
## What is well-formed

Names end where they are written to end, tokens and rows name what there is, and
types do not nest deeper than signatures are read.
-/

/-- A text without a character that ends it. -/
def Plain (text : String) : Prop := '\x00' ∉ text.toList

namespace ModuleDraft

variable (module : ModuleDraft)

/-- A type in a signature can be read, and names types that there are. -/
@[mk_iff]
structure Shows (type : TypeSignature) : Prop where
  depth_le : type.depth ≤ Signature.maxDepth
  tokens : ∀ token ∈ type.tokens, module.HasType token

@[mk_iff]
structure FieldWellFormed (field : FieldDraft) : Prop where
  name : Plain field.name
  type : module.Shows field.type

@[mk_iff]
structure MethodWellFormed (method : MethodDraft) : Prop where
  name : Plain method.name
  result : module.Shows method.result
  parameters : ∀ parameter ∈ method.parameters,
    module.Shows parameter.type ∧ ∀ name ∈ parameter.name, Plain name

@[mk_iff]
structure PropertyWellFormed (property : PropertyDraft) : Prop where
  name : Plain property.name
  type : module.Shows property.type
  parameters : ∀ type ∈ property.parameters, module.Shows type
  getter : ∀ row ∈ property.getter, 1 ≤ row ∧ row ≤ module.methods.length
  setter : ∀ row ∈ property.setter, 1 ≤ row ∧ row ≤ module.methods.length

@[mk_iff]
structure TypeWellFormed (type : TypeDraft) : Prop where
  namespaceName : Plain type.namespaceName
  name : Plain type.name
  base : ∀ token ∈ type.base, module.HasType token
  fields : ∀ field ∈ type.fields, module.FieldWellFormed field
  methods : ∀ method ∈ type.methods, module.MethodWellFormed method
  properties : ∀ property ∈ type.properties, module.PropertyWellFormed property

@[mk_iff]
structure TypeReferenceWellFormed (type : TypeReferenceDraft) : Prop where
  namespaceName : Plain type.namespaceName
  name : Plain type.name
  assembly : ∀ row ∈ type.scope.assembly?, 1 ≤ row ∧ row ≤ module.references.length

structure WellFormed : Prop where
  name : Plain module.name
  assembly : ∀ assembly ∈ module.assembly, Plain assembly.name ∧ Plain assembly.culture
  references : ∀ reference ∈ module.references, Plain reference.name ∧ Plain reference.culture
  typeReferences : ∀ type ∈ module.typeReferences, module.TypeReferenceWellFormed type
  types : ∀ type ∈ module.types, module.TypeWellFormed type
  typeNesting : NamedRow.WellNested module.typeNames
  referenceNesting : NamedRow.WellNested module.referenceNames

/-!
All of this but the nesting is checked item by item.
-/

instance (text : String) : Decidable (Plain text) := inferInstanceAs (Decidable (_ ∉ _))

instance (token : Token) : Decidable (module.HasType token) :=
  inferInstanceAs (Decidable (_ ∨ _))

instance (type : TypeSignature) : Decidable (module.Shows type) :=
  decidable_of_iff' _ (module.shows_iff type)

instance (field : FieldDraft) : Decidable (module.FieldWellFormed field) :=
  decidable_of_iff' _ (module.fieldWellFormed_iff field)

instance (method : MethodDraft) : Decidable (module.MethodWellFormed method) :=
  decidable_of_iff' _ (module.methodWellFormed_iff method)

instance (property : PropertyDraft) : Decidable (module.PropertyWellFormed property) :=
  decidable_of_iff' _ (module.propertyWellFormed_iff property)

instance (type : TypeDraft) : Decidable (module.TypeWellFormed type) :=
  decidable_of_iff' _ (module.typeWellFormed_iff type)

instance (type : TypeReferenceDraft) : Decidable (module.TypeReferenceWellFormed type) :=
  decidable_of_iff' _ (module.typeReferenceWellFormed_iff type)

/-!
## The module that is shown
-/

/-- The role of a method: the one that it was given last. -/
def roleOf (accessors : List AccessorDraft) (row : Nat) : Option AccessorRole :=
  (accessors.reverse.find? (·.method == row)).map AccessorDraft.role

def shownType (type : TypeDraft) (row : Nat) : TypeDefinition where
  token := TableId.typeDef.token row
  namespaceName := NamedRow.namespaceAt module.typeNames row
  name := type.name
  flags := type.flags
  kind := .classify type.flags (type.base.map module.nameOf)
    (NamedRow.fullName module.typeNames row)
  base := type.base.map fun token => .named (module.nameOf token)
  declaringType := type.outer.map TableId.typeDef.token
  nestedTypes := ((numbered module.types).filter fun (inner, _) => inner.outer == some row).map
    fun (_, inner) => TableId.typeDef.token inner
  fields := (memberRows TypeDraft.fields module.types type row).map TableId.field.token
  methods := (memberRows TypeDraft.methods module.types type row).map TableId.methodDef.token
  properties :=
    (memberRows TypeDraft.properties module.types type row).map TableId.property.token

def shownField (field : Nat × FieldDraft) (row : Nat) :
    FieldDefinition where
  token := TableId.field.token row
  name := field.2.name
  flags := field.2.flags
  declaringType := TableId.typeDef.token field.1
  type := field.2.type.shown module.nameOf
  constant := field.2.constant

def shownParameter (parameter : ParameterDraft) : Parameter where
  name := parameter.name.getD ""
  type := parameter.type.shown module.nameOf

def shownMethod (accessors : List AccessorDraft)
    (method : Nat × MethodDraft) (row : Nat) : MethodDefinition where
  token := TableId.methodDef.token row
  name := method.2.name
  flags := method.2.flags
  declaringType := TableId.typeDef.token method.1
  returnType := method.2.result.shown module.nameOf
  parameters := method.2.parameters.map module.shownParameter
  role := roleOf accessors row

def shownProperty (property : Nat × PropertyDraft) (row : Nat) :
    PropertyDefinition where
  token := TableId.property.token row
  name := property.2.name
  flags := property.2.flags
  declaringType := TableId.typeDef.token property.1
  type := property.2.type.shown module.nameOf
  parameters := property.2.parameters.map (TypeSignature.shown module.nameOf)
  getter := property.2.getter.map TableId.methodDef.token
  setter := property.2.setter.map TableId.methodDef.token

def shownReference (reference : ReferenceDraft) (row : Nat) : AssemblyReference where
  token := TableId.assemblyRef.token row
  identity := reference.identity

def shownTypes : List TypeDefinition :=
  (numbered module.types).map fun (type, row) => module.shownType type row

def shownFields : List FieldDefinition :=
  (numbered module.fields).map fun (field, row) => module.shownField field row

def shownMethods (accessors : List AccessorDraft) : List MethodDefinition :=
  (numbered module.methods).map fun (method, row) => module.shownMethod accessors method row

def shownProperties : List PropertyDefinition :=
  (numbered module.properties).map fun (property, row) => module.shownProperty property row

def shownReferences : List AssemblyReference :=
  (numbered module.references).map fun (reference, row) => shownReference reference row

/-- The module that a browser shows under a name, where the roles of methods were given in the
order of the accessors. -/
def shown (name : String) (accessors : List AccessorDraft) :
    CodeModule where
  name := if name.isEmpty then module.name else name
  assembly := module.assembly.map AssemblyDraft.identity
  mvid := some ⟨module.mvid.toArray⟩
  runtimeVersion := MetadataRoot.writtenVersion
  entryPoint := module.entryPoint.map TableId.methodDef.token
  types := module.shownTypes.toArray
  methods := (module.shownMethods accessors).toArray
  fields := module.shownFields.toArray
  properties := module.shownProperties.toArray
  references := module.shownReferences.toArray

end ModuleDraft
end AssemblyBrowser
