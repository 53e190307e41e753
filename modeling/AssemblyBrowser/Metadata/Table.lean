import AssemblyBrowser.Metadata.Token

/-!
# Metadata tables

The 45 tables of a metadata table stream and the thirteen kinds of coded index.
A coded index names a row of one of several tables: the table is chosen by a tag
in its lowest bits, the row stands in the bits above.
-/

namespace AssemblyBrowser

/-- A metadata table; the constructors stand in the order of the table numbers. -/
inductive TableId where
  | module
  | typeRef
  | typeDef
  | fieldPtr
  | field
  | methodPtr
  | methodDef
  | paramPtr
  | param
  | interfaceImpl
  | memberRef
  | constant
  | customAttribute
  | fieldMarshal
  | declSecurity
  | classLayout
  | fieldLayout
  | standAloneSig
  | eventMap
  | eventPtr
  | event
  | propertyMap
  | propertyPtr
  | property
  | methodSemantics
  | methodImpl
  | moduleRef
  | typeSpec
  | implMap
  | fieldRva
  | encLog
  | encMap
  | assembly
  | assemblyProcessor
  | assemblyOs
  | assemblyRef
  | assemblyRefProcessor
  | assemblyRefOs
  | file
  | exportedType
  | manifestResource
  | nestedClass
  | genericParam
  | methodSpec
  | genericParamConstraint
  deriving DecidableEq, Repr

namespace TableId

def all : List TableId :=
  [.module, .typeRef, .typeDef, .fieldPtr, .field, .methodPtr, .methodDef, .paramPtr, .param,
    .interfaceImpl, .memberRef, .constant, .customAttribute, .fieldMarshal, .declSecurity,
    .classLayout, .fieldLayout, .standAloneSig, .eventMap, .eventPtr, .event, .propertyMap,
    .propertyPtr, .property, .methodSemantics, .methodImpl, .moduleRef, .typeSpec, .implMap,
    .fieldRva, .encLog, .encMap, .assembly, .assemblyProcessor, .assemblyOs, .assemblyRef,
    .assemblyRefProcessor, .assemblyRefOs, .file, .exportedType, .manifestResource,
    .nestedClass, .genericParam, .methodSpec, .genericParamConstraint]

def count : Nat := 45

def number (table : TableId) : Nat := table.ctorIdx

def name : TableId → String
  | module => "Module"
  | typeRef => "TypeRef"
  | typeDef => "TypeDef"
  | fieldPtr => "FieldPtr"
  | field => "Field"
  | methodPtr => "MethodPtr"
  | methodDef => "MethodDef"
  | paramPtr => "ParamPtr"
  | param => "Param"
  | interfaceImpl => "InterfaceImpl"
  | memberRef => "MemberRef"
  | constant => "Constant"
  | customAttribute => "CustomAttribute"
  | fieldMarshal => "FieldMarshal"
  | declSecurity => "DeclSecurity"
  | classLayout => "ClassLayout"
  | fieldLayout => "FieldLayout"
  | standAloneSig => "StandAloneSig"
  | eventMap => "EventMap"
  | eventPtr => "EventPtr"
  | event => "Event"
  | propertyMap => "PropertyMap"
  | propertyPtr => "PropertyPtr"
  | property => "Property"
  | methodSemantics => "MethodSemantics"
  | methodImpl => "MethodImpl"
  | moduleRef => "ModuleRef"
  | typeSpec => "TypeSpec"
  | implMap => "ImplMap"
  | fieldRva => "FieldRVA"
  | encLog => "EncLog"
  | encMap => "EncMap"
  | assembly => "Assembly"
  | assemblyProcessor => "AssemblyProcessor"
  | assemblyOs => "AssemblyOS"
  | assemblyRef => "AssemblyRef"
  | assemblyRefProcessor => "AssemblyRefProcessor"
  | assemblyRefOs => "AssemblyRefOS"
  | file => "File"
  | exportedType => "ExportedType"
  | manifestResource => "ManifestResource"
  | nestedClass => "NestedClass"
  | genericParam => "GenericParam"
  | methodSpec => "MethodSpec"
  | genericParamConstraint => "GenericParamConstraint"

def ofName? (name : String) : Option TableId := all.find? (·.name == name)

def token (table : TableId) (row : Nat) : Token := Token.ofParts table.number row

theorem number_lt (table : TableId) : table.number < count := by
  cases table <;> decide

def index (table : TableId) : Fin count := ⟨table.number, table.number_lt⟩

theorem all_getElem? (table : TableId) : all[table.number]? = some table := by
  cases table <;> rfl

theorem number_injective {a b : TableId} (h : a.number = b.number) : a = b := by
  have hall : some a = some b := by rw [← all_getElem? a, ← all_getElem? b, h]
  exact Option.some.inj hall

theorem index_injective {a b : TableId} (h : a.index = b.index) : a = b :=
  number_injective (Fin.val_eq_of_eq h)

end TableId

/-- A kind of coded index. -/
inductive CodedIndex where
  | typeDefOrRef
  | hasConstant
  | hasCustomAttribute
  | hasFieldMarshal
  | hasDeclSecurity
  | memberRefParent
  | hasSemantics
  | methodDefOrRef
  | memberForwarded
  | implementation
  | customAttributeType
  | resolutionScope
  | typeOrMethodDef
  deriving DecidableEq, Repr

namespace CodedIndex

def all : List CodedIndex :=
  [.typeDefOrRef, .hasConstant, .hasCustomAttribute, .hasFieldMarshal, .hasDeclSecurity,
    .memberRefParent, .hasSemantics, .methodDefOrRef, .memberForwarded, .implementation,
    .customAttributeType, .resolutionScope, .typeOrMethodDef]

def name : CodedIndex → String
  | typeDefOrRef => "TypeDefOrRef"
  | hasConstant => "HasConstant"
  | hasCustomAttribute => "HasCustomAttribute"
  | hasFieldMarshal => "HasFieldMarshal"
  | hasDeclSecurity => "HasDeclSecurity"
  | memberRefParent => "MemberRefParent"
  | hasSemantics => "HasSemantics"
  | methodDefOrRef => "MethodDefOrRef"
  | memberForwarded => "MemberForwarded"
  | implementation => "Implementation"
  | customAttributeType => "CustomAttributeType"
  | resolutionScope => "ResolutionScope"
  | typeOrMethodDef => "TypeOrMethodDef"

def ofName? (name : String) : Option CodedIndex := all.find? (·.name == name)

/-- The tables that the tags of a kind choose; some tags choose none. -/
def tables : CodedIndex → List (Option TableId)
  | typeDefOrRef => [some .typeDef, some .typeRef, some .typeSpec]
  | hasConstant => [some .field, some .param, some .property]
  | hasCustomAttribute =>
      [some .methodDef, some .field, some .typeRef, some .typeDef, some .param,
        some .interfaceImpl, some .memberRef, some .module, some .declSecurity, some .property,
        some .event, some .standAloneSig, some .moduleRef, some .typeSpec, some .assembly,
        some .assemblyRef, some .file, some .exportedType, some .manifestResource,
        some .genericParam, some .genericParamConstraint, some .methodSpec]
  | hasFieldMarshal => [some .field, some .param]
  | hasDeclSecurity => [some .typeDef, some .methodDef, some .assembly]
  | memberRefParent =>
      [some .typeDef, some .typeRef, some .moduleRef, some .methodDef, some .typeSpec]
  | hasSemantics => [some .event, some .property]
  | methodDefOrRef => [some .methodDef, some .memberRef]
  | memberForwarded => [some .field, some .methodDef]
  | implementation => [some .file, some .assemblyRef, some .exportedType]
  | customAttributeType => [none, none, some .methodDef, some .memberRef, none]
  | resolutionScope => [some .module, some .moduleRef, some .assemblyRef, some .typeRef]
  | typeOrMethodDef => [some .typeDef, some .methodDef]

/-- The number of bits that tell the tables of a kind apart. -/
def tagBits (kind : CodedIndex) : Nat := Nat.log2 (kind.tables.length - 1) + 1

/-- The token that a coded index names; row 0 and a tag without a table name nothing. -/
def decode (kind : CodedIndex) (value : Nat) : Token :=
  let row := value / Nat.pow 2 kind.tagBits
  match kind.tables[value % Nat.pow 2 kind.tagBits]? with
  | some (some table) => if row = 0 then Token.zero else table.token row
  | _ => Token.zero

/-- The coded index of a row of the table with the given tag. -/
def encode (kind : CodedIndex) (tag row : Nat) : Nat := row * Nat.pow 2 kind.tagBits + tag

end CodedIndex
end AssemblyBrowser
